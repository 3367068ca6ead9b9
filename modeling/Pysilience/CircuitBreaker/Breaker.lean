/-
The circuit breaker: its configuration, its state, and the critical sections of its methods.

Every method of `CircuitBreaker` that touches the state does so in one section guarded by the
lock, so a method is modelled by the function its section computes, from the state before to the
state after; what the method does outside the lock is to emit events, which does not concern the
state.  Each section reads the clock at most once and takes the reading as an argument.

Numbers that the source declares as `float` are exact rationals.

Main definitions:

* `CircuitBreaker.CircuitBreakerConfig` — an accepted configuration;
* `CircuitBreaker.Breaker` — the mutable fields of a circuit breaker;
* `CircuitBreaker.Breaker.acquirePermission`, `CircuitBreaker.Breaker.recordOutcome`,
  `CircuitBreaker.Breaker.reset` — the three critical sections;
* `CircuitBreaker.Breaker.onComplete`, `CircuitBreaker.Breaker.afterCall` — what becomes of the
  outcome of a call;
* `CircuitBreaker.verdict` — how an outcome is classified.

Main results:

* `CircuitBreaker.Breaker.acquire_cases`, `CircuitBreaker.Breaker.record_cases` — everything the
  two sections can do, one case per branch;
* `CircuitBreaker.Breaker.afterCall_eq` — an outcome is recorded exactly when it has a verdict.
-/

import Pysilience.Lib.Deque
import Pysilience.Lib.Python
import Mathlib.Algebra.Field.Rat
import Mathlib.Algebra.Order.Ring.Unbundled.Rat

set_option relaxedAutoImplicit false
set_option autoImplicit false

namespace CircuitBreaker

open Python Collections

universe u v

/-! ### Configuration -/

/-- The states `CLOSED`, `OPEN` and `HALF_OPEN` of a circuit breaker. -/
inductive CircuitBreakerState
  | closed | opened | halfOpen
  deriving DecidableEq, Repr

/-- The fields of a configuration, before they are checked. -/
structure ConfigFields (Cls : Type v) where
  failureRateThreshold : ℚ := 1 / 2
  slidingWindowSize : ℤ := 10
  minimumNumberOfCalls : ℤ := 5
  waitDurationInOpenState : ℚ := 60
  permittedNumberOfCallsInHalfOpenState : ℤ := 5
  /-- The default of the source is the class `Exception` alone. -/
  recordExceptions : List Cls
  ignoreExceptions : List Cls := []

/-- The checks of `CircuitBreakerConfig.__post_init__`, in order. -/
def ConfigFields.postInit {Cls : Type v} (c : ConfigFields Cls) : Except FString Unit :=
  checks [
    (!decide (0 < c.failureRateThreshold ∧ c.failureRateThreshold ≤ 1),
      [.text "failure_rate_threshold must be in (0.0, 1.0], got ", .float c.failureRateThreshold]),
    (decide (c.slidingWindowSize < 1),
      [.text "sliding_window_size must be >= 1, got ", .int c.slidingWindowSize]),
    (decide (c.minimumNumberOfCalls < 1),
      [.text "minimum_number_of_calls must be >= 1, got ", .int c.minimumNumberOfCalls]),
    (decide (c.slidingWindowSize < c.minimumNumberOfCalls),
      [.text "minimum_number_of_calls (", .int c.minimumNumberOfCalls,
        .text ") must be <= sliding_window_size (", .int c.slidingWindowSize, .text ")"]),
    (decide (c.waitDurationInOpenState < 0),
      [.text "wait_duration_in_open_state must be non-negative, got ",
        .float c.waitDurationInOpenState]),
    (decide (c.permittedNumberOfCallsInHalfOpenState < 1),
      [.text "permitted_number_of_calls_in_half_open_state must be >= 1, got ",
        .int c.permittedNumberOfCallsInHalfOpenState])]

/-- A configuration that was accepted: `__post_init__` raised nothing. -/
structure CircuitBreakerConfig (Cls : Type v) extends ConfigFields Cls where
  accepted : toConfigFields.postInit = .ok ()

namespace CircuitBreakerConfig

variable {Cls : Type v} (cfg : CircuitBreakerConfig Cls)

/-- What acceptance guarantees, as one list of bounds. -/
theorem bounds : (0 < cfg.failureRateThreshold ∧ cfg.failureRateThreshold ≤ 1) ∧
    1 ≤ cfg.slidingWindowSize ∧ 1 ≤ cfg.minimumNumberOfCalls ∧
    cfg.minimumNumberOfCalls ≤ cfg.slidingWindowSize ∧ 0 ≤ cfg.waitDurationInOpenState ∧
    1 ≤ cfg.permittedNumberOfCallsInHalfOpenState := by
  have h := cfg.accepted
  rw [ConfigFields.postInit, checks_eq_ok] at h
  simp only [List.forall_mem_cons, Bool.not_eq_false', decide_eq_true_eq, decide_eq_false_iff_not,
    not_lt] at h
  exact ⟨h.1, h.2.1, h.2.2.1, h.2.2.2.1, h.2.2.2.2.1, h.2.2.2.2.2.1⟩

theorem one_le_minimumNumberOfCalls : 1 ≤ cfg.minimumNumberOfCalls := cfg.bounds.2.2.1

theorem one_le_permitted : 1 ≤ cfg.permittedNumberOfCallsInHalfOpenState :=
  cfg.bounds.2.2.2.2.2

/-- The maximal length of the sliding window. -/
def windowSize : ℕ := cfg.slidingWindowSize.toNat

theorem windowSize_pos : 0 < cfg.windowSize := by
  have := cfg.bounds.2.1
  unfold windowSize
  omega

end CircuitBreakerConfig

/-! ### State -/

/-- `CircuitBreakerOpen`, the exception a rejected call raises. -/
structure CircuitBreakerOpen where
  message : String
  name : String
  /-- `None` when the call was rejected in the half-open state. -/
  remainingWait : Option ℚ
  deriving DecidableEq

/-- A change of the state: from, to. -/
abbrev Transition := CircuitBreakerState × CircuitBreakerState

variable {Exc : Type u} {Cls : Type v} [Exceptions Exc Cls]

/-- The fields of a circuit breaker with configuration `cfg`. -/
structure Breaker (cfg : CircuitBreakerConfig Cls) where
  name : String
  state : CircuitBreakerState
  window : Deque Bool cfg.windowSize
  failureCount : ℤ
  halfOpenResults : List Bool
  halfOpenAllowed : ℤ
  openedAt : ℚ

namespace Breaker

variable {cfg : CircuitBreakerConfig Cls}

/-- `CircuitBreaker.__init__`.  A name that is `None` or empty is replaced. -/
def init (cfg : CircuitBreakerConfig Cls) (name : Option String := none) : Breaker cfg where
  name := match name with
    | none | some "" => "circuitbreaker"
    | some name => name
  state := .closed
  window := Deque.empty
  failureCount := 0
  halfOpenResults := []
  halfOpenAllowed := 0
  openedAt := 0

/-- The critical section of `reset`. -/
def reset (cb : Breaker cfg) : Breaker cfg :=
  { cb with
    state := .closed
    window := Deque.empty
    failureCount := 0
    halfOpenResults := []
    halfOpenAllowed := 0 }

def makeOpenError (cb : Breaker cfg) (remaining : Option ℚ) : CircuitBreakerOpen where
  message := "Circuit breaker is OPEN"
  name := cb.name
  remainingWait := remaining

/-- The critical section of `_acquire_permission` at the clock reading `now`: the state the call
was admitted in together with the transitions made, or the error it is rejected with. -/
def acquirePermission (cb : Breaker cfg) (now : ℚ) :
    Except CircuitBreakerOpen (CircuitBreakerState × List Transition) × Breaker cfg :=
  match cb.state with
  | .closed => (.ok (.closed, []), cb)
  | .opened =>
      let elapsed := now - cb.openedAt
      if cfg.waitDurationInOpenState ≤ elapsed then
        (.ok (.halfOpen, [(.opened, .halfOpen)]),
          { cb with
            state := .halfOpen
            halfOpenResults := []
            halfOpenAllowed := cfg.permittedNumberOfCallsInHalfOpenState - 1 })
      else
        (.error (cb.makeOpenError (some (cfg.waitDurationInOpenState - elapsed))), cb)
  | .halfOpen =>
      if 0 < cb.halfOpenAllowed then
        (.ok (.halfOpen, []), { cb with halfOpenAllowed := cb.halfOpenAllowed - 1 })
      else
        (.error (cb.makeOpenError none), cb)

/-- `_window_record`.  The window of an accepted configuration is not empty when it is full, so
the source's `self._window[0]` is defined. -/
def windowRecord (cb : Breaker cfg) (success : Bool) : Breaker cfg :=
  let count :=
    if cb.window.items.length = cfg.windowSize then
      match cb.window.items.head? with
      | some false => cb.failureCount - 1
      | _ => cb.failureCount
    else cb.failureCount
  { cb with
    window := cb.window.append success
    failureCount := if success then count else count + 1 }

@[simp] theorem windowRecord_state (cb : Breaker cfg) (success : Bool) :
    (cb.windowRecord success).state = cb.state := rfl

@[simp] theorem windowRecord_window (cb : Breaker cfg) (success : Bool) :
    (cb.windowRecord success).window = cb.window.append success := rfl

/-- `_record_outcome` at the clock reading `now`: the transitions made. -/
def recordOutcome (cb : Breaker cfg) (calledIn : CircuitBreakerState) (success : Bool) (now : ℚ) :
    List Transition × Breaker cfg :=
  match calledIn, cb.state with
  | .closed, .closed =>
      let cb := cb.windowRecord success
      let total := cb.window.items.length
      if cfg.minimumNumberOfCalls ≤ total then
        let rate : ℚ := cb.failureCount / total
        if cfg.failureRateThreshold ≤ rate then
          ([(.closed, .opened)], { cb with state := .opened, openedAt := now })
        else ([], cb)
      else ([], cb)
  | .halfOpen, .halfOpen =>
      let cb := { cb with halfOpenResults := cb.halfOpenResults ++ [success] }
      if cfg.permittedNumberOfCallsInHalfOpenState ≤ cb.halfOpenResults.length then
        let failures := cb.halfOpenResults.countP (!·)
        let rate : ℚ := failures / cb.halfOpenResults.length
        if cfg.failureRateThreshold ≤ rate then
          ([(.halfOpen, .opened)], { cb with state := .opened, openedAt := now })
        else
          ([(.halfOpen, .closed)],
            { cb with state := .closed, window := Deque.empty, failureCount := 0 })
      else ([], cb)
  | _, _ => ([], cb)

end Breaker

/-! ### The outcome of a call -/

/-- The test at the head of `_on_complete`. -/
def ignored (cfg : CircuitBreakerConfig Cls) (exc : Exc) : Bool :=
  !cfg.ignoreExceptions.isEmpty && isinstanceAny exc cfg.ignoreExceptions

namespace Breaker

variable {cfg : CircuitBreakerConfig Cls}

/-- `_on_complete`: an ignored exception leaves the state alone, everything else is recorded. -/
def onComplete (cb : Breaker cfg) (calledIn : CircuitBreakerState) (exc : Option Exc) (now : ℚ) :
    List Transition × Breaker cfg :=
  match exc with
  | some exc =>
      if ignored cfg exc then ([], cb)
      else cb.recordOutcome calledIn (!isinstanceAny exc cfg.recordExceptions) now
  | none => cb.recordOutcome calledIn true now

/-- What `execute` and `execute_async` do once the call has ended: the handler `except Exception`
and the normal continuation both reach `_on_complete`, any other exception passes through. -/
def afterCall (cb : Breaker cfg) (calledIn : CircuitBreakerState) (outcome : Except Exc Unit)
    (now : ℚ) : List Transition × Breaker cfg :=
  match outcome with
  | .ok () => cb.onComplete calledIn (none : Option Exc) now
  | .error exc => if caught exc then cb.onComplete calledIn (some exc) now else ([], cb)

end Breaker

/-- How the outcome of a call is classified: `none` when it never reaches `_record_outcome`,
otherwise the success flag it is recorded with. -/
def verdict (cfg : CircuitBreakerConfig Cls) (outcome : Except Exc Unit) : Option Bool :=
  match outcome with
  | .ok () => some true
  | .error exc =>
      if caught exc && !ignored cfg exc then some (!isinstanceAny exc cfg.recordExceptions)
      else none

namespace Breaker

variable {cfg : CircuitBreakerConfig Cls}

/-- An outcome reaches `_record_outcome` exactly when it has a verdict. -/
theorem afterCall_eq (cb : Breaker cfg) (calledIn : CircuitBreakerState)
    (outcome : Except Exc Unit) (now : ℚ) :
    cb.afterCall calledIn outcome now =
      match verdict cfg outcome with
      | none => ([], cb)
      | some success => cb.recordOutcome calledIn success now := by
  match outcome with
  | .ok () => rfl
  | .error exc =>
      cases hc : caught exc <;> cases hi : ignored cfg exc <;>
        simp [afterCall, onComplete, verdict, hc, hi]

/-! ### What the critical sections can do -/

/-- The failure rate of the window calls for the circuit to open. -/
def Tripped (cb : Breaker cfg) : Prop :=
  cfg.minimumNumberOfCalls ≤ cb.window.items.length ∧
    cfg.failureRateThreshold ≤ (cb.failureCount / cb.window.items.length : ℚ)

/-- The failure rate of a full list of probe results calls for the circuit to open again. -/
def ProbesFail (cfg : CircuitBreakerConfig Cls) (results : List Bool) : Prop :=
  cfg.failureRateThreshold ≤ (results.countP (!·) / results.length : ℚ)

/-- The branches of `_acquire_permission`. -/
inductive AcquireCase (cb : Breaker cfg) (now : ℚ) :
    Except CircuitBreakerOpen (CircuitBreakerState × List Transition) → Breaker cfg → Prop
  | closed : cb.state = .closed → AcquireCase cb now (.ok (.closed, [])) cb
  | wait : cb.state = .opened → now - cb.openedAt < cfg.waitDurationInOpenState →
      AcquireCase cb now
        (.error (cb.makeOpenError (some (cfg.waitDurationInOpenState - (now - cb.openedAt))))) cb
  | firstProbe : cb.state = .opened → cfg.waitDurationInOpenState ≤ now - cb.openedAt →
      AcquireCase cb now (.ok (.halfOpen, [(.opened, .halfOpen)]))
        { cb with
          state := .halfOpen
          halfOpenResults := []
          halfOpenAllowed := cfg.permittedNumberOfCallsInHalfOpenState - 1 }
  | probe : cb.state = .halfOpen → 0 < cb.halfOpenAllowed →
      AcquireCase cb now (.ok (.halfOpen, []))
        { cb with halfOpenAllowed := cb.halfOpenAllowed - 1 }
  | exhausted : cb.state = .halfOpen → cb.halfOpenAllowed ≤ 0 →
      AcquireCase cb now (.error (cb.makeOpenError none)) cb

/-- Everything an attempt to acquire permission can do. -/
theorem acquire_cases (cb : Breaker cfg) (now : ℚ) :
    AcquireCase cb now (cb.acquirePermission now).1 (cb.acquirePermission now).2 := by
  unfold acquirePermission
  split
  · next h => exact .closed h
  · next h =>
    dsimp only
    split
    · next hw => exact .firstProbe h hw
    · next hw => exact .wait h (not_le.1 hw)
  · next h =>
    split
    · next ha => exact .probe h ha
    · next ha => exact .exhausted h (not_lt.1 ha)

/-- The branches of `_record_outcome`. -/
inductive RecordCase (cb : Breaker cfg) (calledIn : CircuitBreakerState) (success : Bool)
    (now : ℚ) : Breaker cfg → Prop
  | skipped : ¬ (calledIn = cb.state ∧ calledIn ≠ .opened) →
      RecordCase cb calledIn success now cb
  | stayClosed : calledIn = .closed → cb.state = .closed → ¬ (cb.windowRecord success).Tripped →
      RecordCase cb calledIn success now (cb.windowRecord success)
  | trip : calledIn = .closed → cb.state = .closed → (cb.windowRecord success).Tripped →
      RecordCase cb calledIn success now
        { cb.windowRecord success with state := .opened, openedAt := now }
  | probe : calledIn = .halfOpen → cb.state = .halfOpen →
      ((cb.halfOpenResults ++ [success]).length : ℤ) < cfg.permittedNumberOfCallsInHalfOpenState →
      RecordCase cb calledIn success now
        { cb with halfOpenResults := cb.halfOpenResults ++ [success] }
  | reopen : calledIn = .halfOpen → cb.state = .halfOpen →
      cfg.permittedNumberOfCallsInHalfOpenState ≤ (cb.halfOpenResults ++ [success]).length →
      ProbesFail cfg (cb.halfOpenResults ++ [success]) →
      RecordCase cb calledIn success now
        { cb with
          halfOpenResults := cb.halfOpenResults ++ [success]
          state := .opened
          openedAt := now }
  | close : calledIn = .halfOpen → cb.state = .halfOpen →
      cfg.permittedNumberOfCallsInHalfOpenState ≤ (cb.halfOpenResults ++ [success]).length →
      ¬ ProbesFail cfg (cb.halfOpenResults ++ [success]) →
      RecordCase cb calledIn success now
        { cb with
          halfOpenResults := cb.halfOpenResults ++ [success]
          state := .closed
          window := Deque.empty
          failureCount := 0 }

/-- Everything the recording of an outcome can do. -/
theorem record_cases (cb : Breaker cfg) (calledIn : CircuitBreakerState) (success : Bool)
    (now : ℚ) : RecordCase cb calledIn success now (cb.recordOutcome calledIn success now).2 := by
  unfold recordOutcome
  split
  · next h =>
    dsimp only
    split
    · next hm =>
      split
      · next hr => exact .trip rfl h ⟨hm, hr⟩
      · next hr => exact .stayClosed rfl h fun ht => hr ht.2
    · next hm => exact .stayClosed rfl h fun ht => hm ht.1
  · next h =>
    dsimp only
    split
    · next hp =>
      split
      · next hr => exact .reopen rfl h hp hr
      · next hr => exact .close rfl h hp hr
    · next hp => exact .probe rfl h (not_le.1 hp)
  · next hc hh =>
    refine .skipped ?_
    rintro ⟨rfl, hne⟩
    cases hs : cb.state with
    | closed => exact hc hs hs
    | opened => exact hne hs
    | halfOpen => exact hh hs hs

end Breaker

end CircuitBreaker
