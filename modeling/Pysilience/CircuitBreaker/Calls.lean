/-
The calls that run through a circuit breaker, interleaved.

Any number of callers share one circuit breaker.  A caller runs one critical section to be
admitted, is then in flight for as long as it likes, and runs one more critical section when its
call ends, unless the call ends in a way that is never recorded.  The machine `calls` interleaves
these sections and the resets arbitrarily.

Next to the breaker and the calls in flight the machine keeps a record that no section reads: how
often the state has changed so far, which numbers the *periods* of a run, and a log of what
happened to each call.  All properties of whole runs are stated on that log.

Main definitions:

* `CircuitBreaker.Call`, `CircuitBreaker.Entry`, `CircuitBreaker.System` — a call in flight, an
  entry of the log, and the state of the machine;
* `CircuitBreaker.Action`, `CircuitBreaker.System.step`, `CircuitBreaker.calls` — the machine;
* `CircuitBreaker.System.StepCase` — what one step can do.

Main results:

* `CircuitBreaker.System.step_cases` — every step is one of these cases.
-/

import Pysilience.CircuitBreaker.Breaker
import Pysilience.Lib.Transition

set_option relaxedAutoImplicit false
set_option autoImplicit false

namespace CircuitBreaker

open Python Collections Transition

universe u v

variable {Exc : Type u} {Cls : Type v} [Exceptions Exc Cls]

/-! ### The machine -/

/-- An admitted call: its number, the state it was admitted in, and the period of the run in which
that was. -/
structure Call where
  id : ℕ
  calledIn : CircuitBreakerState
  period : ℕ
  deriving DecidableEq, Repr

/-- The call was admitted as a probe of the period `p`. -/
def Call.probeOf (c : Call) (p : ℕ) : Bool := c.calledIn == .halfOpen && c.period == p

/-- What the log says about the calls of a run. -/
inductive Entry
  /-- The call was admitted. -/
  | admitted (call : Call)
  /-- The outcome of the call was appended to `_window` during the period. -/
  | windowed (call : Call) (success : Bool) (period : ℕ)
  /-- The outcome of the call was appended to `_half_open_results` during the period. -/
  | probed (call : Call) (success : Bool) (period : ℕ)
  /-- The call ended and its outcome was appended nowhere. -/
  | unrecorded (call : Call)
  /-- `_window` was cleared. -/
  | cleared
  deriving DecidableEq, Repr

/-- The state of the machine: the circuit breaker, the number of changes of its state so far, the
calls in flight, the number of calls admitted so far, and the log. -/
structure System (cfg : CircuitBreakerConfig Cls) where
  cb : Breaker cfg
  period : ℕ
  running : List Call
  nextId : ℕ
  log : List Entry

/-- The steps a caller can take.  `complete` is the end of an admitted call: it returns
(`.ok ()`) or raises. -/
inductive Action (Exc : Type u)
  | acquire (now : ℚ)
  | complete (call : Call) (outcome : Except Exc Unit) (now : ℚ)
  | reset

namespace System

variable {cfg : CircuitBreakerConfig Cls}

/-- A circuit breaker that was just constructed. -/
def init (cfg : CircuitBreakerConfig Cls) : System cfg := ⟨Breaker.init cfg, 0, [], 0, []⟩

/-- The period after a section that left the breaker as `cb`. -/
def periodAfter (s : System cfg) (cb : Breaker cfg) : ℕ :=
  if cb.state = s.cb.state then s.period else s.period + 1

/-- What the log says about the end of the call `c`, given its verdict and the breaker `cb` the
section left. -/
def endEntries (s : System cfg) (c : Call) (cb : Breaker cfg) : Option Bool → List Entry
  | none => [.unrecorded c]
  | some success =>
      match c.calledIn, s.cb.state with
      | .closed, .closed => [.windowed c success s.period]
      | .halfOpen, .halfOpen =>
          .probed c success s.period :: if cb.state = .closed then [.cleared] else []
      | _, _ => [.unrecorded c]

/-- One step of one caller. -/
def step (s : System cfg) : Action Exc → Option (System cfg)
  | .acquire now =>
      match s.cb.acquirePermission now with
      | (.error _, cb) => some { s with cb := cb }
      | (.ok (calledIn, _), cb) =>
          let c : Call := ⟨s.nextId, calledIn, s.periodAfter cb⟩
          some ⟨cb, s.periodAfter cb, c :: s.running, s.nextId + 1, s.log ++ [.admitted c]⟩
  | .complete c outcome now =>
      if c ∈ s.running then
        let cb := (s.cb.afterCall c.calledIn outcome now).2
        some ⟨cb, s.periodAfter cb, s.running.erase c, s.nextId,
          s.log ++ s.endEntries c cb (verdict cfg outcome)⟩
      else none
  | .reset =>
      some { s with
        cb := s.cb.reset
        period := s.periodAfter s.cb.reset
        log := s.log ++ [.cleared] }

end System

/-- The circuit breaker with configuration `cfg` under any interleaving of its callers. -/
def calls (Exc : Type u) {Cls : Type v} [Exceptions Exc Cls] (cfg : CircuitBreakerConfig Cls) :
    Machine (System cfg) (Action Exc) where
  init := System.init cfg
  step := System.step

namespace System

variable {cfg : CircuitBreakerConfig Cls}

/-! ### What one step can do -/

/-- The cases of a step, one for every branch of the three sections. -/
inductive StepCase (s : System cfg) : Action Exc → System cfg → Prop
  | rejected (now : ℚ) :
      (s.cb.state = .opened ∧ now - s.cb.openedAt < cfg.waitDurationInOpenState ∨
        s.cb.state = .halfOpen ∧ s.cb.halfOpenAllowed ≤ 0) →
      StepCase s (.acquire now) s
  | admitted (now : ℚ) : s.cb.state = .closed →
      StepCase s (.acquire now)
        { s with
          running := ⟨s.nextId, .closed, s.period⟩ :: s.running
          nextId := s.nextId + 1
          log := s.log ++ [.admitted ⟨s.nextId, .closed, s.period⟩] }
  | firstProbe (now : ℚ) : s.cb.state = .opened →
      cfg.waitDurationInOpenState ≤ now - s.cb.openedAt →
      StepCase s (.acquire now)
        ⟨{ s.cb with
            state := .halfOpen
            halfOpenResults := []
            halfOpenAllowed := cfg.permittedNumberOfCallsInHalfOpenState - 1 },
          s.period + 1, ⟨s.nextId, .halfOpen, s.period + 1⟩ :: s.running, s.nextId + 1,
          s.log ++ [.admitted ⟨s.nextId, .halfOpen, s.period + 1⟩]⟩
  | probe (now : ℚ) : s.cb.state = .halfOpen → 0 < s.cb.halfOpenAllowed →
      StepCase s (.acquire now)
        ⟨{ s.cb with halfOpenAllowed := s.cb.halfOpenAllowed - 1 }, s.period,
          ⟨s.nextId, .halfOpen, s.period⟩ :: s.running, s.nextId + 1,
          s.log ++ [.admitted ⟨s.nextId, .halfOpen, s.period⟩]⟩
  | unrecorded (c : Call) (outcome : Except Exc Unit) (now : ℚ) : c ∈ s.running →
      (verdict cfg outcome = none ∨ ¬ (c.calledIn = s.cb.state ∧ c.calledIn ≠ .opened)) →
      StepCase s (.complete c outcome now)
        { s with running := s.running.erase c, log := s.log ++ [.unrecorded c] }
  | windowed (c : Call) (outcome : Except Exc Unit) (now : ℚ) (success : Bool) : c ∈ s.running →
      verdict cfg outcome = some success → c.calledIn = .closed → s.cb.state = .closed →
      ¬ (s.cb.windowRecord success).Tripped →
      StepCase s (.complete c outcome now)
        { s with
          cb := s.cb.windowRecord success
          running := s.running.erase c
          log := s.log ++ [.windowed c success s.period] }
  | trip (c : Call) (outcome : Except Exc Unit) (now : ℚ) (success : Bool) : c ∈ s.running →
      verdict cfg outcome = some success → c.calledIn = .closed → s.cb.state = .closed →
      (s.cb.windowRecord success).Tripped →
      StepCase s (.complete c outcome now)
        { s with
          cb := { s.cb.windowRecord success with state := .opened, openedAt := now }
          period := s.period + 1
          running := s.running.erase c
          log := s.log ++ [.windowed c success s.period] }
  | probed (c : Call) (outcome : Except Exc Unit) (now : ℚ) (success : Bool) : c ∈ s.running →
      verdict cfg outcome = some success → c.calledIn = .halfOpen → s.cb.state = .halfOpen →
      ((s.cb.halfOpenResults ++ [success]).length : ℤ) <
        cfg.permittedNumberOfCallsInHalfOpenState →
      StepCase s (.complete c outcome now)
        { s with
          cb := { s.cb with halfOpenResults := s.cb.halfOpenResults ++ [success] }
          running := s.running.erase c
          log := s.log ++ [.probed c success s.period] }
  | reopen (c : Call) (outcome : Except Exc Unit) (now : ℚ) (success : Bool) : c ∈ s.running →
      verdict cfg outcome = some success → c.calledIn = .halfOpen → s.cb.state = .halfOpen →
      cfg.permittedNumberOfCallsInHalfOpenState ≤ (s.cb.halfOpenResults ++ [success]).length →
      Breaker.ProbesFail cfg (s.cb.halfOpenResults ++ [success]) →
      StepCase s (.complete c outcome now)
        { s with
          cb := { s.cb with
            halfOpenResults := s.cb.halfOpenResults ++ [success]
            state := .opened
            openedAt := now }
          period := s.period + 1
          running := s.running.erase c
          log := s.log ++ [.probed c success s.period] }
  | close (c : Call) (outcome : Except Exc Unit) (now : ℚ) (success : Bool) : c ∈ s.running →
      verdict cfg outcome = some success → c.calledIn = .halfOpen → s.cb.state = .halfOpen →
      cfg.permittedNumberOfCallsInHalfOpenState ≤ (s.cb.halfOpenResults ++ [success]).length →
      ¬ Breaker.ProbesFail cfg (s.cb.halfOpenResults ++ [success]) →
      StepCase s (.complete c outcome now)
        { s with
          cb := { s.cb with
            halfOpenResults := s.cb.halfOpenResults ++ [success]
            state := .closed
            window := Deque.empty
            failureCount := 0 }
          period := s.period + 1
          running := s.running.erase c
          log := s.log ++ [.probed c success s.period, .cleared] }
  | reset :
      StepCase s .reset
        { s with
          cb := s.cb.reset
          period := s.periodAfter s.cb.reset
          log := s.log ++ [.cleared] }

@[simp] theorem periodAfter_of_eq {s : System cfg} {cb : Breaker cfg}
    (h : cb.state = s.cb.state) : s.periodAfter cb = s.period := if_pos h

@[simp] theorem periodAfter_of_ne {s : System cfg} {cb : Breaker cfg}
    (h : cb.state ≠ s.cb.state) : s.periodAfter cb = s.period + 1 := if_neg h

/-- An admission is one of the cases. -/
theorem stepCase_acquire {s s' : System cfg} {now : ℚ}
    (h : s.step (.acquire now : Action Exc) = some s') :
    StepCase s (.acquire now : Action Exc) s' := by
  have hc := s.cb.acquire_cases now
  simp only [step] at h
  generalize s.cb.acquirePermission now = r at h hc
  obtain ⟨res, cb⟩ := r
  dsimp only at hc
  cases hc with
  | closed hs =>
      simp only [periodAfter_of_eq, Option.some_inj] at h
      subst h
      exact .admitted now hs
  | wait hs hw =>
      simp only [Option.some_inj] at h
      subst h
      exact .rejected now (.inl ⟨hs, hw⟩)
  | firstProbe hs hw =>
      simp only [periodAfter, hs, reduceCtorEq, if_false, Option.some_inj] at h
      subst h
      exact .firstProbe now hs hw
  | probe hs ha =>
      simp only [periodAfter, if_true, Option.some_inj] at h
      subst h
      exact .probe now hs ha
  | exhausted hs ha =>
      simp only [Option.some_inj] at h
      subst h
      exact .rejected now (.inr ⟨hs, ha⟩)

/-- The end of a call is one of the cases. -/
theorem stepCase_complete {s s' : System cfg} {c : Call} {outcome : Except Exc Unit} {now : ℚ}
    (h : s.step (.complete c outcome now) = some s') : StepCase s (.complete c outcome now) s' := by
  simp only [step, Breaker.afterCall_eq] at h
  split at h
  · next hrun =>
    rw [Option.some_inj] at h
    cases hv : verdict cfg outcome with
    | none =>
        simp only [hv, endEntries, periodAfter_of_eq] at h
        subst h
        exact .unrecorded c outcome now hrun (.inl hv)
    | some success =>
        have hc := s.cb.record_cases c.calledIn success now
        simp only [hv, endEntries] at h
        generalize (s.cb.recordOutcome c.calledIn success now).2 = cb at h hc
        cases hc with
        | skipped hne =>
            have hentry : (match c.calledIn, s.cb.state with
                | .closed, .closed => [Entry.windowed c success s.period]
                | .halfOpen, .halfOpen =>
                    .probed c success s.period :: if s.cb.state = .closed then [.cleared] else []
                | _, _ => [.unrecorded c]) = [.unrecorded c] := by
              split
              · next h1 h2 => exact absurd ⟨by rw [h1, h2], by simp [h1]⟩ hne
              · next h1 h2 => exact absurd ⟨by rw [h1, h2], by simp [h1]⟩ hne
              · rfl
            rw [hentry, periodAfter_of_eq rfl] at h
            subst h
            exact .unrecorded c outcome now hrun (.inr hne)
        | stayClosed h1 h2 ht =>
            simp only [h1, h2, periodAfter, Breaker.windowRecord_state, if_true] at h
            subst h
            exact .windowed c outcome now success hrun hv h1 h2 ht
        | trip h1 h2 ht =>
            simp only [h1, h2, periodAfter, reduceCtorEq, if_false] at h
            subst h
            exact .trip c outcome now success hrun hv h1 h2 ht
        | probe h1 h2 hl =>
            simp only [h1, h2, periodAfter, reduceCtorEq, if_false, if_true] at h
            rw [← h2] at h
            subst h
            exact .probed c outcome now success hrun hv h1 h2 hl
        | reopen h1 h2 hl hf =>
            simp only [h1, h2, periodAfter, reduceCtorEq, if_false] at h
            subst h
            exact .reopen c outcome now success hrun hv h1 h2 hl hf
        | close h1 h2 hl hf =>
            simp only [h1, h2, periodAfter, reduceCtorEq, if_false, if_true] at h
            subst h
            exact .close c outcome now success hrun hv h1 h2 hl hf
  · cases h

/-- **Every step is one of the cases.** -/
theorem step_cases {s s' : System cfg} {a : Action Exc} (h : s.step a = some s') :
    StepCase s a s' := by
  cases a with
  | acquire now => exact stepCase_acquire h
  | complete c outcome now => exact stepCase_complete h
  | reset =>
      simp only [step, Option.some_inj] at h
      subst h
      exact .reset

end System

/-! ### A small configuration -/

/-- A configuration for concrete runs: the first recorded failure opens the circuit, one second
later a single probe is permitted, and `ValueError` is ignored. -/
def tinyConfig : CircuitBreakerConfig Builtin where
  slidingWindowSize := 2
  minimumNumberOfCalls := 1
  waitDurationInOpenState := 1
  permittedNumberOfCallsInHalfOpenState := 1
  recordExceptions := [.exception]
  ignoreExceptions := [.valueError]
  accepted := by decide +kernel

end CircuitBreaker
