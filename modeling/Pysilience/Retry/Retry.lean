/-
The retry pattern: its configuration, and the loop of `execute` and `execute_async`.

Both methods are one loop over the attempts; they differ in how the function is called and in how
they sleep between two attempts.  The exceptions the function may raise are those of the program;
the exceptions the methods raise are these and some of their own, `Retries.Raised`.

Numbers that the source declares as `float` are exact rationals, save that a power of them that
reaches `2 ^ 1024` raises an `OverflowError`.

Main definitions:

* `Retries.RetryConfig` — an accepted configuration;
* `Retries.RetryConfig.classifiesRetryable`, `Retries.RetryConfig.waitSecondsBeforeRetry` — which
  failures are retried, and after which wait;
* `Retries.Retry` — a retry instance;
* `Retries.Retry.loop`, `Retries.Retry.execute`, `Retries.Retry.executeAsync` — the methods;
* `Retries.Retry.silent` — an instance without its listeners.

Main results:

* `Retries.Retry.exec_turn_value`, `Retries.Retry.exec_turn_nonRetryable`,
  `Retries.Retry.exec_turn_exhausted`, `Retries.Retry.exec_turn_overflow`,
  `Retries.Retry.exec_turn_retried` — what one turn of the loop does, one lemma per branch;
* `Retries.Retry.turn_cases` — these are all the branches;
* `Retries.Retry.coupled_loop`, `Retries.Retry.coupled_execute` — listeners are not noticed.
-/

import Pysilience.Core.Listeners

set_option relaxedAutoImplicit false
set_option autoImplicit false

namespace Retries

open Python Programs Listeners

variable {Exc Cls ω V : Type}

/-! ### Configuration -/

/-- The fields of a configuration, before they are checked. -/
structure ConfigFields (Cls : Type) where
  maxAttempts : ℤ := 3
  initialInterval : ℚ := 0
  multiplier : ℚ := 2
  maxInterval : Option ℚ := none
  jitter : Bool := false
  jitterRatio : ℚ := 1 / 10
  /-- The default of the source is the class `Exception` alone. -/
  retryOn : List Cls
  abortOn : List Cls := []

/-- The checks of `RetryConfig.__post_init__`, in order. -/
def ConfigFields.postInit (c : ConfigFields Cls) : Except FString Unit :=
  checks [
    (decide (c.maxAttempts < 1), [.text "max_attempts must be >= 1, got ", .int c.maxAttempts]),
    (decide (c.initialInterval < 0),
      [.text "initial_interval must be non-negative, got ", .float c.initialInterval]),
    (decide (c.multiplier < 0),
      [.text "multiplier must be non-negative, got ", .float c.multiplier]),
    match c.maxInterval with
    | none => (false, [])
    | some m => (decide (m < 0), [.text "max_interval must be non-negative, got ", .float m]),
    (!decide (0 ≤ c.jitterRatio ∧ c.jitterRatio ≤ 1),
      [.text "jitter_ratio must be in [0, 1], got ", .float c.jitterRatio])]

/-- A configuration that was accepted: `__post_init__` raised nothing. -/
structure RetryConfig (Cls : Type) extends ConfigFields Cls where
  accepted : toConfigFields.postInit = .ok ()

/-- `OverflowError`, which a power of a `float` may raise. -/
structure OverflowError
  deriving DecidableEq

/-- `x ** k` for a `float` and an `int`. -/
def floatPow (x : ℚ) (k : ℕ) : Except OverflowError ℚ :=
  if 2 ^ 1024 ≤ x ^ k then .error ⟨⟩ else .ok (x ^ k)

namespace RetryConfig

variable (cfg : RetryConfig Cls)

/-- What acceptance guarantees, as one list of bounds. -/
theorem bounds : 1 ≤ cfg.maxAttempts ∧ 0 ≤ cfg.initialInterval ∧ 0 ≤ cfg.multiplier ∧
    (∀ m, cfg.maxInterval = some m → 0 ≤ m) ∧ 0 ≤ cfg.jitterRatio ∧ cfg.jitterRatio ≤ 1 := by
  have h := cfg.accepted
  rw [ConfigFields.postInit, checks_eq_ok] at h
  simp only [List.forall_mem_cons, Bool.not_eq_false', decide_eq_true_eq, decide_eq_false_iff_not,
    not_lt] at h
  refine ⟨h.1, h.2.1, h.2.2.1, ?_, h.2.2.2.2.1⟩
  intro m hm
  have hcheck := h.2.2.2.1
  rw [hm] at hcheck
  exact not_lt.1 (of_decide_eq_false hcheck)

/-- `_classifies_retryable`. -/
def classifiesRetryable [Exceptions Exc Cls] (exc : Exc) : Bool :=
  if !cfg.abortOn.isEmpty && isinstanceAny exc cfg.abortOn then false
  else isinstanceAny exc cfg.retryOn

/-- `_wait_seconds_before_retry`, where `uniform` is what `random.uniform` returns if it is
called. -/
def waitSecondsBeforeRetry (uniform : ℚ) (failedAttemptIndex : ℕ) : Except OverflowError ℚ :=
  if failedAttemptIndex < 1 then .ok 0
  else do
    let k := failedAttemptIndex - 1
    let raw := cfg.initialInterval * (← floatPow cfg.multiplier k)
    let raw := match cfg.maxInterval with
      | some maxInterval => min raw maxInterval
      | none => raw
    let raw := if cfg.jitter && decide (0 < cfg.jitterRatio) then raw * uniform else raw
    return max 0 raw

/-- An exception is not retried when it matches `abort_on` or does not match `retry_on`. -/
theorem classifiesRetryable_eq_false_iff [Exceptions Exc Cls] (exc : Exc) :
    cfg.classifiesRetryable exc = false ↔
      isinstanceAny exc cfg.abortOn = true ∨ isinstanceAny exc cfg.retryOn = false := by
  rw [classifiesRetryable, isinstanceAny_of_nonempty]
  cases isinstanceAny exc cfg.abortOn <;> simp

end RetryConfig

/-! ### Events and errors -/

/-- The types of events. -/
inductive RetryEventType
  | success | attemptFailure | exhausted | nonRetryable
  deriving DecidableEq, Repr

/-- `RetryEvent`. -/
structure RetryEvent (Exc : Type) where
  eventType : RetryEventType
  name : String
  attempt : ℤ
  maxAttempts : ℤ
  waitBeforeNext : Option ℚ
  exception : Option Exc := none
  deriving DecidableEq

/-- `RetriesExhausted`. -/
structure RetriesExhausted (Exc : Type) where
  message : String
  name : String
  attempts : ℤ
  lastException : Exc
  deriving DecidableEq

/-- What the methods raise: an exception of the function, or one of their own. -/
inductive Raised (Exc : Type)
  | original (exc : Exc)
  | retriesExhausted (error : RetriesExhausted Exc)
  | overflowError
  | runtimeError (message : String)
  deriving DecidableEq

instance : Raises Exc (Raised Exc) := ⟨.original⟩

/-- The functions that sleep: `time.sleep` and `asyncio.sleep`. -/
inductive Sleeper
  | time | asyncio
  deriving DecidableEq

/-- What the methods do besides calling the function and emitting events. -/
inductive RetryAction
  | slept (sleeper : Sleeper) (seconds : ℚ)
  deriving DecidableEq

/-! ### The methods -/

/-- What the methods run on; a retry instance has no fields that change. -/
abbrev RetryStage (Exc ω : Type) := Stage Unit RetryAction (RetryEvent Exc) ω

variable [Exceptions Exc Cls]

/-- A retry instance, with the listeners that `on_event` has registered. -/
structure Retry (Exc Cls ω : Type) [Exceptions Exc Cls] where
  config : RetryConfig Cls
  name : String
  listeners : List (Listener (RetryEvent Exc) ω Exc)

namespace Retry

/-- `Retry.__init__`.  A name that is `None` or empty is replaced. -/
def init (config : RetryConfig Cls) (name : Option String) : Retry Exc Cls ω where
  config := config
  name := match name with
    | none | some "" => "retry"
    | some name => name
  listeners := []

/-- `on_event`. -/
def onEvent (self : Retry Exc Cls ω) (listener : Listener (RetryEvent Exc) ω Exc) :
    Retry Exc Cls ω :=
  { self with listeners := self.listeners ++ [listener] }

variable (self : Retry Exc Cls ω)

/-- The event an attempt is reported with. -/
def event (eventType : RetryEventType) (attempt : ℕ) (wait : Option ℚ) (exception : Option Exc) :
    RetryEvent Exc where
  eventType := eventType
  name := self.name
  attempt := attempt
  maxAttempts := self.config.maxAttempts
  waitBeforeNext := wait
  exception := exception

/-- The call of `_wait_seconds_before_retry` in the methods. -/
def waitSeconds (uniform : ℚ) (attempt : ℕ) : Program (RetryStage Exc ω) (Raised Exc) ℚ :=
  match self.config.waitSecondsBeforeRetry uniform attempt with
  | .ok wait => pure wait
  | .error _ => throw .overflowError

/-- `time.sleep(seconds)` and `asyncio.sleep(seconds)`. -/
def sleep (sleeper : Sleeper) (seconds : ℚ) : Program (RetryStage Exc ω) (Raised Exc) Unit :=
  record (.slept sleeper seconds)

/-- The body of the `try` statement: one call of the function, and the event of a success. -/
def tryOnce (func : Program (RetryStage Exc ω) Exc V) (attempt : ℕ) :
    Program (RetryStage Exc ω) Exc V := do
  let result ← func
  emitEvent self.listeners (self.event .success attempt none none)
  return result

/-- The handler of the `try` statement, which returns if the loop goes on. -/
def handle (sleeper : Sleeper) (uniform : ℚ) (attempt : ℕ) (exc : Exc) :
    Program (RetryStage Exc ω) (Raised Exc) Unit :=
  if self.config.classifiesRetryable exc = false then do
    emitEvent self.listeners (self.event .nonRetryable attempt none (some exc))
    throw (.original exc)
  else if self.config.maxAttempts ≤ attempt then do
    emitEvent self.listeners (self.event .exhausted attempt none (some exc))
    throw (.retriesExhausted ⟨"Maximum retry attempts reached", self.name, attempt, exc⟩)
  else do
    let wait ← self.waitSeconds uniform attempt
    emitEvent self.listeners (self.event .attemptFailure attempt (some wait) (some exc))
    sleep sleeper wait

/-- The `try` statement of an attempt, which returns nothing if the loop goes on. -/
def turn (func : Program (RetryStage Exc ω) Exc V) (sleeper : Sleeper) (uniform : ℚ)
    (attempt : ℕ) : Program (RetryStage Exc ω) (Raised Exc) (Option V) :=
  tryExcept (self.tryOnce func attempt) caught
    (fun exc => do
      self.handle sleeper uniform attempt exc
      return none)
    (fun result => return some result)

/-- The loop `for attempt in range(1, max_attempts + 1)` and what follows it, from an attempt on,
when some attempts are left.  In the attempt `i`, `random.uniform` returns `draws i`. -/
def loop (func : Program (RetryStage Exc ω) Exc V) (sleeper : Sleeper) (draws : ℕ → ℚ) :
    ℕ → ℕ → Program (RetryStage Exc ω) (Raised Exc) V
  | 0, _ => throw (.runtimeError "retry loop exhausted without result")
  | left + 1, attempt => do
      match ← self.turn func sleeper (draws attempt) attempt with
      | some result => return result
      | none => loop func sleeper draws left (attempt + 1)

/-- `execute`. -/
def execute (outcomes : ℕ → Except Exc V) (draws : ℕ → ℚ) :
    Program (RetryStage Exc ω) (Raised Exc) V :=
  self.loop (invoke outcomes) .time draws self.config.maxAttempts.toNat 1

/-- `execute_async`, where `outcomes` is what becomes of the awaitables of the factory. -/
def executeAsync (outcomes : ℕ → Except Exc V) (draws : ℕ → ℚ) :
    Program (RetryStage Exc ω) (Raised Exc) V :=
  self.loop (invoke outcomes) .asyncio draws self.config.maxAttempts.toNat 1

/-! ### One turn of the loop -/

section Turn

variable {self} {outcomes : ℕ → Except Exc V} {sleeper : Sleeper} {uniform : ℚ} {attempt : ℕ}
  {s : RetryStage Exc ω} {exc : Exc}

theorem exec_tryOnce_error (h : outcomes (s.calls + 1) = .error exc) :
    exec (self.tryOnce (invoke outcomes) attempt) s = (.error exc, s.note .invoked) := by
  have hcall : exec (invoke outcomes) s = (.error exc, s.note .invoked) := by
    rw [exec_invoke, h]
  exact exec_bind_error hcall _

/-- What the handler raises ends the turn. -/
theorem exec_turn_handle_error {raised : Raised Exc} {s' : RetryStage Exc ω}
    (h : outcomes (s.calls + 1) = .error exc) (hc : caught exc = true)
    (hh : exec (self.handle sleeper uniform attempt exc) (s.note .invoked) = (.error raised, s')) :
    exec (self.turn (invoke outcomes) sleeper uniform attempt) s = (.error raised, s') := by
  rw [turn, exec_tryExcept_caught (exec_tryOnce_error h) hc]
  exact exec_bind_error hh _

/-- The function returns a value. -/
theorem exec_turn_value {value : V} (h : outcomes (s.calls + 1) = .ok value) :
    exec (self.turn (invoke outcomes) sleeper uniform attempt) s =
      (.ok (some value),
        (s.note .invoked).notified self.listeners (self.event .success attempt none none)) := by
  have hcall : exec (invoke outcomes) s = (.ok value, s.note .invoked) := by
    rw [exec_invoke, h]
  have honce : exec (self.tryOnce (invoke outcomes) attempt) s =
      (.ok value,
        (s.note .invoked).notified self.listeners (self.event .success attempt none none)) :=
    (exec_bind_ok hcall _).trans (exec_bind_ok (exec_emitEvent _ _ _) _)
  rw [turn, exec_tryExcept_ok honce, exec_pure]

/-- The function raises something that no handler catches. -/
theorem exec_turn_passed (h : outcomes (s.calls + 1) = .error exc) (hc : caught exc = false) :
    exec (self.turn (invoke outcomes) sleeper uniform attempt) s =
      (.error (.original exc), s.note .invoked) :=
  exec_tryExcept_passed (exec_tryOnce_error h) hc _ _

/-- The exception is not retried. -/
theorem exec_turn_nonRetryable (h : outcomes (s.calls + 1) = .error exc) (hc : caught exc = true)
    (hr : self.config.classifiesRetryable exc = false) :
    exec (self.turn (invoke outcomes) sleeper uniform attempt) s =
      (.error (.original exc),
        (s.note .invoked).notified self.listeners
          (self.event .nonRetryable attempt none (some exc))) := by
  refine exec_turn_handle_error h hc ?_
  rw [handle, if_pos hr, exec_bind_ok (exec_emitEvent _ _ _), exec_throw]

/-- The last attempt failed. -/
theorem exec_turn_exhausted (h : outcomes (s.calls + 1) = .error exc) (hc : caught exc = true)
    (hr : self.config.classifiesRetryable exc = true) (hlast : self.config.maxAttempts ≤ attempt) :
    exec (self.turn (invoke outcomes) sleeper uniform attempt) s =
      (.error (.retriesExhausted ⟨"Maximum retry attempts reached", self.name, attempt, exc⟩),
        (s.note .invoked).notified self.listeners
          (self.event .exhausted attempt none (some exc))) := by
  refine exec_turn_handle_error h hc ?_
  rw [handle, if_neg (Bool.not_eq_false _ ▸ hr), if_pos hlast, exec_bind_ok (exec_emitEvent _ _ _),
    exec_throw]

/-- The wait before the next attempt cannot be computed. -/
theorem exec_turn_overflow (h : outcomes (s.calls + 1) = .error exc) (hc : caught exc = true)
    (hr : self.config.classifiesRetryable exc = true) (hlast : attempt < self.config.maxAttempts)
    {e : OverflowError} (hw : self.config.waitSecondsBeforeRetry uniform attempt = .error e) :
    exec (self.turn (invoke outcomes) sleeper uniform attempt) s =
      (.error .overflowError, s.note .invoked) := by
  refine exec_turn_handle_error h hc ?_
  rw [handle, if_neg (Bool.not_eq_false _ ▸ hr), if_neg (not_le.2 hlast), waitSeconds, hw]
  exact exec_bind_error (exec_throw _ _) _

/-- The stage after a failed attempt, the event that reports it, and the sleep. -/
def retried (self : Retry Exc Cls ω) (sleeper : Sleeper) (attempt : ℕ) (exc : Exc) (wait : ℚ)
    (s : RetryStage Exc ω) : RetryStage Exc ω :=
  ((s.note .invoked).notified self.listeners
    (self.event .attemptFailure attempt (some wait) (some exc))).note (.did (.slept sleeper wait))

/-- The attempt failed, and the loop goes on after a sleep. -/
theorem exec_turn_retried (h : outcomes (s.calls + 1) = .error exc) (hc : caught exc = true)
    (hr : self.config.classifiesRetryable exc = true) (hlast : attempt < self.config.maxAttempts)
    {wait : ℚ} (hw : self.config.waitSecondsBeforeRetry uniform attempt = .ok wait) :
    exec (self.turn (invoke outcomes) sleeper uniform attempt) s =
      (.ok none, self.retried sleeper attempt exc wait s) := by
  have hh : exec (self.handle sleeper uniform attempt exc) (s.note .invoked) =
      (.ok (), self.retried sleeper attempt exc wait s) := by
    rw [handle, if_neg (Bool.not_eq_false _ ▸ hr), if_neg (not_le.2 hlast), waitSeconds, hw,
      exec_bind_ok (exec_pure _ _), exec_bind_ok (exec_emitEvent _ _ _)]
    rfl
  rw [turn, exec_tryExcept_caught (exec_tryOnce_error h) hc, exec_bind_ok hh, exec_pure]

/-- The branches of a turn. -/
inductive TurnCase (self : Retry Exc Cls ω) (outcomes : ℕ → Except Exc V) (sleeper : Sleeper)
    (uniform : ℚ) (attempt : ℕ) (s : RetryStage Exc ω) :
    Except (Raised Exc) (Option V) × RetryStage Exc ω → Prop
  | value {value : V} : outcomes (s.calls + 1) = .ok value →
      TurnCase self outcomes sleeper uniform attempt s (.ok (some value),
        (s.note .invoked).notified self.listeners (self.event .success attempt none none))
  | passed {exc : Exc} : outcomes (s.calls + 1) = .error exc → caught exc = false →
      TurnCase self outcomes sleeper uniform attempt s (.error (.original exc), s.note .invoked)
  | nonRetryable {exc : Exc} : outcomes (s.calls + 1) = .error exc → caught exc = true →
      self.config.classifiesRetryable exc = false →
      TurnCase self outcomes sleeper uniform attempt s (.error (.original exc),
        (s.note .invoked).notified self.listeners
          (self.event .nonRetryable attempt none (some exc)))
  | exhausted {exc : Exc} : outcomes (s.calls + 1) = .error exc → caught exc = true →
      self.config.classifiesRetryable exc = true → self.config.maxAttempts ≤ attempt →
      TurnCase self outcomes sleeper uniform attempt s
        (.error (.retriesExhausted ⟨"Maximum retry attempts reached", self.name, attempt, exc⟩),
          (s.note .invoked).notified self.listeners
            (self.event .exhausted attempt none (some exc)))
  | overflow {exc : Exc} {e : OverflowError} : outcomes (s.calls + 1) = .error exc →
      caught exc = true → self.config.classifiesRetryable exc = true →
      attempt < self.config.maxAttempts →
      self.config.waitSecondsBeforeRetry uniform attempt = .error e →
      TurnCase self outcomes sleeper uniform attempt s (.error .overflowError, s.note .invoked)
  | retried {exc : Exc} {wait : ℚ} : outcomes (s.calls + 1) = .error exc →
      caught exc = true → self.config.classifiesRetryable exc = true →
      attempt < self.config.maxAttempts →
      self.config.waitSecondsBeforeRetry uniform attempt = .ok wait →
      TurnCase self outcomes sleeper uniform attempt s
        (.ok none, self.retried sleeper attempt exc wait s)

/-- Everything a turn can do. -/
theorem turn_cases (self : Retry Exc Cls ω) (outcomes : ℕ → Except Exc V) (sleeper : Sleeper)
    (uniform : ℚ) (attempt : ℕ) (s : RetryStage Exc ω) :
    TurnCase self outcomes sleeper uniform attempt s
      (exec (self.turn (invoke outcomes) sleeper uniform attempt) s) := by
  cases h : outcomes (s.calls + 1) with
  | ok value =>
      rw [exec_turn_value h]
      exact .value h
  | error exc =>
      cases hc : caught exc with
      | false =>
          rw [exec_turn_passed h hc]
          exact .passed h hc
      | true =>
          cases hr : self.config.classifiesRetryable exc with
          | false =>
              rw [exec_turn_nonRetryable h hc hr]
              exact .nonRetryable h hc hr
          | true =>
              by_cases hlast : self.config.maxAttempts ≤ attempt
              · rw [exec_turn_exhausted h hc hr hlast]
                exact .exhausted h hc hr hlast
              · have hlt := not_le.1 hlast
                cases hw : self.config.waitSecondsBeforeRetry uniform attempt with
                | error e =>
                    rw [exec_turn_overflow h hc hr hlt hw]
                    exact .overflow h hc hr hlt hw
                | ok wait =>
                    rw [exec_turn_retried h hc hr hlt hw]
                    exact .retried h hc hr hlt hw

/-! ### The turns of the loop -/

variable {draws : ℕ → ℚ} {left : ℕ} {s' : RetryStage Exc ω}

theorem exec_loop_returns {value : V}
    (h : exec (self.turn (invoke outcomes) sleeper (draws attempt) attempt) s =
      (.ok (some value), s')) :
    exec (self.loop (invoke outcomes) sleeper draws (left + 1) attempt) s = (.ok value, s') := by
  rw [loop, exec_bind_ok h, exec_pure]

theorem exec_loop_raises {raised : Raised Exc}
    (h : exec (self.turn (invoke outcomes) sleeper (draws attempt) attempt) s =
      (.error raised, s')) :
    exec (self.loop (invoke outcomes) sleeper draws (left + 1) attempt) s =
      (.error raised, s') := by
  rw [loop, exec_bind_error h]

theorem exec_loop_goesOn
    (h : exec (self.turn (invoke outcomes) sleeper (draws attempt) attempt) s = (.ok none, s')) :
    exec (self.loop (invoke outcomes) sleeper draws (left + 1) attempt) s =
      exec (self.loop (invoke outcomes) sleeper draws left (attempt + 1)) s' := by
  rw [loop, exec_bind_ok h]

end Turn

/-! ### Runs with listeners and without -/

/-- The instance without its listeners. -/
def silent : Retry Exc Cls ω := { self with listeners := [] }

@[simp] theorem silent_config : self.silent.config = self.config := rfl

@[simp] theorem silent_name : self.silent.name = self.name := rfl

@[simp] theorem silent_listeners : self.silent.listeners = [] := rfl

@[simp] theorem silent_event : self.silent.event = self.event := rfl

theorem coupled_tryOnce (outcomes : ℕ → Except Exc V) (attempt : ℕ) :
    Coupled (Unnoticed self.listeners)
      (self.tryOnce (invoke outcomes) attempt) (self.silent.tryOnce (invoke outcomes) attempt) :=
  (coupled_invoke self.listeners outcomes).bind fun result =>
    (coupled_emitEvent self.listeners _).bind fun _ => Coupled.pure result

theorem coupled_waitSeconds (uniform : ℚ) (attempt : ℕ) :
    Coupled (Unnoticed self.listeners)
      (self.waitSeconds uniform attempt) (self.silent.waitSeconds uniform attempt) := by
  simp only [waitSeconds, silent_config]
  split
  · exact Coupled.pure _
  · exact Coupled.throw _

theorem coupled_handle (sleeper : Sleeper) (uniform : ℚ) (attempt : ℕ) (exc : Exc) :
    Coupled (Unnoticed self.listeners)
      (self.handle sleeper uniform attempt exc)
      (self.silent.handle sleeper uniform attempt exc) := by
  simp only [handle, silent_config, silent_name, silent_listeners, silent_event]
  refine Coupled.ite ?_ (Coupled.ite ?_ ?_)
  · exact (coupled_emitEvent self.listeners _).bind fun _ => Coupled.throw _
  · exact (coupled_emitEvent self.listeners _).bind fun _ => Coupled.throw _
  · exact (self.coupled_waitSeconds uniform attempt).bind fun wait =>
      (coupled_emitEvent self.listeners _).bind fun _ => coupled_record self.listeners _

theorem coupled_turn (outcomes : ℕ → Except Exc V) (sleeper : Sleeper) (uniform : ℚ)
    (attempt : ℕ) :
    Coupled (Unnoticed self.listeners)
      (self.turn (invoke outcomes) sleeper uniform attempt)
      (self.silent.turn (invoke outcomes) sleeper uniform attempt) :=
  (self.coupled_tryOnce outcomes attempt).tryExcept
    (fun exc => (self.coupled_handle sleeper uniform attempt exc).bind fun _ => Coupled.pure none)
    fun result => Coupled.pure (some result)

/-- Listeners are not noticed by the loop, however many attempts are left. -/
theorem coupled_loop (outcomes : ℕ → Except Exc V) (sleeper : Sleeper) (draws : ℕ → ℚ)
    (left : ℕ) : ∀ attempt, Coupled (Unnoticed self.listeners)
      (self.loop (invoke outcomes) sleeper draws left attempt)
      (self.silent.loop (invoke outcomes) sleeper draws left attempt) := by
  induction left with
  | zero => exact fun attempt => Coupled.throw _
  | succ left ih =>
      intro attempt
      refine (self.coupled_turn outcomes sleeper (draws attempt) attempt).bind fun result => ?_
      cases result with
      | none => exact ih (attempt + 1)
      | some result => exact Coupled.pure result

/-- **Listeners are not noticed** by `execute`. -/
theorem coupled_execute (outcomes : ℕ → Except Exc V) (draws : ℕ → ℚ) :
    Coupled (Unnoticed self.listeners)
      (self.execute outcomes draws) (self.silent.execute outcomes draws) :=
  self.coupled_loop outcomes .time draws self.config.maxAttempts.toNat 1

end Retry

end Retries
