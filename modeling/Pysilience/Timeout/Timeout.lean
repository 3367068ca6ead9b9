/-
The timeout pattern: its configuration, its threads and its event loop.

`execute` hands the function to an executor and waits for the future, `execute_async` waits for the
coroutine, and both learn from a `TimeoutError` that the time limit has passed.  The exceptions that
`concurrent.futures` and `asyncio` raise then are of the built-in class `TimeoutError`, which the
function itself may raise as well.

What waiting comes to is taken from the documentation of `Future.result` and `asyncio.wait_for`: the
outcome of the function if it finishes in time, a `TimeoutError` if it does not.

Main definitions:

* `Timeouts.TimeoutErrors` — the class `TimeoutError` among the exceptions;
* `Timeouts.TimeoutConfig`, `Timeouts.Timeout` — an accepted configuration, and an instance;
* `Timeouts.Callable` — when a function finishes, and how;
* `Timeouts.Timeout.executeWithThread`, `Timeouts.Timeout.executeAsync` — the two paths;
* `Timeouts.Timeout.Attributed` — timeouts are reported for timeouts and nothing else.

Main results:

* `Timeouts.Timeout.exec_wait_value`, `Timeouts.Timeout.exec_wait_timeout`,
  `Timeouts.Timeout.exec_wait_error` — what the `try` statement does, one lemma per clause;
* `Timeouts.Timeout.attributed_iff` — **when timeouts are reported for timeouts only**.
-/

import Pysilience.Core.Listeners

set_option relaxedAutoImplicit false
set_option autoImplicit false

namespace Timeouts

open Python Programs Listeners

variable {Exc Cls ω V : Type}

/-! ### Configuration, events and errors -/

/-- The class `TimeoutError`, and the exception of that class that is raised when a limit has
passed. -/
class TimeoutErrors (Exc : Type) (Cls : outParam Type) extends Exceptions Exc Cls where
  timeoutError : Cls
  expired : Exc
  isinstance_expired : isinstance expired timeoutError = true

/-- Whether a handler `except TimeoutError` catches the exception. -/
def isTimeoutError [TimeoutErrors Exc Cls] (exc : Exc) : Bool :=
  Exceptions.isinstance exc (TimeoutErrors.timeoutError Exc)

/-- The fields of a configuration, before they are checked. -/
structure ConfigFields where
  duration : ℚ := 30
  cancelRunningFuture : Bool := true
  useSignals : Bool := false
  deriving DecidableEq

/-- The check of `TimeoutConfig.__post_init__`. -/
def ConfigFields.postInit (c : ConfigFields) : Except FString Unit :=
  checks [(decide (c.duration ≤ 0), [.text "duration must be positive, got ", .float c.duration])]

/-- A configuration that was accepted: `__post_init__` raised nothing. -/
structure TimeoutConfig extends ConfigFields where
  accepted : toConfigFields.postInit = .ok ()

theorem TimeoutConfig.duration_pos (cfg : TimeoutConfig) : 0 < cfg.duration := by
  have h := cfg.accepted
  rw [ConfigFields.postInit, checks_eq_ok] at h
  simpa using h

/-- `OperationTimeout`.  Its message shows the elapsed time with two decimals. -/
structure OperationTimeout where
  message : FString
  name : String
  duration : ℚ
  elapsed : ℚ
  deriving DecidableEq

/-- The types of events. -/
inductive TimeoutEventType
  | success | timeout | error
  deriving DecidableEq, Repr

/-- What the methods raise: an exception of the function, or an `OperationTimeout`. -/
inductive Raised (Exc : Type)
  | original (exc : Exc)
  | operationTimeout (error : OperationTimeout)
  deriving DecidableEq

instance : Raises Exc (Raised Exc) := ⟨.original⟩

/-- `TimeoutEvent`. -/
structure TimeoutEvent (Exc : Type) where
  eventType : TimeoutEventType
  name : String
  durationLimit : ℚ
  elapsed : ℚ
  exception : Option (Raised Exc) := none
  deriving DecidableEq

/-! ### Instances -/

/-- A timeout instance, with the listeners that `on_event` has registered. -/
structure Timeout (Exc ω : Type) {Cls : Type} [Exceptions Exc Cls] where
  config : TimeoutConfig
  name : String
  listeners : List (Listener (TimeoutEvent Exc) ω Exc)

/-- What a function does that is run under a timeout: the time it takes to finish, unless it never
does, and its outcome. -/
structure Callable (Exc V : Type) where
  takes : Option ℚ
  outcome : Except Exc V

/-- The function finishes within the time limit. -/
def Callable.InTime (func : Callable Exc V) (duration : ℚ) : Prop :=
  ∃ seconds, func.takes = some seconds ∧ seconds ≤ duration

instance (func : Callable Exc V) (duration : ℚ) : Decidable (func.InTime duration) :=
  match h : func.takes with
  | none => .isFalse fun ⟨_, hs, _⟩ => by rw [h] at hs; cases hs
  | some seconds => decidable_of_iff (seconds ≤ duration)
      ⟨fun hle => ⟨seconds, h, hle⟩, fun ⟨_, hs, hle⟩ => by
        rw [h] at hs
        exact Option.some_inj.1 hs ▸ hle⟩

/-- The time for which a call waits for the function. -/
def Callable.waited (func : Callable Exc V) (duration : ℚ) : ℚ :=
  match func.takes with
  | some seconds => min seconds duration
  | none => duration

/-- What waiting for the function comes to: its outcome if it finishes in time, and a `TimeoutError`
if it does not. -/
def Callable.result [TimeoutErrors Exc Cls] (func : Callable Exc V) (duration : ℚ) :
    Except Exc V :=
  if func.InTime duration then func.outcome else .error TimeoutErrors.expired

/-- What the methods do besides calling the function and emitting events. -/
inductive TimeoutAction
  /-- `self._executor.submit(func)`. -/
  | submitted
  /-- `future.cancel()`. -/
  | cancelled
  /-- `asyncio.create_task(coro)`, with the task added to `_background_tasks`. -/
  | createdTask
  deriving DecidableEq

/-- What the methods run on; the field that changes is the clock. -/
abbrev TimeoutStage (Exc ω : Type) := Stage ℚ TimeoutAction (TimeoutEvent Exc) ω

section Statements

variable {Exc' : Type}

/-- `time.monotonic()`. -/
def monotonic : Program (TimeoutStage Exc ω) Exc' ℚ := update fun now => (now, now)

/-- `time.monotonic() - start_time`. -/
def elapsedSince (startTime : ℚ) : Program (TimeoutStage Exc ω) Exc' ℚ :=
  update fun now => (now - startTime, now)

theorem exec_monotonic (s : TimeoutStage Exc ω) :
    exec (monotonic : Program (TimeoutStage Exc ω) Exc' ℚ) s = (.ok s.inner, s) := rfl

theorem exec_elapsedSince (startTime : ℚ) (s : TimeoutStage Exc ω) :
    exec (elapsedSince startTime : Program (TimeoutStage Exc ω) Exc' ℚ) s =
      (.ok (s.inner - startTime), s) := rfl

/-- `future.result(timeout=duration)` and `await asyncio.wait_for(awaitable, timeout=duration)`.
The waiting call gets control back `lag` seconds after the function has finished or the limit has
passed. -/
def waitFor [TimeoutErrors Exc Cls] (func : Callable Exc V) (duration lag : ℚ) :
    Program (TimeoutStage Exc ω) Exc V :=
  ofExec fun s =>
    (func.result duration,
      { s.note .invoked with inner := s.inner + func.waited duration + lag })

end Statements

namespace Timeout

section Reports

variable [Exceptions Exc Cls] (self : Timeout Exc ω)

/-- `Timeout.__init__`.  A name that is `None` or empty is replaced. -/
def init (config : TimeoutConfig) (name : Option String) : Timeout Exc ω where
  config := config
  name := match name with
    | none | some "" => "timeout"
    | some name => name
  listeners := []

/-- `on_event`. -/
def onEvent (listener : Listener (TimeoutEvent Exc) ω Exc) : Timeout Exc ω :=
  { self with listeners := self.listeners ++ [listener] }

/-- The event a call is reported with. -/
def event (eventType : TimeoutEventType) (elapsed : ℚ) (exception : Option (Raised Exc)) :
    TimeoutEvent Exc where
  eventType := eventType
  name := self.name
  durationLimit := self.config.duration
  elapsed := elapsed
  exception := exception

/-- The `OperationTimeout` of a call that took this time. -/
def timedOut (elapsed : ℚ) : OperationTimeout where
  message := [.text "Operation timed out after ", .float elapsed, .text "s"]
  name := self.name
  duration := self.config.duration
  elapsed := elapsed

end Reports

variable [TimeoutErrors Exc Cls] (self : Timeout Exc ω)

/-- The body of the `try` statement of both methods. -/
def wait (func : Callable Exc V) (lag startTime : ℚ) : Program (TimeoutStage Exc ω) Exc V := do
  let result ← waitFor func self.config.duration lag
  let elapsed ← elapsedSince startTime
  emitEvent self.listeners (self.event .success elapsed none)
  return result

/-- The two handlers of the `try` statement of both methods; `cancel` is what the first one does
before anything else. -/
def handle (cancel : Program (TimeoutStage Exc ω) (Raised Exc) Unit) (startTime : ℚ) (exc : Exc) :
    Program (TimeoutStage Exc ω) (Raised Exc) V :=
  if isTimeoutError exc then do
    cancel
    let elapsed ← elapsedSince startTime
    emitEvent self.listeners
      (self.event .timeout elapsed (some (.operationTimeout (self.timedOut elapsed))))
    throw (.operationTimeout (self.timedOut elapsed))
  else do
    let elapsed ← elapsedSince startTime
    emitEvent self.listeners (self.event .error elapsed (some (.original exc)))
    throw (.original exc)

/-- The `try` statement of both methods. -/
def waitAndReport (cancel : Program (TimeoutStage Exc ω) (Raised Exc) Unit)
    (func : Callable Exc V) (lag startTime : ℚ) : Program (TimeoutStage Exc ω) (Raised Exc) V :=
  tryExcept (self.wait func lag startTime) (fun exc => isTimeoutError exc || caught exc)
    (self.handle cancel startTime) pure

/-- `_execute_with_thread`. -/
def executeWithThread (func : Callable Exc V) (lag startTime : ℚ) :
    Program (TimeoutStage Exc ω) (Raised Exc) V := do
  record .submitted
  self.waitAndReport (record .cancelled) func lag startTime

/-- `execute`, where signals are not used or cannot be. -/
def execute (func : Callable Exc V) (lag : ℚ) : Program (TimeoutStage Exc ω) (Raised Exc) V := do
  let startTime ← monotonic
  self.executeWithThread func lag startTime

/-- What `execute_async` makes of the coroutine before it waits: a shielded task if the coroutine is
to go on after a timeout, and the coroutine itself otherwise. -/
def makeAwaitable : Program (TimeoutStage Exc ω) (Raised Exc) Unit :=
  if self.config.cancelRunningFuture then pure () else record .createdTask

/-- `execute_async`. -/
def executeAsync (coro : Callable Exc V) (lag : ℚ) :
    Program (TimeoutStage Exc ω) (Raised Exc) V := do
  let startTime ← monotonic
  self.makeAwaitable
  self.waitAndReport (pure ()) coro lag startTime

/-! ### What the `try` statement does -/

section Wait

variable {self} {cancel : Program (TimeoutStage Exc ω) (Raised Exc) Unit} {func : Callable Exc V}
  {lag startTime : ℚ} {s : TimeoutStage Exc ω} {exc : Exc}

/-- The stage when the call has waited. -/
def afterWait (self : Timeout Exc ω) (func : Callable Exc V) (lag : ℚ) (s : TimeoutStage Exc ω) :
    TimeoutStage Exc ω :=
  { s.note .invoked with inner := s.inner + func.waited self.config.duration + lag }

theorem exec_waitFor {result : Except Exc V} (h : func.result self.config.duration = result) :
    exec (waitFor func self.config.duration lag) s = (result, self.afterWait func lag s) := by
  rw [waitFor, exec_ofExec, h]
  rfl

/-- The function has returned in time. -/
theorem exec_wait_value {value : V} (h : func.result self.config.duration = .ok value) :
    exec (self.waitAndReport cancel func lag startTime) s =
      (.ok value, (self.afterWait func lag s).notified self.listeners
        (self.event .success ((self.afterWait func lag s).inner - startTime) none)) := by
  have hbody : exec (self.wait func lag startTime) s =
      (.ok value, (self.afterWait func lag s).notified self.listeners
        (self.event .success ((self.afterWait func lag s).inner - startTime) none)) := by
    rw [wait, exec_bind_ok (exec_waitFor h), exec_bind_ok (exec_elapsedSince _ _),
      exec_bind_ok (exec_emitEvent _ _ _), exec_pure]
  exact exec_tryExcept_ok hbody _ _ _

/-- Waiting raises an exception, and a handler takes it. -/
theorem exec_wait_raises (h : func.result self.config.duration = .error exc)
    (hc : (isTimeoutError exc || caught exc) = true) :
    exec (self.waitAndReport cancel func lag startTime) s =
      exec (self.handle cancel startTime exc : Program (TimeoutStage Exc ω) (Raised Exc) V)
        (self.afterWait func lag s) := by
  have hbody : exec (self.wait func lag startTime) s = (.error exc, self.afterWait func lag s) := by
    rw [wait, exec_bind_error (exec_waitFor h)]
  exact exec_tryExcept_caught hbody hc _ _

/-- The first handler takes every `TimeoutError`. -/
theorem exec_wait_timeout (h : func.result self.config.duration = .error exc)
    (ht : isTimeoutError exc = true) {s' : TimeoutStage Exc ω}
    (hcancel : exec cancel (self.afterWait func lag s) = (.ok (), s')) :
    exec (self.waitAndReport cancel func lag startTime) s =
      (.error (.operationTimeout (self.timedOut (s'.inner - startTime))),
        s'.notified self.listeners (self.event .timeout (s'.inner - startTime)
          (some (.operationTimeout (self.timedOut (s'.inner - startTime)))))) := by
  rw [exec_wait_raises h (by rw [ht, Bool.true_or]), handle, if_pos ht, exec_bind_ok hcancel,
    exec_bind_ok (exec_elapsedSince _ _), exec_bind_ok (exec_emitEvent _ _ _), exec_throw]

/-- The second handler takes every other `Exception`. -/
theorem exec_wait_error (h : func.result self.config.duration = .error exc)
    (ht : isTimeoutError exc = false) (hc : caught exc = true) :
    exec (self.waitAndReport cancel func lag startTime) s =
      (.error (.original exc), (self.afterWait func lag s).notified self.listeners
        (self.event .error ((self.afterWait func lag s).inner - startTime)
          (some (.original exc)))) := by
  rw [exec_wait_raises h (by rw [hc, Bool.or_true]), handle, if_neg (Bool.eq_false_iff.1 ht),
    exec_bind_ok (exec_elapsedSince _ _), exec_bind_ok (exec_emitEvent _ _ _), exec_throw]

/-- No handler takes what is not an `Exception`. -/
theorem exec_wait_passed (h : func.result self.config.duration = .error exc)
    (ht : isTimeoutError exc = false) (hc : caught exc = false) :
    exec (self.waitAndReport cancel func lag startTime) s =
      (.error (.original exc), self.afterWait func lag s) := by
  have hbody : exec (self.wait func lag startTime) s = (.error exc, self.afterWait func lag s) := by
    rw [wait, exec_bind_error (exec_waitFor h)]
  exact exec_tryExcept_passed hbody (by rw [ht, hc, Bool.or_false]) _ _

end Wait

/-! ### Attribution -/

/-- Timeouts are reported for timeouts only: a function that finishes in time is reported with its
value or its exception, and an `OperationTimeout` or a `TIMEOUT` event is for one that does not. -/
structure Attributed (timeout : Timeout Exc ω) (func : Callable Exc V)
    (run : Except (Raised Exc) V × TimeoutStage Exc ω) : Prop where
  value : ∀ value, func.InTime timeout.config.duration → func.outcome = .ok value →
    run.1 = .ok value ∧ ∃ elapsed, run.2.emitted = [timeout.event .success elapsed none]
  error : ∀ exc, func.InTime timeout.config.duration → func.outcome = .error exc →
    caught exc = true → run.1 = .error (.original exc) ∧
      ∃ elapsed, run.2.emitted = [timeout.event .error elapsed (some (.original exc))]
  raised : ∀ error, run.1 = .error (.operationTimeout error) →
    ¬ func.InTime timeout.config.duration
  reported : ∀ event ∈ run.2.emitted, event.eventType = .timeout →
    ¬ func.InTime timeout.config.duration

/-- The function raises a `TimeoutError` of its own within the time limit. -/
def RaisesTimeoutError (self : Timeout Exc ω) (func : Callable Exc V) : Prop :=
  func.InTime self.config.duration ∧ ∃ exc, func.outcome = .error exc ∧ isTimeoutError exc = true

section Cases

variable {self : Timeout Exc ω} {func : Callable Exc V} {exc : Exc} {elapsed : ℚ}
  {run : Except (Raised Exc) V × TimeoutStage Exc ω}

/-- A value that is returned and reported as a success. -/
theorem attributed_of_value {value : V} (h : func.outcome = .ok value) (hrun : run.1 = .ok value)
    (hemitted : run.2.emitted = [self.event .success elapsed none]) :
    self.Attributed func run where
  value value' _ hv := by
    obtain rfl := Except.ok.inj (h.symm.trans hv)
    exact ⟨hrun, elapsed, hemitted⟩
  error _ _ he := nomatch h.symm.trans he
  raised _ he := nomatch hrun.symm.trans he
  reported event he ht := by
    rw [hemitted, List.mem_singleton] at he
    subst he
    cases ht

/-- An exception that is raised and reported as an error. -/
theorem attributed_of_error (h : func.outcome = .error exc) (hrun : run.1 = .error (.original exc))
    (hemitted : run.2.emitted = [self.event .error elapsed (some (.original exc))]) :
    self.Attributed func run where
  value _ _ hv := nomatch h.symm.trans hv
  error exc' _ he _ := by
    obtain rfl := Except.error.inj (h.symm.trans he)
    exact ⟨hrun, elapsed, hemitted⟩
  raised _ he := nomatch hrun.symm.trans he
  reported event he ht := by
    rw [hemitted, List.mem_singleton] at he
    subst he
    cases ht

/-- What is not an `Exception` is raised and not reported. -/
theorem attributed_of_passed (h : func.outcome = .error exc) (hc : caught exc = false)
    (hrun : run.1 = .error (.original exc)) (hemitted : run.2.emitted = []) :
    self.Attributed func run where
  value _ _ hv := nomatch h.symm.trans hv
  error exc' _ he hc' := by
    obtain rfl := Except.error.inj (h.symm.trans he)
    rw [hc] at hc'
    cases hc'
  raised _ he := nomatch hrun.symm.trans he
  reported event he := by
    rw [hemitted] at he
    exact absurd he List.not_mem_nil

/-- A function that does not finish in time may be reported in any way. -/
theorem attributed_of_late (h : ¬ func.InTime self.config.duration) : self.Attributed func run :=
  ⟨fun _ hin => absurd hin h, fun _ hin => absurd hin h, fun _ _ => h, fun _ _ _ => h⟩

end Cases

/-- The `try` statement reports timeouts for timeouts exactly when the function raises no
`TimeoutError` of its own in time. -/
theorem attributed_waitAndReport_iff {self : Timeout Exc ω} {func : Callable Exc V}
    {cancel : Program (TimeoutStage Exc ω) (Raised Exc) Unit} {lag startTime : ℚ}
    {s : TimeoutStage Exc ω} (hs : s.emitted = [])
    (hcancel : ∀ t : TimeoutStage Exc ω, ∃ t', exec cancel t = (.ok (), t') ∧
      t'.emitted = t.emitted) :
    self.Attributed func (exec (self.waitAndReport cancel func lag startTime) s) ↔
      ¬ self.RaisesTimeoutError func := by
  have hafter : (self.afterWait func lag s).emitted = [] := by
    rw [← hs]
    simp [afterWait, Stage.emitted, Entry.event?]
  have hone : ∀ event, ((self.afterWait func lag s).notified self.listeners event).emitted =
      [event] := by
    intro event
    rw [Stage.emitted_notified, hafter, List.nil_append]
  by_cases hin : func.InTime self.config.duration
  · have hresult : func.result self.config.duration = func.outcome := if_pos hin
    cases h : func.outcome with
    | ok value =>
        rw [exec_wait_value (hresult.trans h)]
        refine iff_of_true (attributed_of_value h rfl (hone _)) ?_
        rintro ⟨-, exc, he, -⟩
        cases h.symm.trans he
    | error exc =>
        cases ht : isTimeoutError exc with
        | true =>
            obtain ⟨t, ht', -⟩ := hcancel (self.afterWait func lag s)
            rw [exec_wait_timeout (hresult.trans h) ht ht']
            exact iff_of_false (fun hatt => hatt.raised _ rfl hin) (not_not.2 ⟨hin, exc, h, ht⟩)
        | false =>
            -- the exceptions of the function that no clause takes for an expired limit
            have hno : ¬ self.RaisesTimeoutError func := by
              rintro ⟨-, exc', he, ht'⟩
              obtain rfl := Except.error.inj (h.symm.trans he)
              rw [ht] at ht'
              cases ht'
            cases hc : caught exc with
            | true =>
                rw [exec_wait_error (hresult.trans h) ht hc]
                exact iff_of_true (attributed_of_error h rfl (hone _)) hno
            | false =>
                rw [exec_wait_passed (hresult.trans h) ht hc]
                exact iff_of_true (attributed_of_passed h hc rfl hafter) hno
  · exact iff_of_true (attributed_of_late hin) fun h => hin h.1

/-- **Timeouts are reported for timeouts only**, on both paths, exactly when the function raises no
`TimeoutError` of its own in time. -/
theorem attributed_iff (self : Timeout Exc ω) (func : Callable Exc V) (lag now : ℚ)
    (outside : ω) :
    (self.Attributed func (exec (self.execute func lag) (Stage.start now outside)) ∧
      self.Attributed func (exec (self.executeAsync func lag) (Stage.start now outside))) ↔
    ¬ self.RaisesTimeoutError func := by
  have hthread : self.Attributed func (exec (self.execute func lag) (Stage.start now outside)) ↔
      ¬ self.RaisesTimeoutError func := by
    rw [execute, exec_bind_ok (exec_monotonic _), executeWithThread,
      exec_bind_ok (exec_record _ _)]
    exact attributed_waitAndReport_iff rfl fun t =>
      ⟨_, exec_record _ t, t.emitted_note_did _⟩
  have hasync : self.Attributed func
      (exec (self.executeAsync func lag) (Stage.start now outside)) ↔
      ¬ self.RaisesTimeoutError func := by
    rw [executeAsync, exec_bind_ok (exec_monotonic _), makeAwaitable]
    split
    · rw [exec_bind_ok (exec_pure _ _)]
      exact attributed_waitAndReport_iff rfl fun t => ⟨_, exec_pure _ t, rfl⟩
    · rw [exec_bind_ok (exec_record _ _)]
      exact attributed_waitAndReport_iff rfl fun t => ⟨_, exec_pure _ t, rfl⟩
  rw [hthread, hasync, and_self_iff]

/-- A function that does not finish in time is reported as such. -/
theorem timedOut_of_late (self : Timeout Exc ω) (func : Callable Exc V) (lag now : ℚ)
    (outside : ω) (h : ¬ func.InTime self.config.duration) :
    ∃ error, (exec (self.execute func lag) (Stage.start now outside)).1 =
        .error (.operationTimeout error) ∧
      (exec (self.execute func lag) (Stage.start now outside)).2.emitted =
        [self.event .timeout error.elapsed (some (.operationTimeout error))] := by
  have hresult : func.result self.config.duration = .error TimeoutErrors.expired := if_neg h
  rw [execute, exec_bind_ok (exec_monotonic _), executeWithThread, exec_bind_ok (exec_record _ _),
    exec_wait_timeout hresult TimeoutErrors.isinstance_expired (exec_record _ _)]
  refine ⟨_, rfl, ?_⟩
  rw [Stage.emitted_notified]
  simp [afterWait, Stage.emitted, Stage.start, Entry.event?, timedOut]

end Timeout

/-- Some of the built-in exception classes; an exception is represented by its class. -/
inductive Failure
  | exception | osError | timeoutError
  deriving DecidableEq

/-- The superclasses of an exception class, itself included. -/
def Failure.mro : Failure → List Failure
  | exception => [exception]
  | osError => [osError, exception]
  | timeoutError => [timeoutError, osError, exception]

instance : TimeoutErrors Failure Failure where
  isinstance exc cls := decide (cls ∈ exc.mro)
  exception := .exception
  timeoutError := .timeoutError
  expired := .timeoutError
  isinstance_expired := rfl

/-- A function that raises a `TimeoutError` after a second, long before the limit of half a minute,
is reported as one that has exceeded the limit. -/
theorem Timeout.not_attributed_timeoutError :
    (⟨some 1, .error .timeoutError⟩ : Callable Failure ℕ).InTime 30 ∧
    ¬ ((Timeout.init ⟨{}, rfl⟩ none : Timeout Failure Unit).Attributed
        ⟨some 1, .error .timeoutError⟩
        (exec ((Timeout.init ⟨{}, rfl⟩ none).execute
          (⟨some 1, .error .timeoutError⟩ : Callable Failure ℕ) 0) (Stage.start 0 ())) ∧
      (Timeout.init ⟨{}, rfl⟩ none : Timeout Failure Unit).Attributed
        ⟨some 1, .error .timeoutError⟩
        (exec ((Timeout.init ⟨{}, rfl⟩ none).executeAsync
          (⟨some 1, .error .timeoutError⟩ : Callable Failure ℕ) 0) (Stage.start 0 ()))) := by
  refine ⟨by decide +kernel, fun h => ?_⟩
  exact h.1.raised _ rfl (by decide +kernel)

end Timeouts
