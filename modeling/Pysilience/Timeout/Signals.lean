/-
Timeouts by signal, one inside the other.

In signal mode `execute` installs a handler for `SIGALRM` that raises an `OperationTimeout`, sets
the interval timer, calls the function, and in the end cancels the timer and installs the handler
that was there before.  There is one timer, so that a call inside another one replaces the alarm of
the outer call when it sets its own, and cancels what is pending when it is left: the outer call
goes on without a limit.

The function of a call is a tree: it works for some time, or makes a call and goes on in whatever
way the outcome of that call leads to.  Listeners do not take part: they take no time.

Main definitions:

* `Timeouts.Handler`, `Timeouts.Thrown` — the handlers of the signal, and what is raised;
* `Timeouts.Timeout.executeWithSignal` — the method;
* `Timeouts.Body`, `Timeouts.Body.run` — the trees, and what they do;
* `Timeouts.Body.EveryCall` — what holds of every call that is made while a tree runs;
* `Timeouts.Nests` — a call leaves the handler and the alarm as it found them, and times out when
  it should.

Main results:

* `Timeouts.exec_executeWithSignal` — all a call does to what its function comes to;
* `Timeouts.not_nests_of_pending` — a call that is made while an alarm is pending does not nest;
* `Timeouts.nests_iff` — **when all calls of a tree nest**.
-/

import Pysilience.Timeout.Timeout
import Pysilience.Lib.IntervalTimer
import Mathlib.Data.NNRat.Defs
import Mathlib.Tactic.Ring

set_option relaxedAutoImplicit false
set_option autoImplicit false

namespace Timeouts

open Python Programs IntervalTimer

variable {Exc Cls ω V : Type} [Exceptions Exc Cls]

/-! ### The method -/

/-- What a call in signal mode raises: an exception of the function, or the `OperationTimeout` that
the handler of some call raised; the calls are numbered as their alarms are. -/
inductive Thrown (Exc : Type)
  | original (exc : Exc)
  | operationTimeout (call : ℕ) (error : OperationTimeout)
  deriving DecidableEq

/-- A handler of the signal: the closure `_timeout_handler` of a call, with what it captures, or a
function of the program, which returns or raises. -/
inductive Handler (Exc ω : Type) {Cls : Type} [Exceptions Exc Cls]
  | timeoutHandler (call : ℕ) (timeout : Timeout Exc ω) (startTime : ℚ)
  | foreign (raises : Option Exc)

/-- What a handler does that is called at a time. -/
def Handler.respond : Handler Exc ω → ℚ → Except (Thrown Exc) Unit
  | .timeoutHandler call timeout startTime, now =>
      .error (.operationTimeout call (timeout.timedOut (now - startTime)))
  | .foreign none, _ => .ok ()
  | .foreign (some exc), _ => .error (.original exc)

/-- An event in signal mode. -/
structure SignalEvent (Exc : Type) where
  eventType : TimeoutEventType
  name : String
  durationLimit : ℚ
  elapsed : ℚ
  exception : Option (Thrown Exc)
  deriving DecidableEq

/-- What calls in signal mode run on. -/
abbrev SignalProcess (Exc ω : Type) {Cls : Type} [Exceptions Exc Cls] :=
  Process (Handler Exc ω) (SignalEvent Exc)

namespace Timeout

variable (self : Timeout Exc ω)

/-- The event a call is reported with. -/
def signalEvent (eventType : TimeoutEventType) (elapsed : ℚ) (exception : Option (Thrown Exc)) :
    SignalEvent Exc where
  eventType := eventType
  name := self.name
  durationLimit := self.config.duration
  elapsed := elapsed
  exception := exception

/-- The body of the `try` statement of `_execute_with_signal`. -/
def callAndReport (func : Program (SignalProcess Exc ω) (Thrown Exc) V) (startTime : ℚ) :
    Program (SignalProcess Exc ω) (Thrown Exc) V := do
  let result ← func
  let now ← readClock
  write (self.signalEvent .success (now - startTime) none)
  return result

/-- The exceptions the handlers of the `try` statement are for. -/
def handled : Thrown Exc → Bool
  | .operationTimeout _ _ => true
  | .original exc => caught exc

/-- The handlers, which differ in the type of the event. -/
def reportRaised (startTime : ℚ) (thrown : Thrown Exc) :
    Program (SignalProcess Exc ω) (Thrown Exc) V := do
  let now ← readClock
  match thrown with
  | .operationTimeout _ _ => write (self.signalEvent .timeout (now - startTime) (some thrown))
  | .original _ => write (self.signalEvent .error (now - startTime) (some thrown))
  throw thrown

/-- The clause `finally`. -/
def restore (oldHandler : Handler Exc ω) : Program (SignalProcess Exc ω) (Thrown Exc) Unit := do
  setTimer 0
  let _ ← swapHandler oldHandler

/-- `_execute_with_signal`, and `execute` where signals are used.  The call has the number of the
alarm it sets. -/
def executeWithSignal (func : Program (SignalProcess Exc ω) (Thrown Exc) V) :
    Program (SignalProcess Exc ω) (Thrown Exc) V := do
  let startTime ← readClock
  let call ← nextNumber
  let oldHandler ← swapHandler (.timeoutHandler call self startTime)
  setTimer self.config.duration
  tryFinally
    (tryExcept (self.callAndReport func startTime) handled (self.reportRaised startTime) pure)
    (restore oldHandler)

/-- The process when the function of a call starts. -/
def entered (p : SignalProcess Exc ω) : SignalProcess Exc ω :=
  (p.install (.timeoutHandler p.armed self p.now)).arm self.config.duration

/-- The process when the function of a call has ended in a state and its event was written. -/
def left (p q : SignalProcess Exc ω) (log : List (SignalEvent Exc)) : SignalProcess Exc ω :=
  ({ q with log := log }.disarm).install p.handler

end Timeout

/-- The `try` statement writes an event and changes nothing else. -/
theorem exec_report (self : Timeout Exc ω) (func : Program (SignalProcess Exc ω) (Thrown Exc) V)
    (startTime : ℚ) (p : SignalProcess Exc ω) :
    ∃ log, exec (tryExcept (self.callAndReport func startTime) Timeout.handled
      (self.reportRaised startTime) pure) p =
      ((exec func p).1, { (exec func p).2 with log := log }) := by
  rcases h : exec func p with ⟨result, q⟩
  cases result with
  | ok value =>
      have hbody : exec (self.callAndReport func startTime) p =
          (.ok value, q.write (self.signalEvent .success (q.now - startTime) none)) := by
        rw [Timeout.callAndReport, exec_bind_ok h, exec_bind_ok (exec_readClock q),
          exec_bind_ok (exec_write _ q), exec_pure]
      exact ⟨_, (exec_tryExcept_ok hbody _ _ _).trans rfl⟩
  | error thrown =>
      have hbody : exec (self.callAndReport func startTime) p = (.error thrown, q) := by
        rw [Timeout.callAndReport, exec_bind_error h]
      cases hc : Timeout.handled thrown with
      | false => exact ⟨q.log, exec_tryExcept_passed hbody hc _ _⟩
      | true =>
          rw [exec_tryExcept_caught hbody hc, Timeout.reportRaised, exec_bind_ok (exec_readClock q)]
          cases thrown with
          | original exc => exact ⟨_, exec_bind_ok (exec_write _ q) _⟩
          | operationTimeout call error => exact ⟨_, exec_bind_ok (exec_write _ q) _⟩

/-- **All a call does to what its function comes to**: it writes its event, cancels the alarm, and
installs the handler it found. -/
theorem exec_executeWithSignal (self : Timeout Exc ω)
    (func : Program (SignalProcess Exc ω) (Thrown Exc) V) (p : SignalProcess Exc ω) :
    ∃ log, exec (self.executeWithSignal func) p =
      ((exec func (self.entered p)).1, Timeout.left p (exec func (self.entered p)).2 log) := by
  obtain ⟨log, hlog⟩ := exec_report self func p.now (self.entered p)
  have harm : exec (setTimer self.config.duration : Program (SignalProcess Exc ω) (Thrown Exc) Unit)
      (p.install (.timeoutHandler p.armed self p.now)) = (.ok (), self.entered p) := by
    rw [exec_setTimer, if_neg self.config.duration_pos.ne']
    rfl
  have hrestore : ∀ q : SignalProcess Exc ω, exec (Timeout.restore p.handler) q =
      (.ok (), q.disarm.install p.handler) := by
    intro q
    rw [Timeout.restore, exec_bind_ok (exec_setTimer 0 q), if_pos rfl]
    rfl
  refine ⟨log, ?_⟩
  rw [Timeout.executeWithSignal, exec_bind_ok (exec_readClock p), exec_bind_ok (exec_nextNumber p),
    exec_bind_ok (exec_swapHandler _ p), exec_bind_ok harm, exec_tryFinally, hlog, hrestore]
  rfl

/-! ### Trees of calls -/

/-- The function of a call: it ends, works for some time and goes on, or makes a call and goes on in
the way the outcome of the call leads to. -/
inductive Body (Exc ω V : Type) {Cls : Type} [Exceptions Exc Cls]
  | finish (outcome : Except (Thrown Exc) V)
  | work (seconds : NNRat) (next : Body Exc ω V)
  | call (timeout : Timeout Exc ω) (inner : Body Exc ω V)
      (next : Except (Thrown Exc) V → Body Exc ω V)

namespace Body

/-- What the function of a call does. -/
def run : Body Exc ω V → Program (SignalProcess Exc ω) (Thrown Exc) V
  | finish outcome => ofExec fun p => (outcome, p)
  | work seconds next => do
      IntervalTimer.work Handler.respond seconds
      run next
  | call timeout inner next => do
      let outcome ← attempt (timeout.executeWithSignal (run inner))
      run (next outcome)

/-- Every call that is made while the tree runs, at any depth, has a property that depends on its
timeout, its function and the process it is made in. -/
def EveryCall (P : Timeout Exc ω → Body Exc ω V → SignalProcess Exc ω → Prop) :
    Body Exc ω V → SignalProcess Exc ω → Prop
  | finish _, _ => True
  | work seconds next, p =>
      match exec (IntervalTimer.work Handler.respond seconds) p with
      | (.ok (), q) => EveryCall P next q
      | (.error _, _) => True
  | call timeout inner next, p =>
      P timeout inner p ∧ EveryCall P inner (timeout.entered p) ∧
        EveryCall P (next (exec (timeout.executeWithSignal (run inner)) p).1)
          (exec (timeout.executeWithSignal (run inner)) p).2

/-- The function makes a call before this time has passed. -/
def callsWithin : Body Exc ω V → ℚ → Bool
  | finish _, _ => false
  | work seconds next, left =>
      if left ≤ seconds then false else callsWithin next (left - seconds)
  | call _ _ _, _ => true

end Body

/-! ### Calls that nest -/

/-- A call leaves the handler and the alarm that was pending as it found them, unless that alarm has
come due meanwhile; and when its function has run to the time limit, it raises its own
`OperationTimeout`. -/
structure Nests (timeout : Timeout Exc ω) (inner : Body Exc ω V) (p : SignalProcess Exc ω) :
    Prop where
  handler : (exec (timeout.executeWithSignal inner.run) p).2.handler = p.handler
  idle : p.timer = none → (exec (timeout.executeWithSignal inner.run) p).2.timer = none
  alarm : ∀ alarm, p.timer = some alarm →
    (exec (timeout.executeWithSignal inner.run) p).2.timer = some alarm ∨
    ∃ later, (exec (timeout.executeWithSignal inner.run) p).2.delivered = p.delivered ++ later ∧
      alarm ∈ later
  times : p.now + timeout.config.duration ≤ (exec inner.run (timeout.entered p)).2.now →
    (exec (timeout.executeWithSignal inner.run) p).1 =
      .error (.operationTimeout p.armed (timeout.timedOut timeout.config.duration))

/-- Between the beginning and the end of a function, alarms are set and delivered in order. -/
theorem later_run (body : Body Exc ω V) (p : SignalProcess Exc ω) :
    Later p (exec body.run p).2 := by
  induction body generalizing p with
  | finish outcome => exact Later.refl p
  | work seconds next ih =>
      have hwork := later_work Handler.respond (seconds : ℚ) p
      rw [Body.run, exec_bind]
      rcases h : exec (IntervalTimer.work Handler.respond (seconds : ℚ)) p with ⟨r, q⟩
      rw [h] at hwork
      cases r with
      | ok => exact hwork.trans (ih q)
      | error thrown => exact hwork
  | call timeout inner next ihinner ihnext =>
      obtain ⟨log, hlog⟩ := exec_executeWithSignal timeout inner.run p
      have hcall : Later p (exec (timeout.executeWithSignal inner.run) p).2 := by
        rw [hlog]
        have henter : Later p (timeout.entered p) :=
          (later_install p _).trans (later_arm _ _)
        exact (henter.trans (ihinner _)).trans (Later.of_eq rfl rfl (.inr rfl))
      rw [Body.run, exec_bind_ok (exec_attempt _ p)]
      exact hcall.trans (ihnext _ _)

/-- **A call that is made while an alarm is pending does not nest**: the alarm is lost. -/
theorem not_nests_of_pending {timeout : Timeout Exc ω} {inner : Body Exc ω V}
    {p : SignalProcess Exc ω} {alarm : Alarm} (hp : p.timer = some alarm) :
    ¬ Nests timeout inner p := by
  intro h
  obtain ⟨log, hlog⟩ := exec_executeWithSignal timeout inner.run p
  rcases h.alarm alarm hp with htimer | ⟨later, hlater, hmem⟩
  · rw [hlog] at htimer
    cases htimer
  · rw [hlog] at hlater
    refine (later_run inner (timeout.entered p)).not_delivered hp (Nat.le_succ _) rfl ?_ later
      hlater hmem
    intro a ha
    rw [← Option.some_inj.1 ha]
    exact le_rfl

/-- A function that makes no call before its alarm comes due makes none at all, and when it runs to
the time limit, the handler has raised its exception. -/
theorem run_of_no_calls (P : Timeout Exc ω → Body Exc ω V → SignalProcess Exc ω → Prop)
    (body : Body Exc ω V) {p : SignalProcess Exc ω} {alarm : Alarm} {left : ℚ}
    {thrown : Thrown Exc} (hp : p.timer = some alarm) (hleft : alarm.deadline = p.now + left)
    (hpos : 0 < left) (hthrown : p.handler.respond alarm.deadline = .error thrown)
    (hcalls : body.callsWithin left = false) :
    body.EveryCall P p ∧
      (alarm.deadline ≤ (exec body.run p).2.now → (exec body.run p).1 = .error thrown) := by
  induction body generalizing p left with
  | finish outcome =>
      refine ⟨trivial, fun h => absurd h (not_le.2 ?_)⟩
      rw [hleft]
      exact lt_add_of_pos_right p.now hpos
  | work seconds next ih =>
      rw [Body.callsWithin] at hcalls
      split at hcalls
      · next hle =>
        -- the alarm comes due while the function works
        have hdue : alarm.deadline ≤ p.now + seconds := by linarith
        have hmax : max p.now alarm.deadline = alarm.deadline := max_eq_right (by linarith)
        have hwork : exec (work Handler.respond seconds) p = (.error thrown, p.deliver alarm) :=
          exec_work_alarm hp hdue (by rw [hmax]; exact hthrown)
        rw [Body.EveryCall, Body.run, hwork, exec_bind_error hwork]
        exact ⟨trivial, fun _ => rfl⟩
      · next hlt =>
        have hquiet : ∀ a, p.timer = some a → p.now + seconds < a.deadline := by
          intro a ha
          rw [← Option.some_inj.1 (hp.symm.trans ha)]
          linarith
        have hwork : exec (work Handler.respond seconds) p = (.ok (), p.elapse seconds) :=
          exec_work_quiet hquiet
        rw [Body.EveryCall, Body.run, hwork, exec_bind_ok hwork]
        have hleft' : alarm.deadline = (p.elapse seconds).now + (left - seconds) := by
          rw [hleft]
          simp only [Process.elapse]
          ring
        exact ih (p := p.elapse seconds) hp hleft' (sub_pos.2 (not_le.1 hlt)) hthrown hcalls
  | call timeout inner next => exact absurd hcalls (by simp [Body.callsWithin])

/-- A function that makes a call before its alarm comes due makes one that does not nest. -/
theorem not_everyCall_of_calls (body : Body Exc ω V) {p : SignalProcess Exc ω} {alarm : Alarm}
    {left : ℚ} (hp : p.timer = some alarm) (hleft : alarm.deadline = p.now + left)
    (hcalls : body.callsWithin left = true) : ¬ body.EveryCall Nests p := by
  induction body generalizing p left with
  | finish outcome => exact absurd hcalls (by simp [Body.callsWithin])
  | work seconds next ih =>
      rw [Body.callsWithin] at hcalls
      split at hcalls
      · cases hcalls
      · next hlt =>
        have hquiet : ∀ a, p.timer = some a → p.now + seconds < a.deadline := by
          intro a ha
          rw [← Option.some_inj.1 (hp.symm.trans ha)]
          linarith
        rw [Body.EveryCall, exec_work_quiet hquiet]
        have hleft' : alarm.deadline = (p.elapse seconds).now + (left - seconds) := by
          rw [hleft]
          simp only [Process.elapse]
          ring
        exact ih (p := p.elapse seconds) hp hleft' hcalls
  | call timeout inner next =>
      intro h
      exact not_nests_of_pending hp h.1

/-- **All calls of a tree nest** exactly when no alarm is pending at its root and the function of
the root makes no call within the time limit of the root.  The timer takes any duration here; one
that `setitimer` refuses as too large is outside of the model. -/
theorem nests_iff (timeout : Timeout Exc ω) (inner : Body Exc ω V) (p : SignalProcess Exc ω) :
    (Body.call timeout inner Body.finish).EveryCall Nests p ↔
      p.timer = none ∧ inner.callsWithin timeout.config.duration = false := by
  have hentered : (timeout.entered p).timer = some ⟨p.now + timeout.config.duration, p.armed⟩ := rfl
  constructor
  · rintro ⟨hroot, hinner, -⟩
    constructor
    · cases hp : p.timer with
      | none => rfl
      | some alarm => exact absurd hroot (not_nests_of_pending hp)
    · cases hcalls : inner.callsWithin timeout.config.duration with
      | false => rfl
      | true => exact absurd hinner (not_everyCall_of_calls inner hentered rfl hcalls)
  · rintro ⟨hp, hcalls⟩
    obtain ⟨log, hlog⟩ := exec_executeWithSignal timeout inner.run p
    have hthrown : (timeout.entered p).handler.respond (p.now + timeout.config.duration) =
        .error (.operationTimeout p.armed (timeout.timedOut timeout.config.duration)) := by
      change Except.error (Thrown.operationTimeout p.armed (timeout.timedOut _)) = _
      rw [add_sub_cancel_left]
    obtain ⟨hevery, htimes⟩ := run_of_no_calls Nests inner hentered rfl
      timeout.config.duration_pos hthrown hcalls
    refine ⟨⟨?_, ?_, ?_, ?_⟩, hevery, trivial⟩
    · rw [hlog]
      rfl
    · intro _
      rw [hlog]
      rfl
    · intro alarm halarm
      rw [hp] at halarm
      cases halarm
    · intro h
      rw [hlog]
      exact htimes h

/-! ### A call that outlives its limit -/

/-- A timeout of one second. -/
def oneSecond : Timeout Failure Unit := Timeout.init ⟨{ duration := 1 }, rfl⟩ none

/-- A process that has done nothing yet. -/
def idle : SignalProcess Failure Unit where
  now := 0
  handler := .foreign none
  timer := none
  armed := 0
  delivered := []
  log := []
  number_lt := nofun

/-- A function that makes a call, which returns at once, and then works for five seconds. -/
def callThenWork : Body Failure Unit ℕ :=
  .call oneSecond (.finish (.ok 0)) fun _ => .work 5 (.finish (.ok 7))

/-- Under a timeout of one second it returns after five. -/
theorem not_nests_callThenWork :
    ¬ (Body.call oneSecond callThenWork Body.finish).EveryCall Nests idle ∧
      (exec (oneSecond.executeWithSignal callThenWork.run) idle).1 = .ok 7 ∧
      (exec (oneSecond.executeWithSignal callThenWork.run) idle).2.now = 5 := by
  refine ⟨?_, rfl, by decide +kernel⟩
  rintro ⟨-, hinner, -⟩
  exact not_everyCall_of_calls callThenWork (p := oneSecond.entered idle) rfl rfl rfl hinner

end Timeouts
