/-
The callers of a rate limiter.

Any number of threads and coroutines share one rate limiter.  A call of `acquire`, `acquire_async`,
`execute` or `execute_async` takes one turn of the loop after another, each while it holds the lock,
and sleeps between them; once it has its permit, `execute` and `execute_async` run the function and
report how it went.  Turns, functions, reports and readings of `available_permits` interleave
arbitrarily, and no sleep need end when it should.

What the callers share is the history of the strategy.  A turn tries for a permit, reads the clock,
and asks for the wait, and each of the two queries reads the clock on its own, up to three times.
Any time may pass between all these readings; the results are about steps in which at least each
query makes its own readings at one instant.  Next to what the code keeps, a call remembers the
readings of its last turn, the number of its turns, and how many permits had been taken when it
began, which no step reads.

Main definitions:

* `RateLimiter.TurnReadings`, `RateLimiter.turn` — one turn of the loop of `acquire`;
* `RateLimiter.RateLimiterEvent` — the events of `execute`;
* `RateLimiter.Phase`, `RateLimiter.Call` — where a call is, and a call;
* `RateLimiter.callers`, `RateLimiter.RateLimiterConfig.callers` — the calls, interleaved.

Main results:

* `RateLimiter.acquireLoop_eq_turn` — the loop of a call that is alone takes turn after turn;
* `RateLimiter.turn_cases` — all a turn can do;
* `RateLimiter.callers_cases` — all the next step of a call can do.
-/

import Pysilience.Lib.Threads
import Pysilience.RateLimiter.Acquire
import Pysilience.RateLimiter.Readings

set_option relaxedAutoImplicit false
set_option autoImplicit false

namespace RateLimiter

open LazyMeter Python Threads Transition

universe u v w

variable {S : Type u} {V : Type v} {Exc : Type w}

/-! ### One turn -/

/-- The readings of the clock in one turn: those of `try_acquire`, the one that determines the time
that has passed, and those of `seconds_until_available`. -/
structure TurnReadings where
  tried : Readings
  checked : ℚ
  estimated : Readings
  le_checked : tried.third ≤ checked
  le_estimated : checked ≤ estimated.first

/-- The instants of one turn, if each query makes its readings at one instant. -/
structure Instants where
  tried : ℚ
  checked : ℚ
  estimated : ℚ
  le_checked : tried ≤ checked
  le_estimated : checked ≤ estimated

/-- All readings of a turn made at one instant. -/
def TurnReadings.at (now : ℚ) : TurnReadings := ⟨.at now, now, .at now, le_rfl, le_rfl⟩

namespace TurnReadings

/-- Each query of the turn makes its readings at one instant. -/
def Single (r : TurnReadings) : Prop := r.tried.Single ∧ r.estimated.Single

instance (r : TurnReadings) : Decidable r.Single :=
  inferInstanceAs (Decidable (r.tried.Single ∧ r.estimated.Single))

/-- When a permit was tried for, when the time that had passed was determined, and when the wait was
estimated. -/
def instants (r : TurnReadings) : Instants where
  tried := r.tried.first
  checked := r.checked
  estimated := r.estimated.first
  le_checked := r.tried.le_last.trans r.le_checked
  le_estimated := r.le_estimated

end TurnReadings

/-- A permit that a call has taken: when it was taken, and the time that `acquire` returns. -/
structure Grant where
  takenAt : ℚ
  waited : ℚ
  deriving DecidableEq

/-- How a turn ends: with a permit, with an exception, or with a sleep that is due to end. -/
inductive TurnEnd
  | acquired (grant : Grant)
  | rejected (err : RateLimitExceeded)
  | sleep (due : ℚ)
  deriving DecidableEq

/-- One turn of the loop of `acquire`, for a call that began at `start`.  The history records the
first reading of each query, and its clock shows the last one. -/
def turn (τ : ClockedStrategy S) (name : String) (timeoutDuration start : ℚ) (h : History S)
    (r : TurnReadings) : History S × TurnEnd :=
  let (granted, strategy) := τ.tryAcquire h.strategy r.tried
  if granted then
    (⟨strategy, r.tried.third, r.tried.first :: h.readings, r.tried.first :: h.grants⟩,
      .acquired ⟨r.tried.first, r.checked - start⟩)
  else
    -- whichever branch is taken asks for the wait, after its other readings
    let (seconds, strategy) := τ.secondsUntilAvailable strategy r.estimated
    let h := ⟨strategy, r.estimated.third, r.estimated.first :: r.tried.first :: h.readings,
      h.grants⟩
    if timeoutDuration = 0 then (h, .rejected (reject name seconds))
    else
      let remaining := start + timeoutDuration - r.checked
      if remaining ≤ 0 then (h, .rejected (reject name seconds))
      else (h, .sleep (r.estimated.third + min seconds remaining))

/-- **The loop of a call that is alone takes turn after turn.** -/
theorem acquireLoop_eq_turn (τ : ClockedStrategy S) (sleep : ℚ → ℚ → ℚ) (name : String)
    (timeout start : ℚ) (turns : ℕ) (h : History S) (now : ℚ) :
    acquireLoop τ.atOnce sleep name timeout start (turns + 1) h.strategy now =
      match turn τ name timeout start h (.at now) with
      | (h', .acquired grant) => some ⟨.ok grant.waited, h'.strategy, now, []⟩
      | (h', .rejected err) => some ⟨.error err, h'.strategy, now, []⟩
      | (h', .sleep due) =>
          (acquireLoop τ.atOnce sleep name timeout start turns h'.strategy
            (sleep now (due - now))).map fun e => e.after (due - now) := by
  have hthird : (Readings.at now).third = now := rfl
  by_cases hgranted : (τ.tryAcquire h.strategy (.at now)).1 = true
  · simp only [acquireLoop, turn, ClockedStrategy.atOnce, TurnReadings.at, hgranted, if_true]
  · simp only [acquireLoop, turn, ClockedStrategy.atOnce, TurnReadings.at, hthird, hgranted,
      if_false, Bool.false_eq_true]
    by_cases htimeout : timeout = 0
    · simp only [htimeout, if_true]
    · by_cases hremaining : start + timeout - now ≤ 0
      · simp only [htimeout, hremaining, if_true, if_false]
      · simp only [htimeout, hremaining, if_false, add_sub_cancel_left]

/-! ### A call -/

/-- The types of the events. -/
inductive RateLimiterEventType
  | success | rejected | error
  deriving DecidableEq, Repr

/-- What a call raises: the exception of the rate limiter, or another one. -/
inductive Raised (Exc : Type w)
  | rateLimitExceeded (err : RateLimitExceeded)
  | other (exc : Exc)
  deriving DecidableEq

/-- `RateLimiterEvent`. -/
structure RateLimiterEvent (Exc : Type w) where
  eventType : RateLimiterEventType
  name : String
  availablePermits : ℤ
  waitTime : ℚ
  exception : Option (Raised Exc)
  deriving DecidableEq

/-- The methods that request a permit. -/
inductive Method
  | acquire | acquireAsync | execute | executeAsync
  deriving DecidableEq, Repr

/-- Whether a method runs a function once it has a permit. -/
def Method.executes : Method → Bool
  | acquire | acquireAsync => false
  | execute | executeAsync => true

/-- What a call returned, the time it waited or the result of the function, or raised. -/
inductive Result (V : Type v) (Exc : Type w)
  | waited (seconds : ℚ)
  | value (v : V)
  | raised (exc : Raised Exc)
  deriving DecidableEq

/-- The end of a call: the permit that it took, if it took one, and its result. -/
structure Ending (V : Type v) (Exc : Type w) where
  grant : Option Grant
  result : Result V Exc
  deriving DecidableEq

/-- The exception with which a call that ended so was rejected. -/
def Ending.rejection : Ending V Exc → Option RateLimitExceeded
  | ⟨_, .raised (.rateLimitExceeded err)⟩ => some err
  | _ => none

/-- Where a call is: it requests a permit for the first time, it sleeps, it runs the function, it
is about to read `available_permits` for its event, it notifies the listeners, or it has ended. -/
inductive Phase (V : Type v) (Exc : Type w)
  | requesting
  | sleeping (due : ℚ)
  | running (grant : Grant)
  | reporting (grant : Grant) (outcome : Except Exc V)
  | emitting (event : RateLimiterEvent Exc) (ending : Ending V Exc)
  | ended (ending : Ending V Exc)

/-- Until when the call sleeps. -/
def Phase.sleepsUntil : Phase V Exc → Option ℚ
  | .sleeping due => some due
  | _ => none

theorem Phase.sleepsUntil_eq_some {ph : Phase V Exc} {due : ℚ} (h : ph.sleepsUntil = some due) :
    ph = .sleeping due := by
  cases ph with
  | sleeping _ => rw [Option.some_inj.1 h]
  | _ => cases h

/-- A call: its method, the reading of the clock at its beginning, the number of permits taken by
then, and its turns so far. -/
structure Call (V : Type v) (Exc : Type w) where
  method : Method
  start : ℚ
  grantsBefore : ℕ
  turns : ℕ
  last : Option TurnReadings
  phase : Phase V Exc

/-- What can happen to a call: it takes a turn, its sleep is interrupted by an exception, its
function ends, it reads `available_permits`, or it has notified the listeners, of which one may have
raised what is not an `Exception`. -/
inductive CallEvent (V : Type v) (Exc : Type w)
  | turn (r : TurnReadings)
  | interrupted (exc : Exc)
  | finish (outcome : Except Exc V)
  | observe (r : Readings)
  | emitted (escaped : Option Exc)

/-- Each query of a step makes its readings at one instant. -/
def CallEvent.Single : CallEvent V Exc → Prop
  | turn r => r.Single
  | observe r => r.Single
  | interrupted _ | finish _ | emitted _ => True

instance : (event : CallEvent V Exc) → Decidable event.Single
  | .turn r => inferInstanceAs (Decidable r.Single)
  | .observe r => inferInstanceAs (Decidable r.Single)
  | .interrupted _ | .finish _ | .emitted _ => isTrue trivial

/-- The event of a rejected call. -/
def rejectedEvent (name : String) (err : RateLimitExceeded) : RateLimiterEvent Exc where
  eventType := .rejected
  name := name
  availablePermits := 0
  waitTime := err.waitTime.getD 0
  exception := some (.rateLimitExceeded err)

/-- The event of a call whose function has ended. -/
def executedEvent (name : String) (availablePermits : ℤ) (grant : Grant) :
    Except Exc V → RateLimiterEvent Exc
  | .ok _ => ⟨.success, name, availablePermits, grant.waited, none⟩
  | .error exc => ⟨.error, name, availablePermits, grant.waited, some (.other exc)⟩

/-- The end of a call whose function has ended. -/
def Ending.executed (grant : Grant) : Except Exc V → Ending V Exc
  | .ok v => ⟨some grant, .value v⟩
  | .error exc => ⟨some grant, .raised (.other exc)⟩

/-- Where a turn leads. -/
def TurnEnd.phase (name : String) (method : Method) : TurnEnd → Phase V Exc
  | acquired grant =>
      if method.executes then .running grant else .ended ⟨some grant, .waited grant.waited⟩
  | rejected err =>
      let ending : Ending V Exc := ⟨none, .raised (.rateLimitExceeded err)⟩
      if method.executes then .emitting (rejectedEvent name err) ending else .ended ending
  | sleep due => .sleeping due

namespace Phase

/-- The call takes a turn next. -/
def waiting : Phase V Exc → Bool
  | requesting | sleeping _ => true
  | _ => false

/-- The permit that a call in this phase has taken. -/
def grant : Phase V Exc → Option Grant
  | requesting | sleeping _ => none
  | running g | reporting g _ => some g
  | emitting _ e | ended e => e.grant

/-- The exception with which a call in this phase was rejected. -/
def rejection : Phase V Exc → Option RateLimitExceeded
  | emitting _ e | ended e => e.rejection
  | _ => none

end Phase

namespace TurnEnd

/-- The permit that a turn took. -/
def grant : TurnEnd → Option Grant
  | acquired g => some g
  | _ => none

/-- The exception with which a turn ends. -/
def rejection : TurnEnd → Option RateLimitExceeded
  | rejected err => some err
  | _ => none

variable (name : String) (method : Method) (e : TurnEnd)

@[simp] theorem phase_grant : (e.phase name method : Phase V Exc).grant = e.grant := by
  cases e <;> cases method <;> rfl

@[simp] theorem phase_rejection : (e.phase name method : Phase V Exc).rejection = e.rejection := by
  cases e <;> cases method <;> rfl

@[simp] theorem phase_eq_sleeping {due : ℚ} :
    (e.phase name method : Phase V Exc) = .sleeping due ↔ e = .sleep due := by
  cases e <;> cases method <;> simp [phase, Method.executes]

@[simp] theorem phase_ne_requesting : (e.phase name method : Phase V Exc) ≠ .requesting := by
  cases e <;> cases method <;> simp [phase, Method.executes]

end TurnEnd

/-- A reading of `available_permits`. -/
def History.report (τ : ClockedStrategy S) (h : History S) (r : Readings) : Option (History S) :=
  if r.first < h.clock then none
  else some ⟨(τ.permits h.strategy r).2, r.third, r.first :: h.readings, h.grants⟩

namespace Call

/-- A call that begins. -/
def begin (method : Method) (start : ℚ) (grantsBefore : ℕ) : Call V Exc :=
  ⟨method, start, grantsBefore, 0, none, .requesting⟩

/-- A call after a turn. -/
def turned (name : String) (c : Call V Exc) (r : TurnReadings) (turnEnd : TurnEnd) : Call V Exc :=
  { c with turns := c.turns + 1, last := some r, phase := turnEnd.phase name c.method }

@[simp] theorem turned_phase (name : String) (c : Call V Exc) (r : TurnReadings)
    (turnEnd : TurnEnd) : (c.turned name r turnEnd).phase = turnEnd.phase name c.method := rfl

/-- A call in another phase. -/
def move (c : Call V Exc) (phase : Phase V Exc) : Call V Exc := { c with phase := phase }

variable {Cls : Type*} [Exceptions Exc Cls]

/-- The next step of a call.  The readings of a turn are not before those of other queries, nor
before the beginning of the call. -/
def advance (τ : ClockedStrategy S) (name : String) (timeoutDuration : ℚ) (h : History S)
    (c : Call V Exc) : CallEvent V Exc → Option (History S × Call V Exc)
  | .turn r =>
      if c.phase.waiting = false ∨ r.tried.first < h.clock ∨ r.tried.first < c.start then none
      else
        let (h', turnEnd) := RateLimiter.turn τ name timeoutDuration c.start h r
        some (h', c.turned name r turnEnd)
  | .interrupted exc =>
      match c.phase with
      | .sleeping _ => some (h, c.move (.ended ⟨none, .raised (.other exc)⟩))
      | _ => none
  | .finish outcome =>
      match c.phase, outcome with
      | .running grant, .ok v => some (h, c.move (.reporting grant (.ok v)))
      | .running grant, .error exc =>
          if caught exc then some (h, c.move (.reporting grant (.error exc)))
          else some (h, c.move (.ended ⟨some grant, .raised (.other exc)⟩))
      | _, _ => none
  | .observe r =>
      match c.phase with
      | .reporting grant outcome =>
          (h.report τ r).map fun h' =>
            (h', c.move (.emitting
              (executedEvent name (τ.permits h.strategy r).1 grant outcome)
              (.executed grant outcome)))
      | _ => none
  | .emitted escaped =>
      match c.phase, escaped with
      | .emitting _ ending, none => some (h, c.move (.ended ending))
      | .emitting _ ending, some exc =>
          if caught exc then none
          else some (h, c.move (.ended ⟨ending.grant, .raised (.other exc)⟩))
      | _, _ => none

end Call

/-- A call that is made: its method, and the reading of the clock at its beginning. -/
structure Invocation where
  method : Method
  start : ℚ

/-- The calls of a rate limiter and the readings of `available_permits`, interleaved. -/
def callers (V : Type v) {Exc : Type w} {Cls : Type*} [Exceptions Exc Cls] (τ : ClockedStrategy S)
    (name : String) (timeoutDuration : ℚ) (strategy : S) (now : ℚ) :
    Team (History S) (Call V Exc) Invocation (CallEvent V Exc) Readings where
  init := History.start strategy now
  join h a := some (h, Call.begin a.method a.start h.grants.length)
  advance h _ c event := c.advance τ name timeoutDuration h event
  outside h r := h.report τ r

/-- The callers of a rate limiter that was created at the reading `now`. -/
abbrev RateLimiterConfig.callers (config : RateLimiterConfig) (V : Type v) {Exc : Type w}
    {Cls : Type*} [Exceptions Exc Cls] (name : String) (now : ℚ) :
    Team (History config.State) (Call V Exc) Invocation (CallEvent V Exc) Readings :=
  RateLimiter.callers V config.clocked name config.timeoutDuration (createStrategy config now) now

/-- The side condition on a step: each query makes its readings of the clock at one instant. -/
def SingleReadings (_ : Threads.State (History S) (Call V Exc)) :
    Threads.Action Invocation (CallEvent V Exc) Readings → Prop
  | .join _ => True
  | .advance _ event => event.Single
  | .outside r => r.Single

instance (st : Threads.State (History S) (Call V Exc)) :
    (a : Threads.Action Invocation (CallEvent V Exc) Readings) → Decidable (SingleReadings st a)
  | .join _ => isTrue trivial
  | .advance _ event => inferInstanceAs (Decidable event.Single)
  | .outside r => inferInstanceAs (Decidable r.Single)

/-! ### What a turn does -/

variable {m : Meter S ℚ} {Valid : S → ℚ → Prop} {σ : RateLimitStrategy S} {τ : ClockedStrategy S}
  {name : String} {timeout start : ℚ} {h : History S} {r : Instants}

variable (σ h r) in
/-- The history after a turn that took a permit. -/
def takenBy : History S :=
  ⟨(σ.tryAcquire h.strategy r.tried).2, r.tried, r.tried :: h.readings, r.tried :: h.grants⟩

variable (σ h r) in
/-- The wait that a turn estimates when it was refused a permit, and the state it leaves. -/
def estimateOf : ℚ × S := σ.secondsUntilAvailable (σ.tryAcquire h.strategy r.tried).2 r.estimated

variable (σ h r) in
/-- The history after a turn that was refused a permit. -/
def refusedTo : History S :=
  ⟨(estimateOf σ h r).2, r.estimated, r.estimated :: r.tried :: h.readings, h.grants⟩

/-- The cases of a turn: a permit is left; none is left, and the call may not wait or not any
longer; or it sleeps for as long as estimated, or until its deadline. -/
inductive TurnCase (σ : RateLimitStrategy S) (name : String) (timeout start : ℚ) (h : History S)
    (r : Instants) : History S → TurnEnd → Prop
  | acquired : (σ.tryAcquire h.strategy r.tried).1 = true →
      TurnCase σ name timeout start h r (takenBy σ h r) (.acquired ⟨r.tried, r.checked - start⟩)
  | rejected : (σ.tryAcquire h.strategy r.tried).1 = false →
      timeout = 0 ∨ start + timeout ≤ r.checked →
      TurnCase σ name timeout start h r (refusedTo σ h r)
        (.rejected (reject name (estimateOf σ h r).1))
  | sleep : (σ.tryAcquire h.strategy r.tried).1 = false → r.checked < start + timeout →
      TurnCase σ name timeout start h r (refusedTo σ h r)
        (.sleep (r.estimated + min (estimateOf σ h r).1 (start + timeout - r.checked)))

/-- **All a turn can do** whose queries make their readings at one instant each. -/
theorem turn_cases (τ : ClockedStrategy S) (name : String) (timeout start : ℚ) (h : History S)
    {r : TurnReadings} (hr : r.Single) :
    TurnCase τ.atOnce name timeout start h r.instants (turn τ name timeout start h r).1
      (turn τ name timeout start h r).2 := by
  obtain ⟨htried, hestimated⟩ := hr
  have htry := τ.tryAcquire_of_single htried
  have hask := τ.secondsUntilAvailable_of_single hestimated
  have htried' : r.tried.third = r.tried.first := htried
  have hestimated' : r.estimated.third = r.estimated.first := hestimated
  cases hgranted : (τ.atOnce.tryAcquire h.strategy r.tried.first).1 with
  | true =>
      simp only [turn, htry, htried', hgranted, if_true]
      exact .acquired hgranted
  | false =>
      simp only [turn, htry, hask, hestimated', hgranted, Bool.false_eq_true, if_false]
      by_cases htimeout : timeout = 0
      · rw [if_pos htimeout]
        exact .rejected hgranted (Or.inl htimeout)
      · rw [if_neg htimeout]
        by_cases hremaining : start + timeout - r.checked ≤ 0
        · rw [if_pos hremaining]
          exact .rejected hgranted (Or.inr (sub_nonpos.1 hremaining))
        · rw [if_neg hremaining]
          exact .sleep hgranted (sub_pos.1 (not_le.1 hremaining))

/-- What a lawful meter estimates when it was refused a permit: the wait from the last reading on,
as if nobody had tried. -/
theorem estimateOf_eq (law : m.Lawful Valid) (hs : Valid h.strategy h.clock)
    (hr : h.clock ≤ r.tried) (hrefused : ((ofMeter m).tryAcquire h.strategy r.tried).1 = false) :
    estimateOf (ofMeter m) h r =
      (m.delay h.strategy r.estimated, m.settle h.strategy r.estimated) := by
  have htried := r.le_checked.trans r.le_estimated
  have hattempt : ((ofMeter m).tryAcquire h.strategy r.tried).2 = m.settle h.strategy r.tried :=
    Meter.attempt_snd_of_refused hrefused
  rw [estimateOf, hattempt]
  exact Prod.ext (law.delay_settle hs hr htried) (law.settle_settle hs hr htried)

/-- A reading of the permits that is made at one instant is a query of the strategy. -/
theorem History.report_of_single {r : Readings} (hr : r.Single) :
    h.report τ r = h.step τ.atOnce (.permits, r.first) := by
  have hthird : r.third = r.first := hr
  simp only [report, step, RateLimitStrategy.ask, τ.permits_of_single hr, hthird,
    Bool.false_eq_true, if_false]

/-- A query that is not too early is answered. -/
theorem History.step_of_le (query : Query) {now : ℚ} (hnow : h.clock ≤ now) :
    h.step σ (query, now) = some ⟨(σ.ask h.strategy now query).2, now, now :: h.readings,
      if (σ.ask h.strategy now query).1 then now :: h.grants else h.grants⟩ :=
  if_neg (not_lt.2 hnow)

/-- A turn that is refused a permit is two queries: the attempt, and the estimate. -/
theorem refusedTo_reachable {init : S} {t0 : ℚ} (hr : (runs σ init t0).Reachable h)
    (ht : h.clock ≤ r.tried) (hrefused : (σ.tryAcquire h.strategy r.tried).1 = false) :
    (runs σ init t0).Reachable (refusedTo σ h r) := by
  have htry := hr.step (History.step_of_le (σ := σ) .tryAcquire ht)
  have hwait := htry.step (History.step_of_le (σ := σ) .secondsUntilAvailable
    (r.le_checked.trans r.le_estimated))
  simp only [RateLimitStrategy.ask, hrefused, Bool.false_eq_true, if_false] at hwait
  exact hwait

/-- **A turn is a run of the strategy.** -/
theorem TurnCase.reachable {init : S} {t0 : ℚ} {h' : History S} {e : TurnEnd}
    (hc : TurnCase σ name timeout start h r h' e) (hr : (runs σ init t0).Reachable h)
    (ht : h.clock ≤ r.tried) : (runs σ init t0).Reachable h' := by
  cases hc with
  | acquired hgranted =>
      have htry := hr.step (History.step_of_le (σ := σ) .tryAcquire ht)
      simp only [RateLimitStrategy.ask, hgranted, if_true] at htry
      exact htry
  | rejected hrefused _ => exact refusedTo_reachable hr ht hrefused
  | sleep hrefused _ => exact refusedTo_reachable hr ht hrefused

/-! ### What a call does -/

variable {Cls : Type*} [Exceptions Exc Cls] {h' : History S} {c c' : Call V Exc}

/-- A call that does not wait for a permit any more moves on to another phase: it keeps its permit,
and is rejected only if it has been. -/
structure Phase.MovesOn (p q : Phase V Exc) : Prop where
  decided : p.waiting = false
  waiting_eq : q.waiting = false
  grant_eq : q.grant = p.grant
  rejection : ∀ err, q.rejection = some err → p.rejection = some err

/-- The cases of a step of a call: it takes a turn; its sleep is interrupted; it moves on, with the
permit it has and without using the strategy; or it reads `available_permits`. -/
inductive AdvanceCase (σ : RateLimitStrategy S) (name : String) (timeout : ℚ) (h : History S)
    (c : Call V Exc) : CallEvent V Exc → History S → Call V Exc → Prop
  | turn {r : TurnReadings} {h' : History S} {e : TurnEnd} : c.phase.waiting = true →
      h.clock ≤ r.instants.tried → c.start ≤ r.instants.tried →
      TurnCase σ name timeout c.start h r.instants h' e →
      AdvanceCase σ name timeout h c (.turn r) h' (c.turned name r e)
  | interrupted {due : ℚ} {exc : Exc} : c.phase = .sleeping due →
      AdvanceCase σ name timeout h c (.interrupted exc) h
        (c.move (.ended ⟨none, .raised (.other exc)⟩))
  | moved {event : CallEvent V Exc} {phase : Phase V Exc} : c.phase.MovesOn phase →
      AdvanceCase σ name timeout h c event h (c.move phase)
  | observed {r : Readings} {grant : Grant} {outcome : Except Exc V} :
      c.phase = .reporting grant outcome → h.clock ≤ r.first →
      AdvanceCase σ name timeout h c (.observe r)
        ⟨(σ.permits h.strategy r.first).2, r.first, r.first :: h.readings, h.grants⟩
        (c.move (.emitting (executedEvent name (σ.permits h.strategy r.first).1 grant outcome)
          (.executed grant outcome)))

/-- **All the next step of a call can do** if its query makes its readings at one instant. -/
theorem Call.advance_cases {event : CallEvent V Exc} (hsingle : event.Single)
    (ha : c.advance τ name timeout h event = some (h', c')) :
    AdvanceCase τ.atOnce name timeout h c event h' c' := by
  cases event with
  | turn r =>
      simp only [Call.advance] at ha
      split at ha
      · cases ha
      · next hready =>
        simp only [not_or, not_lt, Bool.not_eq_false] at hready
        cases ha
        exact .turn hready.1 hready.2.1 hready.2.2 (turn_cases _ _ _ _ _ hsingle)
  | interrupted exc =>
      simp only [Call.advance] at ha
      split at ha
      · next due hphase =>
        cases ha
        exact .interrupted hphase
      · cases ha
  | finish outcome =>
      simp only [Call.advance] at ha
      split at ha
      · next grant v hphase =>
        cases ha
        exact .moved (hphase ▸ ⟨rfl, rfl, rfl, nofun⟩)
      · next grant exc hphase =>
        split at ha
        · cases ha
          exact .moved (hphase ▸ ⟨rfl, rfl, rfl, nofun⟩)
        · cases ha
          exact .moved (hphase ▸ ⟨rfl, rfl, rfl, nofun⟩)
      · cases ha
  | observe r =>
      have hr : r.Single := hsingle
      simp only [Call.advance, History.report_of_single hr, τ.permits_of_single hr] at ha
      split at ha
      · next grant outcome hphase =>
        obtain ⟨h₁, hstep, heq⟩ := Option.map_eq_some_iff.1 ha
        obtain ⟨hnow, rfl⟩ := History.step_eq_some hstep
        cases heq
        exact .observed hphase hnow
      · cases ha
  | emitted escaped =>
      simp only [Call.advance] at ha
      split at ha
      · next e ending hphase =>
        cases ha
        exact .moved (hphase ▸ ⟨rfl, rfl, rfl, fun _ h => h⟩)
      · next e ending exc hphase =>
        split at ha
        · cases ha
        · cases ha
          exact .moved (hphase ▸ ⟨rfl, rfl, rfl, nofun⟩)
      · cases ha

/-- The steps of the calls are those of the machine. -/
theorem callers_cases {init : S} {t0 : ℚ} {i : ℕ} {event : CallEvent V Exc}
    (hsingle : event.Single)
    (ha : (callers V τ name timeout init t0).advance h i c event = some (h', c')) :
    AdvanceCase τ.atOnce name timeout h c event h' c' :=
  Call.advance_cases hsingle ha

end RateLimiter
