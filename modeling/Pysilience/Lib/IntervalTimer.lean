/-
The interval timer of a process, and the handler of its signal.

A process has one timer.  Setting it replaces the alarm that is pending, and an alarm that comes due
while the process works calls the handler that is installed at that moment, which may raise an
exception in the middle of the work.  Time passes only while the process works.

Alarms are numbered in the order in which they are set, so that one can tell whether an alarm was
delivered, or was replaced or cancelled before.

Main definitions:

* `IntervalTimer.Process` — the clock, the handler, the timer, and what was delivered;
* `IntervalTimer.swapHandler`, `IntervalTimer.setTimer`, `IntervalTimer.work` — what a process does;
* `IntervalTimer.Later` — what may happen between two states.

Main results:

* `IntervalTimer.exec_work_quiet`, `IntervalTimer.exec_work_alarm` — working, with an alarm that
  does not come due meanwhile and with one that does;
* `IntervalTimer.Later.trans` — nothing is delivered that was not pending or set since;
* `IntervalTimer.Later.not_delivered` — **an alarm that was replaced is not delivered any more**.
-/

import Pysilience.Lib.Programs
import Mathlib.Algebra.Order.Field.Rat
import Mathlib.Tactic.Linarith

set_option relaxedAutoImplicit false
set_option autoImplicit false

namespace IntervalTimer

open Programs

variable {H E Exc : Type}

/-! ### Processes -/

/-- An alarm: when it is due, and its number. -/
structure Alarm where
  deadline : ℚ
  number : ℕ
  deriving DecidableEq

/-- A process with handlers of the type `H` that writes a log. -/
structure Process (H E : Type) where
  now : ℚ
  handler : H
  timer : Option Alarm
  /-- How many alarms were set so far. -/
  armed : ℕ
  /-- The alarms for which the handler was called, in order. -/
  delivered : List Alarm
  log : List E
  number_lt : ∀ alarm, timer = some alarm → alarm.number < armed

namespace Process

/-- Time passes. -/
def elapse (p : Process H E) (seconds : ℚ) : Process H E := { p with now := p.now + seconds }

/-- Time passes until a certain time. -/
def elapseUntil (p : Process H E) (time : ℚ) : Process H E := { p with now := max p.now time }

/-- The handler is replaced. -/
def install (p : Process H E) (handler : H) : Process H E := { p with handler := handler }

/-- Something is written. -/
def write (p : Process H E) (entry : E) : Process H E := { p with log := p.log ++ [entry] }

/-- An alarm is set; the one that was pending is not any more. -/
def arm (p : Process H E) (seconds : ℚ) : Process H E :=
  { p with
    timer := some ⟨p.now + seconds, p.armed⟩
    armed := p.armed + 1
    number_lt := by
      intro alarm h
      rw [← Option.some_inj.1 h]
      exact Nat.lt_succ_self _ }

/-- The alarm that was pending is cancelled. -/
def disarm (p : Process H E) : Process H E := { p with timer := none, number_lt := nofun }

/-- An alarm comes due. -/
def deliver (p : Process H E) (alarm : Alarm) : Process H E :=
  { p with
    now := max p.now alarm.deadline
    timer := none
    delivered := p.delivered ++ [alarm]
    number_lt := nofun }

end Process

/-! ### What a process does -/

/-- `time.monotonic()`. -/
def readClock : Program (Process H E) Exc ℚ := ofExec fun p => (.ok p.now, p)

/-- The number of the alarm that is set next. -/
def nextNumber : Program (Process H E) Exc ℕ := ofExec fun p => (.ok p.armed, p)

/-- `signal.signal(signal.SIGALRM, handler)`, which returns the handler that was installed. -/
def swapHandler (handler : H) : Program (Process H E) Exc H :=
  ofExec fun p => (.ok p.handler, p.install handler)

/-- `signal.setitimer(signal.ITIMER_REAL, seconds)`; zero seconds cancel the alarm. -/
def setTimer (seconds : ℚ) : Program (Process H E) Exc Unit :=
  ofExec fun p => (.ok (), if seconds = 0 then p.disarm else p.arm seconds)

/-- Something is written to the log. -/
def write (entry : E) : Program (Process H E) Exc Unit := ofExec fun p => (.ok (), p.write entry)

theorem exec_readClock (p : Process H E) :
    exec (readClock : Program (Process H E) Exc ℚ) p = (.ok p.now, p) := rfl

theorem exec_nextNumber (p : Process H E) :
    exec (nextNumber : Program (Process H E) Exc ℕ) p = (.ok p.armed, p) := rfl

theorem exec_swapHandler (handler : H) (p : Process H E) :
    exec (swapHandler handler : Program (Process H E) Exc H) p =
      (.ok p.handler, p.install handler) := rfl

theorem exec_setTimer (seconds : ℚ) (p : Process H E) :
    exec (setTimer seconds : Program (Process H E) Exc Unit) p =
      (.ok (), if seconds = 0 then p.disarm else p.arm seconds) := rfl

theorem exec_write (entry : E) (p : Process H E) :
    exec (write entry : Program (Process H E) Exc Unit) p = (.ok (), p.write entry) := rfl

/-- The process works for some time; a handler that is called meanwhile, at some time, does what
`respond` says.  When it returns, the process goes on with its work. -/
def work (respond : H → ℚ → Except Exc Unit) (seconds : ℚ) : Program (Process H E) Exc Unit :=
  ofExec fun p =>
    match p.timer with
    | none => (.ok (), p.elapse seconds)
    | some alarm =>
        if alarm.deadline ≤ p.now + seconds then
          match respond p.handler (p.deliver alarm).now with
          | .ok () => (.ok (), (p.deliver alarm).elapseUntil (p.now + seconds))
          | .error e => (.error e, p.deliver alarm)
        else (.ok (), p.elapse seconds)

/-- The alarm, if one is pending, does not come due. -/
theorem exec_work_quiet {respond : H → ℚ → Except Exc Unit} {seconds : ℚ} {p : Process H E}
    (h : ∀ alarm, p.timer = some alarm → p.now + seconds < alarm.deadline) :
    exec (work respond seconds) p = (.ok (), p.elapse seconds) := by
  rw [work, exec_ofExec]
  split
  · rfl
  · next alarm hp => exact if_neg (not_le.2 (h alarm hp))

/-- The alarm comes due, and the handler raises an exception. -/
theorem exec_work_alarm {respond : H → ℚ → Except Exc Unit} {seconds : ℚ} {p : Process H E}
    {alarm : Alarm} {e : Exc} (hp : p.timer = some alarm) (h : alarm.deadline ≤ p.now + seconds)
    (he : respond p.handler (max p.now alarm.deadline) = .error e) :
    exec (work respond seconds) p = (.error e, p.deliver alarm) := by
  rw [work, exec_ofExec]
  have he' : respond p.handler (p.deliver alarm).now = .error e := he
  simp only [hp, if_pos h, he']

/-! ### What may happen between two states -/

/-- Alarms are set, and the alarms that are delivered meanwhile, or pending at the end, were pending
at the beginning or have been set since. -/
structure Later (p q : Process H E) : Prop where
  armed : p.armed ≤ q.armed
  pending : ∀ alarm, q.timer = some alarm → p.timer = some alarm ∨ p.armed ≤ alarm.number
  delivered : ∃ later, q.delivered = p.delivered ++ later ∧
    ∀ alarm ∈ later, p.timer = some alarm ∨ p.armed ≤ alarm.number

theorem Later.refl (p : Process H E) : Later p p :=
  ⟨le_rfl, fun _ => .inl, [], (List.append_nil _).symm, nofun⟩

/-- Nothing is delivered that was not pending or set since. -/
theorem Later.trans {p q r : Process H E} (h : Later p q) (h' : Later q r) : Later p r := by
  -- what is new after the second part is new after the first
  have hnew : ∀ alarm : Alarm, q.timer = some alarm ∨ q.armed ≤ alarm.number →
      p.timer = some alarm ∨ p.armed ≤ alarm.number := by
    rintro alarm (hpending | hset)
    · exact h.pending alarm hpending
    · exact .inr (h.armed.trans hset)
  obtain ⟨later, hlater, hall⟩ := h.delivered
  obtain ⟨later', hlater', hall'⟩ := h'.delivered
  refine ⟨h.armed.trans h'.armed, fun alarm ha => hnew alarm (h'.pending alarm ha),
    later ++ later', by rw [hlater', hlater, List.append_assoc], ?_⟩
  intro alarm ha
  rcases List.mem_append.1 ha with ha | ha
  · exact hall alarm ha
  · exact hnew alarm (hall' alarm ha)

/-- A state that differs in the clock, the handler, the log and an alarm that is cancelled. -/
theorem Later.of_eq {p q : Process H E} (harmed : q.armed = p.armed)
    (hdelivered : q.delivered = p.delivered) (htimer : q.timer = p.timer ∨ q.timer = none) :
    Later p q := by
  refine ⟨harmed.ge, ?_, [], by rw [hdelivered, List.append_nil], nofun⟩
  intro alarm ha
  rcases htimer with h | h
  · exact .inl (h ▸ ha)
  · rw [h] at ha
    cases ha

theorem later_install (p : Process H E) (handler : H) : Later p (p.install handler) :=
  Later.of_eq rfl rfl (.inl rfl)

theorem later_arm (p : Process H E) (seconds : ℚ) : Later p (p.arm seconds) := by
  refine ⟨Nat.le_succ _, ?_, [], (List.append_nil _).symm, nofun⟩
  intro alarm ha
  rw [← Option.some_inj.1 ha]
  exact .inr le_rfl

/-- Whatever the handler does, working delivers at most the alarm that was pending. -/
theorem later_work (respond : H → ℚ → Except Exc Unit) (seconds : ℚ) (p : Process H E) :
    Later p (exec (work respond seconds) p).2 := by
  rw [work, exec_ofExec]
  split
  · exact Later.of_eq rfl rfl (.inl rfl)
  · next alarm hp =>
    have hdeliver : ∀ q : Process H E, q.armed = p.armed → q.timer = none →
        q.delivered = p.delivered ++ [alarm] → Later p q := by
      intro q harmed htimer hdelivered
      refine ⟨harmed.ge, fun a ha => ?_, [alarm], hdelivered, fun a ha => ?_⟩
      · rw [htimer] at ha
        cases ha
      · rw [List.mem_singleton.1 ha]
        exact .inl hp
    split
    · split
      · exact hdeliver _ rfl rfl rfl
      · exact hdeliver _ rfl rfl rfl
    · exact Later.of_eq rfl rfl (.inl rfl)

/-- **An alarm that was replaced is not delivered any more.** -/
theorem Later.not_delivered {p q r : Process H E} (h : Later q r) {alarm : Alarm}
    (hp : p.timer = some alarm) (harmed : p.armed ≤ q.armed)
    (hdelivered : q.delivered = p.delivered)
    (hq : ∀ a, q.timer = some a → p.armed ≤ a.number) :
    ∀ later, r.delivered = p.delivered ++ later → alarm ∉ later := by
  intro later hlater hmem
  obtain ⟨later', hlater', hall⟩ := h.delivered
  have heq : later' = later := by
    rw [hdelivered] at hlater'
    exact List.append_cancel_left (hlater'.symm.trans hlater)
  have hlt := p.number_lt alarm hp
  rcases hall alarm (heq ▸ hmem) with hpending | hset
  · exact absurd (hq alarm hpending) (not_le.2 hlt)
  · exact absurd (harmed.trans hset) (not_le.2 hlt)

end IntervalTimer
