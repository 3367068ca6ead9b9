/-
The calls of `execute_async` on one event loop.

The tasks of an event loop run one at a time: a call that has control keeps it until it suspends,
and only then another one is resumed.  Which one is resumed, and for what reason, is arbitrary, so
that a run of the machine `calls` is any interleaving of the calls, with waits that time out,
cancellations and factories that finish at any point at which the call is suspended.  The clock may
show anything.

Next to the bulkhead and the phases of the calls the machine keeps a record that the code does not
read: the reading of the clock at which a call began, how often its statements took one from
`_async_n` and how often they gave one back, and the events emitted.

Main definitions:

* `Bulkheads.Call`, `Bulkheads.System` — a call, and the state of the machine;
* `Bulkheads.Action`, `Bulkheads.System.step`, `Bulkheads.calls` — the machine;
* `Bulkheads.System.holders` — the number of permits that are held.

Main results:

* `Bulkheads.System.step_cases` — every step creates a call or moves one call.
-/

import Pysilience.Bulkhead.Bulkhead
import Pysilience.Lib.Transition

set_option relaxedAutoImplicit false
set_option autoImplicit false

namespace Bulkheads

open Python Transition

universe u v

variable {V : Type v} {Exc : Type u} {Cls : Type v} [Exceptions Exc Cls]

/-- A call of `execute_async`: its phase, the reading of the clock when it began, and the numbers of
permits it has taken and given back. -/
structure Call (V : Type v) (Exc : Type u) where
  phase : Phase V Exc
  beganAt : Option ℚ
  taken : ℕ
  given : ℕ
  deriving DecidableEq

/-- A call that was just created. -/
def Call.new : Call V Exc := ⟨.created, none, 0, 0⟩

/-- The call after one of its statements, which led to `phase` and changed `_async_n` from `n`
to `n'`. -/
def Call.moved (c : Call V Exc) (beganAt : Option ℚ) (n n' : ℤ) (phase : Phase V Exc) :
    Call V Exc where
  phase := phase
  beganAt := beganAt
  taken := if n' < n then c.taken + 1 else c.taken
  given := if n < n' then c.given + 1 else c.given

/-- The state of the machine: the bulkhead, the calls created so far in order of creation, which of
them has control, and the events emitted. -/
structure System (cfg : BulkheadConfig) (V : Type v) (Exc : Type u) where
  bulkhead : Bulkhead cfg
  calls : List (Call V Exc)
  control : Option ℕ
  events : List (BulkheadEvent Exc)

/-- The steps: a call is created, the call that has control executes a statement, or a suspended
call is resumed. -/
inductive Action (V : Type v) (Exc : Type u)
  | call
  | run (now : ℚ)
  | resume (i : ℕ) (wakeup : Wakeup V Exc)

namespace System

variable {cfg : BulkheadConfig}

/-- A bulkhead that was just constructed. -/
def init (cfg : BulkheadConfig) (name : Option String) : System cfg V Exc :=
  ⟨Bulkhead.init cfg name, [], none, []⟩

/-- The state after a statement of the call `c` of number `i`. -/
def move (s : System cfg V Exc) (i : ℕ) (c : Call V Exc) (beganAt : Option ℚ)
    (r : Bulkhead cfg × Phase V Exc × List (BulkheadEvent Exc)) : System cfg V Exc where
  bulkhead := r.1
  calls := s.calls.set i (c.moved beganAt s.bulkhead.asyncN r.1.asyncN r.2.1)
  control := if r.2.1.executing then some i else none
  events := s.events ++ r.2.2

/-- One step. -/
def step (s : System cfg V Exc) : Action V Exc → Option (System cfg V Exc)
  | .call => some { s with calls := s.calls ++ [.new] }
  | .run now =>
      s.control.bind fun i => s.calls[i]?.bind fun c =>
        (s.bulkhead.run i now c.phase).map (s.move i c (c.beganAt <|> some now))
  | .resume i wakeup =>
      if s.control = none then
        s.calls[i]?.bind fun c => (s.bulkhead.resume i c.phase wakeup).map (s.move i c c.beganAt)
      else none

/-- The number of calls between a successful `_async_acquire` and the completion of their
`_async_release`. -/
def holders (s : System cfg V Exc) : ℕ := s.calls.countP fun c => c.phase.holding

/-- The number of calls whose factory is running. -/
def factories (s : System cfg V Exc) : ℕ := s.calls.countP fun c => c.phase.isRunning

end System

/-- The bulkhead with configuration `cfg` under any interleaving of its calls. -/
def calls (V : Type v) (Exc : Type u) {Cls : Type v} [Exceptions Exc Cls] (cfg : BulkheadConfig)
    (name : Option String) : Machine (System cfg V Exc) (Action V Exc) where
  init := System.init cfg name
  step := System.step

namespace System

variable {cfg : BulkheadConfig}

/-- The cases of a step. -/
inductive StepCase (s : System cfg V Exc) : Action V Exc → System cfg V Exc → Prop
  | created : StepCase s .call { s with calls := s.calls ++ [.new] }
  | ran {i : ℕ} {now : ℚ} {c : Call V Exc} {b : Bulkhead cfg} {phase : Phase V Exc}
      {events : List (BulkheadEvent Exc)} :
      s.control = some i → s.calls[i]? = some c →
      s.bulkhead.run i now c.phase = some (b, phase, events) →
      StepCase s (.run now) (s.move i c (c.beganAt <|> some now) (b, phase, events))
  | resumed {i : ℕ} {wakeup : Wakeup V Exc} {c : Call V Exc} {b : Bulkhead cfg}
      {phase : Phase V Exc} {events : List (BulkheadEvent Exc)} :
      s.control = none → s.calls[i]? = some c →
      s.bulkhead.resume i c.phase wakeup = some (b, phase, events) →
      StepCase s (.resume i wakeup) (s.move i c c.beganAt (b, phase, events))

/-- **Every step creates a call or moves one call.** -/
theorem step_cases {s s' : System cfg V Exc} {a : Action V Exc} (h : s.step a = some s') :
    s.StepCase a s' := by
  cases a with
  | call =>
      obtain rfl := Option.some_inj.1 h
      exact .created
  | run now =>
      obtain ⟨i, hi, h⟩ := Option.bind_eq_some_iff.1 h
      obtain ⟨c, hc, h⟩ := Option.bind_eq_some_iff.1 h
      obtain ⟨⟨b, phase, events⟩, hr, rfl⟩ := Option.map_eq_some_iff.1 h
      exact .ran hi hc hr
  | resume i wakeup =>
      rw [step] at h
      split at h
      · next hcontrol =>
        obtain ⟨c, hc, h⟩ := Option.bind_eq_some_iff.1 h
        obtain ⟨⟨b, phase, events⟩, hr, rfl⟩ := Option.map_eq_some_iff.1 h
        exact .resumed hcontrol hc hr
      · cases h

end System

end Bulkheads
