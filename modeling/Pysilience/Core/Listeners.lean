/-
The listeners of a pattern, and what they can do to it.

Every pattern hands its events to `notify_listeners`, which calls the listeners one after the other
and suppresses the exceptions they raise.  A method of a pattern is a program on a *stage*: the
fields of the pattern, the record of what happened, and the world in which the listeners live.  A
listener may do what it likes with that world; it does not call the pattern back.

A run with listeners and the same run without any differ in nothing but that world.  This is shown
once, for the statements that methods consist of: `Listeners.Unnoticed` couples the two runs, and
the rules of `Programs.Coupled` carry it through whatever is built from them.

Main definitions:

* `Listeners.Listener` — a callback that raises nothing but `Exception`s;
* `Listeners.Stage` — what a method runs on;
* `Listeners.notifyListeners`, `Listeners.emitEvent` — how an event gets to the listeners;
* `Listeners.invoke`, `Listeners.record`, `Listeners.update` — the other statements;
* `Listeners.Unnoticed` — the relation of the two runs.

Main results:

* `Listeners.exec_emitEvent` — **emitting an event raises nothing**, and all it does;
* `Listeners.coupled_emitEvent`, `Listeners.coupled_invoke`, … — the statements are coupled.
-/

import Pysilience.Lib.Programs
import Pysilience.Lib.Python
import Mathlib.Data.List.Nodup

set_option relaxedAutoImplicit false
set_option autoImplicit false

namespace Listeners

open Python Programs

variable {σ A E ω Exc Exc' Cls V : Type} [Exceptions Exc Cls]

/-! ### Stages -/

/-- A listener of events of the type `E` in a world `ω`: it is called with an event and returns or
raises, and what it raises is an `Exception`. -/
structure Listener (E ω Exc : Type) {Cls : Type} [Exceptions Exc Cls] where
  call : E → ω → Except Exc Unit × ω
  caught_of_raises : ∀ event world exc, (call event world).1 = .error exc → caught exc = true

/-- A listener that keeps a journal of the events and then raises an exception. -/
def Listener.journal (E : Type) : Listener E (List E) Builtin where
  call event world := (.error .valueError, world ++ [event])
  caught_of_raises := by
    intro event world exc h
    obtain rfl := Except.error.inj h
    rfl

/-- Something that happened: the protected function was called, the pattern did something of its
own, or it emitted an event. -/
inductive Entry (A E : Type)
  | invoked
  | did (action : A)
  | emitted (event : E)
  deriving DecidableEq

namespace Entry

def isInvoked : Entry A E → Bool
  | invoked => true
  | _ => false

def action? : Entry A E → Option A
  | did action => some action
  | _ => none

def event? : Entry A E → Option E
  | emitted event => some event
  | _ => none

end Entry

/-- The fields of the pattern, what happened so far, which listener was called with which event, and
the world of the listeners. -/
structure Stage (σ A E ω : Type) where
  inner : σ
  trace : List (Entry A E)
  deliveries : List (ℕ × E)
  outside : ω

namespace Stage

/-- A stage on which nothing happened yet. -/
def start (inner : σ) (outside : ω) : Stage σ A E ω := ⟨inner, [], [], outside⟩

/-- How often the protected function was called. -/
def calls (s : Stage σ A E ω) : ℕ := s.trace.countP Entry.isInvoked

/-- What the pattern did, in order. -/
def actions (s : Stage σ A E ω) : List A := s.trace.filterMap Entry.action?

/-- The events the pattern emitted, in order. -/
def emitted (s : Stage σ A E ω) : List E := s.trace.filterMap Entry.event?

/-- The events that the listener number `i` was called with, in order. -/
def received (s : Stage σ A E ω) (i : ℕ) : List E :=
  (s.deliveries.filter (·.1 = i)).map Prod.snd

/-- Something happens. -/
def note (s : Stage σ A E ω) (entry : Entry A E) : Stage σ A E ω :=
  { s with trace := s.trace ++ [entry] }

@[simp] theorem note_inner (s : Stage σ A E ω) (entry : Entry A E) :
    (s.note entry).inner = s.inner := rfl

@[simp] theorem note_trace (s : Stage σ A E ω) (entry : Entry A E) :
    (s.note entry).trace = s.trace ++ [entry] := rfl

@[simp] theorem note_invoked_calls (s : Stage σ A E ω) : (s.note .invoked).calls = s.calls + 1 :=
  List.countP_append

@[simp] theorem emitted_note_did (s : Stage σ A E ω) (action : A) :
    (s.note (.did action)).emitted = s.emitted := by
  simp [emitted, Entry.event?]

@[simp] theorem note_did_calls (s : Stage σ A E ω) (action : A) :
    (s.note (.did action)).calls = s.calls :=
  List.countP_append

end Stage

/-! ### Statements -/

/-- `listener(event)`. -/
def deliver (listener : Listener E ω Exc) (i : ℕ) (event : E) :
    Program (Stage σ A E ω) Exc Unit :=
  ofExec fun s =>
    let (result, outside) := listener.call event s.outside
    (result, { s with deliveries := s.deliveries ++ [(i, event)], outside := outside })

/-- The loop of `notify_listeners` over the listeners from number `i` on; its body is
`with contextlib.suppress(Exception): listener(event)`. -/
def notifyFrom (event : E) : ℕ → List (Listener E ω Exc) → Program (Stage σ A E ω) Exc Unit
  | _, [] => pure ()
  | i, listener :: rest => do
      tryExcept (deliver listener i event) caught (fun _ => pure ()) pure
      notifyFrom event (i + 1) rest

/-- `notify_listeners`. -/
def notifyListeners (listeners : List (Listener E ω Exc)) (event : E) :
    Program (Stage σ A E ω) Exc Unit :=
  notifyFrom event 0 listeners

/-- `_emit_event` of every pattern, in a method that raises exceptions of the type `Exc'`. -/
def emitEvent [Raises Exc Exc'] (listeners : List (Listener E ω Exc)) (event : E) :
    Program (Stage σ A E ω) Exc' Unit :=
  raising do
    modify fun s => s.note (.emitted event)
    notifyListeners listeners event

/-- `func()`, where `func` does on its `k`-th call what `outcomes k` says. -/
def invoke (outcomes : ℕ → Except Exc V) : Program (Stage σ A E ω) Exc V :=
  ofExec fun s => (outcomes (s.calls + 1), s.note .invoked)

/-- The pattern does something of its own. -/
def record (action : A) : Program (Stage σ A E ω) Exc Unit :=
  modify fun s => s.note (.did action)

/-- The pattern reads and changes its fields. -/
def update {β : Type} (f : σ → β × σ) : Program (Stage σ A E ω) Exc β :=
  ofExec fun s => (.ok (f s.inner).1, { s with inner := (f s.inner).2 })

theorem exec_invoke (outcomes : ℕ → Except Exc V) (s : Stage σ A E ω) :
    exec (invoke outcomes) s = (outcomes (s.calls + 1), s.note .invoked) := rfl

theorem exec_record (action : A) (s : Stage σ A E ω) :
    exec (record action : Program (Stage σ A E ω) Exc Unit) s =
      (.ok (), s.note (.did action)) := rfl

theorem exec_update {β : Type} (f : σ → β × σ) (s : Stage σ A E ω) :
    exec (update f : Program (Stage σ A E ω) Exc β) s =
      (.ok (f s.inner).1, { s with inner := (f s.inner).2 }) := rfl

/-! ### Emitting an event -/

namespace Stage

/-- The stage after the listeners from number `i` on were called. -/
def delivered (s : Stage σ A E ω) (event : E) (i : ℕ) (listeners : List (Listener E ω Exc)) :
    Stage σ A E ω :=
  { s with
    deliveries := s.deliveries ++ (List.range' i listeners.length).map (·, event)
    outside := listeners.foldl (fun world listener => (listener.call event world).2) s.outside }

/-- The stage after an event was emitted. -/
def notified (s : Stage σ A E ω) (listeners : List (Listener E ω Exc)) (event : E) :
    Stage σ A E ω :=
  (s.note (.emitted event)).delivered event 0 listeners

@[simp] theorem notified_inner (s : Stage σ A E ω) (listeners : List (Listener E ω Exc))
    (event : E) : (s.notified listeners event).inner = s.inner := rfl

@[simp] theorem notified_calls (s : Stage σ A E ω) (listeners : List (Listener E ω Exc))
    (event : E) : (s.notified listeners event).calls = s.calls :=
  List.countP_append

@[simp] theorem emitted_notified (s : Stage σ A E ω) (listeners : List (Listener E ω Exc))
    (event : E) : (s.notified listeners event).emitted = s.emitted ++ [event] :=
  List.filterMap_append

@[simp] theorem notified_trace (s : Stage σ A E ω) (listeners : List (Listener E ω Exc))
    (event : E) : (s.notified listeners event).trace = s.trace ++ [.emitted event] := rfl

end Stage

/-- A listener that raises an exception does not stop the loop. -/
theorem exec_notifyFrom (event : E) (listeners : List (Listener E ω Exc)) :
    ∀ (i : ℕ) (s : Stage σ A E ω),
      exec (notifyFrom event i listeners) s = (.ok (), s.delivered event i listeners) := by
  induction listeners with
  | nil =>
      intro i s
      simp [notifyFrom, Stage.delivered]
  | cons listener rest ih =>
      intro i s
      -- the state after the first listener, whether it returned or raised
      have hfirst : exec (tryExcept (deliver listener i event) caught (fun _ => pure ()) pure :
          Program (Stage σ A E ω) Exc Unit) s = (.ok (), s.delivered event i [listener]) := by
        rcases hcall : listener.call event s.outside with ⟨result, outside⟩
        have hexec : exec (deliver listener i event : Program (Stage σ A E ω) Exc Unit) s =
            (result, s.delivered event i [listener]) := by
          simp [deliver, Stage.delivered, hcall]
        cases result with
        | ok => exact exec_tryExcept_ok hexec _ _ _
        | error exc =>
            have hcaught := listener.caught_of_raises event s.outside exc (by rw [hcall])
            exact exec_tryExcept_caught hexec hcaught _ _
      rw [notifyFrom, exec_bind_ok hfirst, ih]
      simp [Stage.delivered, List.range'_succ]

/-- **Emitting an event raises nothing**: the event is in the record, and every listener was called
with it. -/
theorem exec_emitEvent [Raises Exc Exc'] (listeners : List (Listener E ω Exc)) (event : E)
    (s : Stage σ A E ω) :
    exec (emitEvent listeners event : Program (Stage σ A E ω) Exc' Unit) s =
      (.ok (), s.notified listeners event) := by
  refine exec_raising_ok ?_
  have hnote : exec
      (modify fun s => s.note (.emitted event) : Program (Stage σ A E ω) Exc PUnit) s =
        (.ok ⟨⟩, s.note (.emitted event)) := rfl
  rw [exec_bind_ok hnote, notifyListeners, exec_notifyFrom]
  rfl

/-! ### Runs with listeners and without -/

/-- The first stage is that of a run with listeners, the second one that of the run without: they
have the same fields and the same record, and every listener has received what is in the record. -/
structure Unnoticed (listeners : List (Listener E ω Exc)) (s t : Stage σ A E ω) : Prop where
  inner : s.inner = t.inner
  trace : s.trace = t.trace
  received : ∀ i < listeners.length, s.received i = s.emitted

variable (listeners : List (Listener E ω Exc))

theorem Unnoticed.start (inner : σ) (outside outside' : ω) :
    Unnoticed listeners (Stage.start inner outside : Stage σ A E ω)
      (Stage.start inner outside') :=
  ⟨rfl, rfl, fun _ _ => rfl⟩

/-- What happens in both runs, other than the emission of an event. -/
theorem Unnoticed.note {listeners : List (Listener E ω Exc)} {s t : Stage σ A E ω}
    (h : Unnoticed listeners s t) {entry : Entry A E} (he : entry.event? = none) :
    Unnoticed listeners (s.note entry) (t.note entry) where
  inner := h.inner
  trace := congrArg (· ++ [entry]) h.trace
  received := by
    intro i hi
    change s.received i = (s.trace ++ [entry]).filterMap Entry.event?
    rw [List.filterMap_append, List.filterMap_cons_none he, List.filterMap_nil, List.append_nil]
    exact h.received i hi

/-- Every listener has received the event once more. -/
theorem received_notified (s : Stage σ A E ω) (event : E) {i : ℕ} (hi : i < listeners.length) :
    (s.notified listeners event).received i = s.received i ++ [event] := by
  have hcount : (List.range' 0 listeners.length).count i = 1 :=
    List.count_eq_one_of_mem List.nodup_range' (List.mem_range'_1.2 ⟨Nat.zero_le i, by omega⟩)
  have hone : (((List.range' 0 listeners.length).map (·, event)).filter (·.1 = i)).map Prod.snd =
      [event] := by
    rw [List.filter_map]
    change (((List.range' 0 listeners.length).filter (· = i)).map (·, event)).map Prod.snd = _
    rw [List.filter_eq, hcount]
    rfl
  change ((s.deliveries ++ _).filter (·.1 = i)).map Prod.snd = _
  rw [List.filter_append, List.map_append]
  exact congrArg (_ ++ ·) hone

/-- **Emitting an event is not noticed.** -/
theorem coupled_emitEvent [Raises Exc Exc'] (event : E) :
    Coupled (Unnoticed listeners)
      (emitEvent listeners event : Program (Stage σ A E ω) Exc' Unit)
      (emitEvent ([] : List (Listener E ω Exc)) event) := by
  intro s t h
  rw [exec_emitEvent, exec_emitEvent]
  have htrace : s.trace ++ [.emitted event] = t.trace ++ [.emitted event] := by rw [h.trace]
  refine ⟨rfl, h.inner, htrace, ?_⟩
  intro i hi
  rw [received_notified listeners s event hi, h.received i hi, Stage.emitted_notified]

theorem coupled_invoke (outcomes : ℕ → Except Exc V) :
    Coupled (Unnoticed listeners) (invoke outcomes : Program (Stage σ A E ω) Exc V)
      (invoke outcomes) := by
  intro s t h
  have hcalls : s.calls = t.calls := congrArg (List.countP Entry.isInvoked) h.trace
  exact ⟨congrArg (fun n => outcomes (n + 1)) hcalls, h.note rfl⟩

theorem coupled_record (action : A) :
    Coupled (Unnoticed listeners) (record action : Program (Stage σ A E ω) Exc' Unit)
      (record action) :=
  fun _ _ h => ⟨rfl, h.note rfl⟩

theorem coupled_update {β : Type} (f : σ → β × σ) :
    Coupled (Unnoticed listeners) (update f : Program (Stage σ A E ω) Exc' β) (update f) := by
  intro s t h
  have hinner : f s.inner = f t.inner := congrArg f h.inner
  refine ⟨?_, congrArg Prod.snd hinner, h.trace, h.received⟩
  change Except.ok (f s.inner).1 = Except.ok (f t.inner).1
  rw [hinner]

end Listeners
