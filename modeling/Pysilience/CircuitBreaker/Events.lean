/-
The events of a circuit breaker.

A section that changes the state only returns what changed; the caller emits the event after it
has left the lock, and other callers run sections of their own before it does.  The machine
`reporting` splits every operation accordingly: one step for its section, which leaves the caller
with a list of events to emit, and one step for each of them.  A caller emits what its admission
left it with before it runs its function.

Main definitions:

* `CircuitBreaker.CircuitBreakerEvent`, `CircuitBreaker.Emission` — an event, and the call of
  `_emit_event` it comes from;
* `CircuitBreaker.Breaker.acquireEmissions`, `CircuitBreaker.Breaker.afterCallEmissions`,
  `CircuitBreaker.Breaker.resetEmissions` — what the operations emit;
* `CircuitBreaker.Reporting`, `CircuitBreaker.reporting` — the machine;
* `CircuitBreaker.Reporting.outbox` — the outbox it implements.

Main results:

* `CircuitBreaker.transitions_of_task` — every section reports exactly the change it makes;
* `CircuitBreaker.transition_events` — **the events a listener receives**;
* `CircuitBreaker.not_transition_events_in_order` — two callers overtake each other.
-/

import Pysilience.CircuitBreaker.Calls
import Pysilience.Lib.Outbox

set_option relaxedAutoImplicit false
set_option autoImplicit false

namespace CircuitBreaker

open Python Collections Transition

universe u v

variable {Exc : Type u} {Cls : Type v} [Exceptions Exc Cls]

/-! ### Events -/

/-- The types of events. -/
inductive CircuitBreakerEventType
  | success | error | ignoredError | rejected | stateTransition
  deriving DecidableEq, Repr

/-- An event as a listener receives it.  Its exception is the one that rejects a call or one the
function raised. -/
structure CircuitBreakerEvent (Exc : Type u) where
  eventType : CircuitBreakerEventType
  name : String
  state : CircuitBreakerState
  exception : Option (CircuitBreakerOpen ⊕ Exc) := none
  fromState : Option CircuitBreakerState := none
  toState : Option CircuitBreakerState := none

/-- The calls of `_emit_event`. -/
inductive Emission (Exc : Type u)
  | rejected (exc : CircuitBreakerOpen)
  | ignoredError (exc : Exc)
  | error (exc : Exc)
  | success
  | transition (fromState toState : CircuitBreakerState)

namespace Emission

variable {cfg : CircuitBreakerConfig Cls}

/-- The event that is emitted, given the breaker at that moment: all but the transitions carry the
state they find. -/
def event (cb : Breaker cfg) : Emission Exc → CircuitBreakerEvent Exc
  | .rejected exc =>
      { eventType := .rejected, name := cb.name, state := cb.state, exception := some (.inl exc) }
  | .ignoredError exc =>
      { eventType := .ignoredError, name := cb.name, state := cb.state,
        exception := some (.inr exc) }
  | .error exc =>
      { eventType := .error, name := cb.name, state := cb.state, exception := some (.inr exc) }
  | .success => { eventType := .success, name := cb.name, state := cb.state }
  | .transition fromState toState =>
      { eventType := .stateTransition, name := cb.name, state := toState,
        fromState := some fromState, toState := some toState }

/-- The transition that is reported, if one is. -/
def transition? : Emission Exc → Option Transition
  | .transition fromState toState => some (fromState, toState)
  | _ => none

end Emission

namespace CircuitBreakerEvent

/-- The transition a `STATE_TRANSITION` event reports. -/
def transition? (e : CircuitBreakerEvent Exc) : Option Transition :=
  match e.eventType, e.fromState, e.toState with
  | .stateTransition, some fromState, some toState => some (fromState, toState)
  | _, _, _ => none

/-- A well-formed event of the breaker `name`: a `STATE_TRANSITION` event reports a transition and
carries the state it leads to. -/
def WellFormed (name : String) (e : CircuitBreakerEvent Exc) : Prop :=
  e.name = name ∧ (e.eventType = .stateTransition → ∃ tr, e.transition? = some tr ∧ e.state = tr.2)

end CircuitBreakerEvent

omit [Exceptions Exc Cls] in
@[simp] theorem Emission.event_transition? {cfg : CircuitBreakerConfig Cls} (cb : Breaker cfg)
    (m : Emission Exc) : (m.event cb).transition? = m.transition? := by
  cases m <;> rfl

omit [Exceptions Exc Cls] in
theorem Emission.event_wellFormed {cfg : CircuitBreakerConfig Cls} (cb : Breaker cfg)
    (m : Emission Exc) : (m.event cb).WellFormed cb.name := by
  cases m with
  | transition fromState toState => exact ⟨rfl, fun _ => ⟨(fromState, toState), rfl, rfl⟩⟩
  | _ => exact ⟨rfl, fun h => by cases h⟩

/-! ### What the operations emit -/

namespace Breaker

variable {cfg : CircuitBreakerConfig Cls}

/-- `for from_s, to_s in transitions: self._emit_transition(from_s, to_s)`. -/
def emitTransitions (transitions : List Transition) : List (Emission Exc) :=
  transitions.map fun tr => .transition tr.1 tr.2

/-- What an admission emits, and what a rejection emits before it raises. -/
def acquireEmissions (cb : Breaker cfg) (now : ℚ) : List (Emission Exc) :=
  match (cb.acquirePermission now).1 with
  | .ok (_, transitions) => emitTransitions transitions
  | .error error => [.rejected error]

/-- What `_on_complete` emits. -/
def onCompleteEmissions (cb : Breaker cfg) (calledIn : CircuitBreakerState) (exc : Option Exc)
    (now : ℚ) : List (Emission Exc) :=
  match exc with
  | some exc =>
      if ignored cfg exc then [.ignoredError exc]
      else
        (if isinstanceAny exc cfg.recordExceptions then .error exc else .success) ::
          emitTransitions (cb.onComplete calledIn (some exc) now).1
  | none => .success :: emitTransitions (cb.onComplete calledIn (none : Option Exc) now).1

/-- What `execute` and `execute_async` emit once the call has ended. -/
def afterCallEmissions (cb : Breaker cfg) (calledIn : CircuitBreakerState)
    (outcome : Except Exc Unit) (now : ℚ) : List (Emission Exc) :=
  match outcome with
  | .ok () => cb.onCompleteEmissions calledIn none now
  | .error exc => if caught exc then cb.onCompleteEmissions calledIn (some exc) now else []

/-- What `reset` emits, given the state it found. -/
def resetEmissions (cb : Breaker cfg) : List (Emission Exc) :=
  if cb.state ≠ .closed then [.transition cb.state .closed] else []

end Breaker

/-! ### The machine -/

/-- The events a caller has left to emit, and the call it has been admitted for and not yet run. -/
structure Task (Exc : Type u) where
  call : Option ℕ
  emissions : List (Emission Exc)

/-- The state of the machine: the system, what the callers have left to emit, and what a listener
has received; next to them, which no step reads, the changes of the state so far. -/
structure Reporting (Exc : Type u) (cfg : CircuitBreakerConfig Cls) where
  sys : System cfg
  tasks : List (Task Exc)
  received : List (CircuitBreakerEvent Exc)
  changes : List Transition

/-- A caller runs a critical section, or the caller of the `i`-th task emits its next event. -/
inductive ReportingAction (Exc : Type u)
  | critical (a : Action Exc)
  | emit (i : ℕ)

/-- The change between two states. -/
def changeOf (st st' : CircuitBreakerState) : List Transition :=
  if st' = st then [] else [(st, st')]

variable {cfg : CircuitBreakerConfig Cls}

/-- What a section leaves its caller to emit. -/
def System.task (s : System cfg) : Action Exc → Task Exc
  | .acquire now =>
      { call := match (s.cb.acquirePermission now).1 with
          | .ok _ => some s.nextId
          | .error _ => none
        emissions := s.cb.acquireEmissions now }
  | .complete c outcome now => ⟨none, s.cb.afterCallEmissions c.calledIn outcome now⟩
  | .reset => ⟨none, s.cb.resetEmissions⟩

namespace Reporting

/-- No call has been made yet. -/
def init (Exc : Type u) (cfg : CircuitBreakerConfig Cls) : Reporting Exc cfg :=
  ⟨System.init cfg, [], [], []⟩

/-- A call does not end before what its admission left to emit has been emitted. -/
def ready (s : Reporting Exc cfg) : Action Exc → Bool
  | .complete c _ _ => s.tasks.all fun t => t.call != some c.id || t.emissions.isEmpty
  | _ => true

/-- One step of one caller. -/
def step (s : Reporting Exc cfg) : ReportingAction Exc → Option (Reporting Exc cfg)
  | .critical a =>
      if s.ready a then
        (s.sys.step a).map fun sys =>
          { sys := sys
            tasks := s.tasks ++ [s.sys.task a]
            received := s.received
            changes := s.changes ++ changeOf s.sys.cb.state sys.cb.state }
      else none
  | .emit i =>
      match s.tasks[i]? with
      | some ⟨call, m :: ms⟩ =>
          some { s with
            tasks := s.tasks.set i ⟨call, ms⟩
            received := s.received ++ [m.event s.sys.cb] }
      | _ => none

end Reporting

/-- The circuit breaker with configuration `cfg` and a listener, under any interleaving. -/
def reporting (Exc : Type u) {Cls : Type v} [Exceptions Exc Cls] (cfg : CircuitBreakerConfig Cls) :
    Machine (Reporting Exc cfg) (ReportingAction Exc) where
  init := Reporting.init Exc cfg
  step := Reporting.step

/-! ### Every section reports the change it makes -/

namespace Breaker

omit [Exceptions Exc Cls] in
@[simp] theorem transitions_emitTransitions (transitions : List Transition) :
    (emitTransitions transitions : List (Emission Exc)).filterMap Emission.transition? =
      transitions := by
  induction transitions with
  | nil => rfl
  | cons tr transitions ih =>
      simp only [emitTransitions, List.map_cons, List.filterMap_cons] at ih ⊢
      rw [Emission.transition?, ih]

omit [Exceptions Exc Cls] in
/-- An attempt to acquire permission. -/
theorem transitions_acquire (cb : Breaker cfg) (now : ℚ) :
    (cb.acquireEmissions now : List (Emission Exc)).filterMap Emission.transition? =
      changeOf cb.state (cb.acquirePermission now).2.state := by
  have h := cb.acquire_cases now
  unfold acquireEmissions
  generalize cb.acquirePermission now = r at h
  obtain ⟨res, cb'⟩ := r
  dsimp only at h ⊢
  cases h with
  | closed hs => simp [changeOf]
  | wait hs => simp [changeOf, Emission.transition?]
  | firstProbe hs => simp [changeOf, hs]
  | probe hs => simp [changeOf]
  | exhausted hs => simp [changeOf, Emission.transition?]

/-- The recording of an outcome. -/
theorem recordOutcome_transitions (cb : Breaker cfg) (calledIn : CircuitBreakerState)
    (success : Bool) (now : ℚ) : (cb.recordOutcome calledIn success now).1 =
      changeOf cb.state (cb.recordOutcome calledIn success now).2.state := by
  unfold recordOutcome
  split
  · next h =>
    dsimp only
    split
    · split
      · simp [changeOf, h]
      · simp [changeOf]
    · simp [changeOf]
  · next h =>
    dsimp only
    split
    · split
      · simp [changeOf, h]
      · simp [changeOf, h]
    · simp [changeOf]
  · simp [changeOf]

theorem onComplete_transitions (cb : Breaker cfg) (calledIn : CircuitBreakerState)
    (exc : Option Exc) (now : ℚ) : (cb.onComplete calledIn exc now).1 =
      changeOf cb.state (cb.onComplete calledIn exc now).2.state := by
  cases exc with
  | none => exact cb.recordOutcome_transitions calledIn true now
  | some exc =>
      simp only [onComplete]
      split
      · simp [changeOf]
      · exact cb.recordOutcome_transitions calledIn _ now

/-- Of what `_on_complete` emits, the transitions are those that were recorded. -/
theorem transitions_onComplete (cb : Breaker cfg) (calledIn : CircuitBreakerState)
    (exc : Option Exc) (now : ℚ) :
    (cb.onCompleteEmissions calledIn exc now).filterMap Emission.transition? =
      (cb.onComplete calledIn exc now).1 := by
  cases exc with
  | none => simp [onCompleteEmissions, List.filterMap_cons, Emission.transition?]
  | some exc =>
      cases hi : ignored cfg exc with
      | true => simp [onCompleteEmissions, onComplete, hi, Emission.transition?]
      | false =>
          cases hr : isinstanceAny exc cfg.recordExceptions <;>
            simp [onCompleteEmissions, hi, hr, List.filterMap_cons, Emission.transition?]

/-- The end of a call. -/
theorem transitions_afterCall (cb : Breaker cfg) (calledIn : CircuitBreakerState)
    (outcome : Except Exc Unit) (now : ℚ) :
    (cb.afterCallEmissions calledIn outcome now).filterMap Emission.transition? =
      changeOf cb.state (cb.afterCall calledIn outcome now).2.state := by
  cases outcome with
  | ok _ =>
      rw [afterCallEmissions, transitions_onComplete, onComplete_transitions, afterCall]
  | error exc =>
      cases hc : caught exc with
      | true =>
          simp only [afterCallEmissions, afterCall, hc, if_true]
          rw [transitions_onComplete, onComplete_transitions]
      | false => simp [afterCallEmissions, afterCall, hc, changeOf]

omit [Exceptions Exc Cls] in
/-- A reset. -/
theorem transitions_reset (cb : Breaker cfg) :
    (cb.resetEmissions : List (Emission Exc)).filterMap Emission.transition? =
      changeOf cb.state cb.reset.state := by
  cases hs : cb.state <;> simp [resetEmissions, changeOf, reset, hs, Emission.transition?]

end Breaker

/-- **Every section reports exactly the change it makes.** -/
theorem transitions_of_task {s s' : System cfg} {a : Action Exc} (h : s.step a = some s') :
    (s.task a).emissions.filterMap Emission.transition? = changeOf s.cb.state s'.cb.state := by
  cases a with
  | acquire now =>
      have hcb : s'.cb = (s.cb.acquirePermission now).2 := by
        simp only [System.step] at h
        generalize s.cb.acquirePermission now = r at h ⊢
        obtain ⟨res | res, cb⟩ := r <;> (rw [Option.some_inj] at h; rw [← h])
      rw [System.task, Breaker.transitions_acquire, hcb]
  | complete c outcome now =>
      simp only [System.step] at h
      split at h
      · rw [Option.some_inj] at h
        rw [System.task, Breaker.transitions_afterCall, ← h]
      · cases h
  | reset =>
      simp only [System.step, Option.some_inj] at h
      rw [System.task, Breaker.transitions_reset, ← h]

/-- No section changes the name. -/
theorem System.step_name {s s' : System cfg} {a : Action Exc} (h : s.step a = some s') :
    s'.cb.name = s.cb.name := by
  cases step_cases h <;> rfl

/-! ### The outbox of the transitions -/

namespace Reporting

/-- What has not been reported yet. -/
def unreported (s : Reporting Exc cfg) : List Transition :=
  (s.tasks.map fun t => t.emissions.filterMap Emission.transition?).flatten

/-- What the listener was told. -/
def reported (s : Reporting Exc cfg) : List Transition :=
  s.received.filterMap CircuitBreakerEvent.transition?

/-- The outbox of the transitions. -/
def outbox (s : Reporting Exc cfg) : Outbox.State Transition where
  made := s.changes
  waiting := s.tasks.map fun t => t.emissions.filterMap Emission.transition?
  sent := s.reported

/-- What one step does to the outbox. -/
theorem step_cases {s s' : Reporting Exc cfg} {a : ReportingAction Exc} (h : s.step a = some s') :
    (∃ b, a = .critical b ∧ s.sys.step b = some s'.sys ∧ s'.received = s.received ∧
      s'.changes = s.changes ++ changeOf s.sys.cb.state s'.sys.cb.state ∧
      s'.outbox = ⟨s.outbox.made ++ changeOf s.sys.cb.state s'.sys.cb.state,
        s.outbox.waiting ++ [changeOf s.sys.cb.state s'.sys.cb.state], s.outbox.sent⟩) ∨
    (∃ (i : ℕ) (m : Emission Exc), a = .emit i ∧ s'.sys = s.sys ∧ s'.changes = s.changes ∧
      s'.received = s.received ++ [m.event s.sys.cb] ∧
      (s'.outbox = s.outbox ∨ ∃ tr trs, s.outbox.waiting[i]? = some (tr :: trs) ∧
        s'.outbox = ⟨s.outbox.made, s.outbox.waiting.set i trs, s.outbox.sent ++ [tr]⟩)) := by
  cases a with
  | critical b =>
      simp only [step] at h
      split at h
      · obtain ⟨sys, hsys, rfl⟩ := Option.map_eq_some_iff.1 h
        refine .inl ⟨b, rfl, hsys, rfl, rfl, ?_⟩
        simp [outbox, reported, transitions_of_task hsys]
      · cases h
  | emit i =>
      simp only [step] at h
      split at h
      · next call m ms hi =>
        rw [Option.some_inj] at h
        subst h
        refine .inr ⟨i, m, rfl, rfl, rfl, rfl, ?_⟩
        have hwait : s.outbox.waiting[i]? = some ((m :: ms).filterMap Emission.transition?) := by
          simp [outbox, hi]
        cases hm : m.transition? with
        | none =>
            -- the event is not a transition
            refine .inl ?_
            rw [List.filterMap_cons_none hm] at hwait
            simp only [outbox, reported, List.map_set, List.filterMap_append, List.filterMap_cons,
              List.filterMap_nil, Emission.event_transition?, hm, List.append_nil]
            obtain ⟨hlt, hget⟩ := List.getElem?_eq_some_iff.1 hwait
            rw [← hget]
            exact congrArg (Outbox.State.mk s.changes · _) (List.set_getElem_self hlt)
        | some tr =>
            refine .inr ⟨tr, _, by rw [hwait, List.filterMap_cons_some hm], ?_⟩
            simp [outbox, reported, List.map_set, hm]
      · cases h

/-- Every step is one of the outbox, or none. -/
theorem outbox_steps {s s' : Reporting Exc cfg} {a : ReportingAction Exc}
    (h : s.step a = some s') : Relation.ReflTransGen Outbox.Step s.outbox s'.outbox := by
  rcases step_cases h with ⟨b, -, -, -, -, ho⟩ | ⟨i, m, -, -, -, -, ho | ⟨tr, trs, hi, ho⟩⟩
  · rw [ho]
    exact .single (.make _ _)
  · rw [ho]
  · rw [ho]
    exact .single (.send _ i tr trs hi)

/-- Every continuation is one of the outbox. -/
theorem balanced_of_exec {s t : Reporting Exc cfg} {bs : List (ReportingAction Exc)}
    (h : (reporting Exc cfg).exec (fun _ _ => true) s bs = some t) :
    Outbox.Balanced s.outbox t.outbox := by
  refine Outbox.balanced_of_steps ?_
  exact Machine.exec_invariant (I := fun t => Relation.ReflTransGen Outbox.Step s.outbox t.outbox)
    (fun _ _ _ _ hi hs => hi.trans (outbox_steps hs)) bs .refl h

/-! ### The changes and the events -/

/-- The changes lead from one state to another, each from where the one before it led to. -/
def Leads (st st' : CircuitBreakerState) : List Transition → Prop
  | [] => st = st'
  | tr :: trs => tr.1 = st ∧ Leads tr.2 st' trs

theorem Leads.append {st₁ st₂ st₃ : CircuitBreakerState} {trs trs' : List Transition}
    (h : Leads st₁ st₂ trs) (h' : Leads st₂ st₃ trs') : Leads st₁ st₃ (trs ++ trs') := by
  induction trs generalizing st₁ with
  | nil =>
      rw [Leads] at h
      subst h
      exact h'
  | cons tr trs ih => exact ⟨h.1, ih h.2⟩

theorem leads_changeOf (st st' : CircuitBreakerState) : Leads st st' (changeOf st st') := by
  by_cases h : st' = st
  · rw [changeOf, if_pos h]
    exact h.symm
  · rw [changeOf, if_neg h]
    exact ⟨rfl, rfl⟩

/-- What holds after every run: the changes lead to the present state, what was reported and what
was not are the changes, and the events received are well-formed. -/
structure Faithful (s : Reporting Exc cfg) : Prop where
  leads : Leads .closed s.sys.cb.state s.changes
  reported : (s.reported ++ s.unreported).Perm s.changes
  wellFormed : ∀ e ∈ s.received, e.WellFormed s.sys.cb.name

omit [Exceptions Exc Cls] in
theorem faithful_init : Faithful (init Exc cfg) := ⟨rfl, List.Perm.refl _, by simp [init]⟩

theorem faithful_step {s s' : Reporting Exc cfg} {a : ReportingAction Exc} (h : Faithful s)
    (hstep : s.step a = some s') : Faithful s' := by
  obtain ⟨hl, hr, hw⟩ := h
  have hrep : (s'.reported ++ s'.unreported).Perm s'.changes := by
    obtain ⟨later, news, hs, hm, hp⟩ := Outbox.balanced_of_steps (outbox_steps hstep)
    have hs : s'.reported = s.reported ++ later := hs
    have hm : s'.changes = s.changes ++ news := hm
    calc (s'.reported ++ s'.unreported).Perm (s.reported ++ (s.unreported ++ news)) := by
          rw [hs, List.append_assoc]
          exact hp.append_left s.reported
      _ = s.reported ++ s.unreported ++ news := (List.append_assoc _ _ _).symm
      List.Perm _ (s.changes ++ news) := hr.append_right news
      _ = s'.changes := hm.symm
  rcases step_cases hstep with ⟨b, -, hsys, hrec, hch, -⟩ | ⟨i, m, -, hsys, hch, hrec, -⟩
  · refine ⟨?_, hrep, ?_⟩
    · rw [hch]
      exact hl.append (leads_changeOf _ _)
    · rw [hrec, System.step_name hsys]
      exact hw
  · refine ⟨?_, hrep, ?_⟩
    · rw [hch, hsys]
      exact hl
    · rw [hrec, hsys]
      exact List.forall_mem_append.2 ⟨hw, List.forall_mem_singleton.2 (m.event_wellFormed _)⟩

theorem faithful_of_reachable {s : Reporting Exc cfg} (h : (reporting Exc cfg).Reachable s) :
    Faithful s :=
  h.invariant faithful_init fun _ _ _ => faithful_step

/-! ### Prompt callers -/

/-- The side condition on a step: if it changes the state, every earlier change has been
reported. -/
def Prompt (s : Reporting Exc cfg) : ReportingAction Exc → Prop
  | .critical a =>
      ∀ sys, s.sys.step a = some sys → sys.cb.state ≠ s.sys.cb.state → s.unreported = []
  | .emit _ => True

instance (s : Reporting Exc cfg) (a : ReportingAction Exc) : Decidable (s.Prompt a) :=
  match a with
  | .critical a =>
      decidable_of_iff ((s.sys.step a).all fun sys =>
        decide (sys.cb.state ≠ s.sys.cb.state → s.unreported = []))
        (by simp only [Prompt, Option.all_eq_true, decide_eq_true_eq])
  | .emit _ => isTrue trivial

theorem inOrder_step {s s' : Reporting Exc cfg} {a : ReportingAction Exc} (ha : s.Prompt a)
    (h : Outbox.InOrder s.outbox) (hstep : s.step a = some s') : Outbox.InOrder s'.outbox := by
  rcases step_cases hstep with ⟨b, rfl, hsys, -, -, ho⟩ | ⟨i, m, -, -, -, -, ho | ⟨tr, trs, hi, ho⟩⟩
  · rw [ho]
    by_cases hst : s'.sys.cb.state = s.sys.cb.state
    · rw [changeOf, if_pos hst]
      exact h.step (.idle _)
    · rw [changeOf, if_neg hst]
      exact h.step (.make _ _ (ha _ hsys hst))
  · rw [ho]
    exact h
  · rw [ho]
    exact h.step (.send _ i tr trs hi)

theorem inOrder_of_run {as : List (ReportingAction Exc)} {s : Reporting Exc cfg}
    (h : (reporting Exc cfg).Run Prompt as s) : Outbox.InOrder s.outbox :=
  h.invariant Outbox.InOrder.empty fun _ _ _ _ _ hi ha hs => inOrder_step ha hi hs

end Reporting

/-! ### What a listener receives -/

/-- **The events a listener receives.**  In every interleaving of sections and emissions, the
changes of the state lead from `CLOSED` to the present state, each from where the one before it
led to; the transitions received and those left to be emitted are exactly these changes, each of
them once, and every `STATE_TRANSITION` event names its transition and carries the state it leads
to; what was received by some moment stays in front of what is received later, which reports what
was unreported then or changed since.  In the runs in which no change is made while an earlier one
is unreported, the changes are received in the order in which they were made. -/
theorem transition_events (cfg : CircuitBreakerConfig Cls) :
    (∀ s : Reporting Exc cfg, (reporting Exc cfg).Reachable s →
      Reporting.Leads .closed s.sys.cb.state s.changes ∧
      (s.reported ++ s.unreported).Perm s.changes ∧
      (∀ e ∈ s.received, e.WellFormed s.sys.cb.name) ∧
      ∀ bs t, (reporting Exc cfg).exec (fun _ _ => true) s bs = some t →
        ∃ later news, t.reported = s.reported ++ later ∧ t.changes = s.changes ++ news ∧
          (later ++ t.unreported).Perm (s.unreported ++ news)) ∧
    ∀ (as : List (ReportingAction Exc)) (s : Reporting Exc cfg),
      (reporting Exc cfg).Run Reporting.Prompt as s → s.reported ++ s.unreported = s.changes := by
  constructor
  · intro s hs
    obtain ⟨hl, hr, hw⟩ := Reporting.faithful_of_reachable hs
    exact ⟨hl, hr, hw, fun bs t h => Reporting.balanced_of_exec h⟩
  · intro as s hs
    exact (Reporting.inOrder_of_run hs).made

/-- A breaker whose callers are prompt opens, lets a probe through and closes. -/
theorem transition_events_of_prompt_callers : ∃ s : Reporting Builtin tinyConfig,
    s.reported = [(.closed, .opened), (.opened, .halfOpen), (.halfOpen, .closed)] ∧
      s.changes = s.reported := by
  obtain ⟨s, hr, hs⟩ := Machine.exists_run_of_exec (reporting Builtin tinyConfig)
    (fun s a => decide (s.Prompt a)) (fun _ _ => of_decide_eq_true)
    [.critical (.acquire 0), .critical (.complete ⟨0, .closed, 0⟩ (.error .runtimeError) 0),
      .emit 1, .emit 1, .critical (.acquire 1), .emit 2,
      .critical (.complete ⟨1, .halfOpen, 2⟩ (.ok ()) 1), .emit 3, .emit 3]
    (fun s => decide (s.unreported = [] ∧
      s.reported = [(.closed, .opened), (.opened, .halfOpen), (.halfOpen, .closed)]))
    (by decide +kernel)
  obtain ⟨hnone, hrep⟩ := of_decide_eq_true hs
  have hmade := (transition_events tinyConfig).2 _ s hr
  rw [hnone, List.append_nil] at hmade
  exact ⟨s, hrep, hmade.symm⟩

/-- A caller opens the circuit and is about to report it when another one is admitted as a probe
and reports that: the events arrive in the other order, and do not follow one another. -/
theorem not_transition_events_in_order : ∃ s : Reporting Builtin tinyConfig,
    (reporting Builtin tinyConfig).Reachable s ∧ s.unreported = [] ∧ s.reported ≠ s.changes ∧
      ¬ s.reported.IsChain fun tr tr' => tr.2 = tr'.1 := by
  obtain ⟨s, hr, hs⟩ := Machine.exists_reachable_of_exec (reporting Builtin tinyConfig)
    [.critical (.acquire 0), .critical (.complete ⟨0, .closed, 0⟩ (.error .runtimeError) 0),
      .critical (.acquire 1), .emit 2, .emit 1, .emit 1]
    (fun s => decide (s.unreported = [] ∧ s.changes = [(.closed, .opened), (.opened, .halfOpen)] ∧
      s.reported = [(.opened, .halfOpen), (.closed, .opened)])) (by decide +kernel)
  obtain ⟨hnone, hch, hrep⟩ := of_decide_eq_true hs
  exact ⟨s, hr, hnone, by rw [hch, hrep]; decide, by rw [hrep]; decide⟩

end CircuitBreaker
