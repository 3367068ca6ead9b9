/-
The periods of a run, and the outcomes that cross them.

A period is a stretch of a run between two changes of the state.  `_record_outcome` is told the
state a call was admitted in and compares it with the present state, so that a slow call does not
help decide a period other than its own; but the comparison is by the name of the state, and a call
that is in flight while the breaker leaves a state *and comes back to it* passes the test in a
later period.  This module determines when that happens: an outcome crosses periods only if the
breaker reenters a state while a call admitted in it is still in flight, and after such a reentry
one more step is enough to make an outcome cross.

Main definitions:

* `CircuitBreaker.Entry.KeepsPeriod` — the outcome of the entry was appended in its own period;
* `CircuitBreaker.System.Enters` — the action makes the breaker enter a state;
* `CircuitBreaker.System.NoCallOutlivesReentry` — the side condition on a step.

Main results:

* `CircuitBreaker.System.periodsOk_of_reachable` — calls and entries never lie in the future;
* `CircuitBreaker.outcomes_keep_their_period` — **without such a reentry outcomes never cross
  periods, and each such reentry lets one cross**;
* `CircuitBreaker.not_outcomes_keep_their_period` — a run in which one does.
-/

import Pysilience.CircuitBreaker.Calls

set_option relaxedAutoImplicit false
set_option autoImplicit false

namespace CircuitBreaker

open Python Collections Transition

universe u v

variable {Exc : Type u} {Cls : Type v} [Exceptions Exc Cls] {cfg : CircuitBreakerConfig Cls}

/-! ### Nothing lies in the future -/

/-- The entry speaks of calls admitted, and of outcomes appended, no later than in the period
`p`; an outcome is appended no earlier than its call was admitted. -/
def Entry.Timely (p : ℕ) : Entry → Prop
  | .admitted c | .unrecorded c => c.period ≤ p
  | .windowed c _ q | .probed c _ q => c.period ≤ q ∧ q ≤ p
  | .cleared => True

theorem Entry.Timely.mono {p q : ℕ} (hpq : p ≤ q) {e : Entry} (h : e.Timely p) : e.Timely q := by
  cases e with
  | admitted c => exact le_trans h hpq
  | unrecorded c => exact le_trans h hpq
  | windowed c b r => exact ⟨h.1, le_trans h.2 hpq⟩
  | probed c b r => exact ⟨h.1, le_trans h.2 hpq⟩
  | cleared => trivial

/-- Appending timely entries, possibly while the period moves on. -/
theorem timely_append {p q : ℕ} (hpq : p ≤ q) {log es : List Entry}
    (h : ∀ e ∈ log, e.Timely p) (hes : ∀ e ∈ es, e.Timely q) : ∀ e ∈ log ++ es, e.Timely q := by
  intro e he
  rcases List.mem_append.1 he with he | he
  · exact (h e he).mono hpq
  · exact hes e he

namespace System

/-- Calls in flight and entries of the log belong to periods that have begun, and no call is
admitted in the open state. -/
structure PeriodsOk (s : System cfg) : Prop where
  running : ∀ c ∈ s.running, c.period ≤ s.period
  log : ∀ e ∈ s.log, e.Timely s.period
  calledIn : ∀ c ∈ s.running, c.calledIn ≠ .opened

theorem periodsOk_init : PeriodsOk (init cfg) :=
  ⟨by simp [init], by simp [init], by simp [init]⟩

/-- A call that has just been admitted. -/
theorem PeriodsOk.admit {s s' : System cfg} (h : PeriodsOk s) (hp : s.period ≤ s'.period)
    {c : Call} (hc : c.period = s'.period) (hne : c.calledIn ≠ .opened)
    (hr : s'.running = c :: s.running) (hl : s'.log = s.log ++ [.admitted c]) : PeriodsOk s' where
  running := by
    intro d hd
    rw [hr] at hd
    rcases List.mem_cons.1 hd with rfl | hd
    · exact hc.le
    · exact le_trans (h.running d hd) hp
  log := by
    rw [hl]
    exact timely_append hp h.log (by simp [Entry.Timely, hc])
  calledIn := by
    intro d hd
    rw [hr] at hd
    rcases List.mem_cons.1 hd with rfl | hd
    · exact hne
    · exact h.calledIn d hd

/-- A call that has just ended, or a reset. -/
theorem PeriodsOk.end {s s' : System cfg} (h : PeriodsOk s) (hp : s.period ≤ s'.period)
    {es : List Entry} (hr : ∀ c ∈ s'.running, c ∈ s.running) (hl : s'.log = s.log ++ es)
    (hes : ∀ e ∈ es, e.Timely s'.period) : PeriodsOk s' where
  running c hc := le_trans (h.running c (hr c hc)) hp
  log := by
    rw [hl]
    exact timely_append hp h.log hes
  calledIn c hc := h.calledIn c (hr c hc)

/-- Every step keeps calls and entries in periods that have begun. -/
theorem periodsOk_step {s s' : System cfg} {a : Action Exc} (h : PeriodsOk s)
    (hstep : s.step a = some s') : PeriodsOk s' := by
  have hmem : ∀ c, ∀ d ∈ s.running.erase c, d ∈ s.running := fun _ _ => List.mem_of_mem_erase
  cases step_cases hstep with
  | rejected => exact h
  | admitted => exact h.admit le_rfl rfl (by simp) rfl rfl
  | firstProbe => exact h.admit (Nat.le_succ _) rfl (by simp) rfl rfl
  | probe => exact h.admit le_rfl rfl (by simp) rfl rfl
  | unrecorded c outcome now hc =>
      exact h.end le_rfl (hmem c) rfl (by simpa [Entry.Timely] using h.running c hc)
  | windowed c outcome now success hc =>
      exact h.end le_rfl (hmem c) rfl (by simpa [Entry.Timely] using h.running c hc)
  | trip c outcome now success hc =>
      exact h.end (Nat.le_succ _) (hmem c) rfl (by simpa [Entry.Timely] using h.running c hc)
  | probed c outcome now success hc =>
      exact h.end le_rfl (hmem c) rfl (by simpa [Entry.Timely] using h.running c hc)
  | reopen c outcome now success hc =>
      exact h.end (Nat.le_succ _) (hmem c) rfl (by simpa [Entry.Timely] using h.running c hc)
  | close c outcome now success hc =>
      exact h.end (Nat.le_succ _) (hmem c) rfl (by simpa [Entry.Timely] using h.running c hc)
  | reset =>
      refine h.end ?_ (fun _ hc => hc) rfl (by simp [Entry.Timely])
      dsimp only [periodAfter]
      split <;> omega

/-- In every reachable state calls and entries belong to periods that have begun. -/
theorem periodsOk_of_reachable {s : System cfg} (h : (calls Exc cfg).Reachable s) : PeriodsOk s :=
  h.invariant periodsOk_init fun s a _ hi hs => periodsOk_step (s := s) (a := a) hi hs

end System

/-! ### Crossing periods -/

/-- If the entry is an outcome appended to `_window` or to `_half_open_results`, it was appended
during the period in which its call was admitted. -/
def Entry.KeepsPeriod : Entry → Prop
  | .windowed c _ q | .probed c _ q => c.period = q
  | _ => True

instance (e : Entry) : Decidable e.KeepsPeriod := by
  cases e <;> unfold Entry.KeepsPeriod <;> infer_instance

/-- The result of one more probe completes the probes, and their failure rate is below the
threshold. -/
def Breaker.ClosesOn (cb : Breaker cfg) (success : Bool) : Prop :=
  cfg.permittedNumberOfCallsInHalfOpenState ≤ (cb.halfOpenResults ++ [success]).length ∧
    ¬ Breaker.ProbesFail cfg (cb.halfOpenResults ++ [success])

instance (cb : Breaker cfg) (success : Bool) : Decidable (cb.ClosesOn success) :=
  inferInstanceAs (Decidable (_ ∧ ¬ (_ ≤ (_ : ℚ))))

namespace System

/-- The action makes the breaker enter the closed or the half-open state. -/
def Enters (s : System cfg) : Action Exc → CircuitBreakerState → Prop
  | .acquire now, .halfOpen =>
      s.cb.state = .opened ∧ cfg.waitDurationInOpenState ≤ now - s.cb.openedAt
  | .complete c outcome _, .closed =>
      s.cb.state = .halfOpen ∧ c.calledIn = .halfOpen ∧
        ∃ success ∈ verdict cfg outcome, s.cb.ClosesOn success
  | .reset, .closed => s.cb.state ≠ .closed
  | _, _ => False

instance (s : System cfg) (a : Action Exc) (st : CircuitBreakerState) :
    Decidable (s.Enters a st) := by
  cases a <;> cases st <;> unfold Enters <;> infer_instance

/-- The side condition of a step: where it makes the breaker enter a state, no call admitted in
that state is in flight. -/
def NoCallOutlivesReentry (s : System cfg) (a : Action Exc) : Prop :=
  ∀ c ∈ s.running, ¬ s.Enters a c.calledIn

instance (s : System cfg) (a : Action Exc) : Decidable (s.NoCallOutlivesReentry a) :=
  inferInstanceAs (Decidable (∀ c ∈ s.running, ¬ s.Enters a c.calledIn))

/-- The calls in flight that were admitted in the present state were admitted in the present
period, and nothing in the log crosses periods. -/
structure InPeriod (s : System cfg) : Prop where
  current : ∀ c ∈ s.running, c.calledIn = s.cb.state → c.period = s.period
  log : ∀ e ∈ s.log, e.KeepsPeriod

/-- A step that admits a call. -/
theorem InPeriod.admit {s s' : System cfg} (h : InPeriod s) {c : Call}
    (hc : c.period = s'.period) (hr : s'.running = c :: s.running)
    (hl : s'.log = s.log ++ [.admitted c])
    (hold : ∀ d ∈ s.running, d.calledIn = s'.cb.state → d.period = s'.period) : InPeriod s' where
  current d hd hds := by
    rw [hr] at hd
    rcases List.mem_cons.1 hd with rfl | hd
    · exact hc
    · exact hold d hd hds
  log := by
    rw [hl]
    exact List.forall_mem_append.2 ⟨h.log, by simp [Entry.KeepsPeriod]⟩

/-- A step that leaves the state alone and ends a call. -/
theorem InPeriod.stay {s s' : System cfg} (h : InPeriod s) (hs : s'.cb.state = s.cb.state)
    (hp : s'.period = s.period) {c : Call} (hr : s'.running = s.running.erase c) {e : Entry}
    (hl : s'.log = s.log ++ [e]) (he : e.KeepsPeriod) : InPeriod s' where
  current d hd hdc := by
    rw [hp]
    exact h.current d (List.mem_of_mem_erase (hr ▸ hd)) (hdc.trans hs)
  log := by
    rw [hl]
    exact List.forall_mem_append.2 ⟨h.log, by simpa using he⟩

/-- A step that changes the state: what is in flight must not have been admitted in the new one. -/
theorem InPeriod.change {s s' : System cfg} (h : InPeriod s) {es : List Entry}
    (hr : ∀ c ∈ s'.running, c.calledIn ≠ s'.cb.state) (hl : s'.log = s.log ++ es)
    (hes : ∀ e ∈ es, e.KeepsPeriod) : InPeriod s' where
  current c hc hcs := absurd hcs (hr c hc)
  log := by
    rw [hl]
    exact List.forall_mem_append.2 ⟨h.log, hes⟩

/-- Every step that meets the side condition keeps outcomes in their period. -/
theorem inPeriod_step {s s' : System cfg} {a : Action Exc} (hok : PeriodsOk s) (h : InPeriod s)
    (hcond : s.NoCallOutlivesReentry a) (hstep : s.step a = some s') : InPeriod s' := by
  have hopen : ∀ c d, d ∈ s.running.erase c → d.calledIn ≠ .opened :=
    fun c d hd => hok.calledIn d (List.mem_of_mem_erase hd)
  cases step_cases hstep with
  | rejected => exact h
  | admitted => exact h.admit rfl rfl rfl h.current
  | firstProbe now hs hw =>
      -- the new period finds no call in flight that was admitted half-open
      refine h.admit rfl rfl rfl fun d hd hds => absurd ?_ (hcond d hd)
      rw [show d.calledIn = .halfOpen from hds]
      exact ⟨hs, hw⟩
  | probe => exact h.admit rfl rfl rfl h.current
  | unrecorded c => exact h.stay rfl rfl rfl rfl trivial
  | windowed c outcome now success hc _ hcc hs =>
      exact h.stay rfl rfl rfl rfl (h.current c hc (hcc.trans hs.symm))
  | trip c outcome now success hc _ hcc hs =>
      have hp := h.current c hc (hcc.trans hs.symm)
      exact h.change (hopen c) rfl (List.forall_mem_singleton.2 hp)
  | probed c outcome now success hc _ hcc hs =>
      exact h.stay rfl rfl rfl rfl (h.current c hc (hcc.trans hs.symm))
  | reopen c outcome now success hc _ hcc hs =>
      have hp := h.current c hc (hcc.trans hs.symm)
      exact h.change (hopen c) rfl (List.forall_mem_singleton.2 hp)
  | close c outcome now success hc hv hcc hs hl hf =>
      have hp := h.current c hc (hcc.trans hs.symm)
      refine h.change ?_ rfl (List.forall_mem_cons.2 ⟨hp, List.forall_mem_singleton.2 trivial⟩)
      intro d hd hds
      refine hcond d (List.mem_of_mem_erase hd) ?_
      rw [show d.calledIn = .closed from hds]
      exact ⟨hs, hcc, success, hv, hl, hf⟩
  | reset =>
      by_cases hs : s.cb.state = .closed
      · -- a reset of a closed breaker begins no period
        refine ⟨?_, List.forall_mem_append.2 ⟨h.log, by simp [Entry.KeepsPeriod]⟩⟩
        intro c hc hcs
        exact (h.current c hc (hcs.trans hs.symm)).trans (periodAfter_of_eq hs.symm).symm
      · refine h.change ?_ rfl (List.forall_mem_singleton.2 trivial)
        intro c hc hcs
        refine hcond c hc ?_
        rw [show c.calledIn = .closed from hcs]
        exact hs

theorem inPeriod_of_run {as : List (Action Exc)} {s : System cfg}
    (h : (calls Exc cfg).Run NoCallOutlivesReentry as s) : InPeriod s := by
  refine h.invariant ⟨by simp [calls, init], by simp [calls, init]⟩ ?_
  intro as s a s' hr hi hok hs
  exact inPeriod_step (periodsOk_of_reachable hr.reachable) hi hok hs

/-! ### The side condition is exact -/

/-- Where an action enters a state, the step puts the breaker into it and begins a new period,
and every other call stays in flight. -/
theorem enters_step {s s' : System cfg} {a : Action Exc} {c : Call} (hc : c ∈ s.running)
    (he : s.Enters a c.calledIn) (hstep : s.step a = some s') :
    s'.cb.state = c.calledIn ∧ s'.period = s.period + 1 ∧ c ∈ s'.running := by
  have hnc : ∀ p b : CircuitBreakerState, c.calledIn = p → c.calledIn = b → p = b :=
    fun _ _ h1 h2 => h1.symm.trans h2
  cases hci : c.calledIn with
  | closed =>
      rw [hci] at he
      cases step_cases hstep with
      | rejected | admitted | firstProbe | probe => exact he.elim
      | unrecorded d outcome now hd hnv =>
          obtain ⟨hs, hdc, success, hv, -⟩ := he
          rcases hnv with hnv | hnv
          · rw [hnv] at hv; cases hv
          · exact absurd ⟨hdc.trans hs.symm, by simp [hdc]⟩ hnv
      | windowed d outcome now success hd hv hdc hs | trip d outcome now success hd hv hdc hs =>
          rw [he.1] at hs; cases hs
      | probed d outcome now success hd hv hdc hs hl =>
          -- the two readings of the verdict agree, and so the probes would be complete
          obtain ⟨-, -, success', hv', hcl⟩ := he
          obtain rfl : success = success' := by simpa [hv] using hv'
          exact absurd hcl.1 (not_le.2 hl)
      | reopen d outcome now success hd hv hdc hs hl hf =>
          obtain ⟨-, -, success', hv', hcl⟩ := he
          obtain rfl : success = success' := by simpa [hv] using hv'
          exact absurd hf hcl.2
      | close d outcome now success hd hv hdc hs hl hf =>
          refine ⟨rfl, rfl, (List.mem_erase_of_ne ?_).2 hc⟩
          rintro rfl
          exact absurd (hnc _ _ hci hdc) (by simp)
      | reset => exact ⟨rfl, periodAfter_of_ne (Ne.symm he), hc⟩
  | opened => rw [hci] at he; cases a <;> exact he.elim
  | halfOpen =>
      rw [hci] at he
      cases step_cases hstep with
      | rejected now hr =>
          rcases hr with ⟨-, hw⟩ | ⟨hs, -⟩
          · exact absurd he.2 (not_le.2 hw)
          · rw [he.1] at hs; cases hs
      | firstProbe => exact ⟨rfl, rfl, List.mem_cons_of_mem _ hc⟩
      | admitted now hs | probe now hs => rw [he.1] at hs; cases hs
      | _ => exact he.elim

/-- A call that returns while the breaker is in the state it was admitted in has its outcome
appended, in the present period. -/
theorem complete_appends {s : System cfg} {c : Call} (hc : c ∈ s.running)
    (hs : s.cb.state = c.calledIn) (hne : c.calledIn ≠ .opened) (now : ℚ) :
    ∃ s', s.step (.complete c (.ok ()) now : Action Exc) = some s' ∧
      (.windowed c true s.period ∈ s'.log ∨ .probed c true s.period ∈ s'.log) := by
  simp only [step, if_pos hc]
  refine ⟨_, rfl, ?_⟩
  cases hci : c.calledIn with
  | closed => exact .inl (by simp [endEntries, verdict, hs, hci])
  | opened => exact absurd hci hne
  | halfOpen => exact .inr (by simp [endEntries, verdict, hs, hci])

/-- After a step that violates the side condition, the return of one call makes an outcome cross
periods. -/
theorem crosses_after_reentry {s s' : System cfg} {a : Action Exc} (hok : PeriodsOk s)
    (hcond : ¬ s.NoCallOutlivesReentry a) (hstep : s.step a = some s') (now : ℚ) :
    ∃ c s'', s'.step (.complete c (.ok ()) now : Action Exc) = some s'' ∧
      ∃ e ∈ s''.log, ¬ e.KeepsPeriod := by
  unfold NoCallOutlivesReentry at hcond
  push Not at hcond
  obtain ⟨c, hc, he⟩ := hcond
  obtain ⟨hs, hp, hc'⟩ := enters_step hc he hstep
  have hlt : c.period ≠ s'.period := by
    have := hok.running c hc
    omega
  obtain ⟨s'', hstep', hlog⟩ : ∃ s'', s'.step (.complete c (.ok ()) now : Action Exc) = some s'' ∧
      (.windowed c true s'.period ∈ s''.log ∨ .probed c true s'.period ∈ s''.log) :=
    complete_appends hc' hs (hok.calledIn c hc) now
  rcases hlog with hlog | hlog
  · exact ⟨c, s'', hstep', _, hlog, hlt⟩
  · exact ⟨c, s'', hstep', _, hlog, hlt⟩

end System

/-! ### Outcomes never cross periods, unless a call outlives a reentry -/

/-- **Outcomes keep their period as long as no call outlives a reentry.**  In a run in which the
breaker never enters a state while a call admitted in that state is in flight, every outcome is
appended during the period its call was admitted in; and wherever a reachable breaker does enter a
state while such a call is in flight, that call need only return for its outcome to be appended in
a later period. -/
theorem outcomes_keep_their_period (cfg : CircuitBreakerConfig Cls) :
    (∀ as s, (calls Exc cfg).Run System.NoCallOutlivesReentry as s →
      ∀ e ∈ s.log, e.KeepsPeriod) ∧
    (∀ (s s' : System cfg) (a : Action Exc) (now : ℚ), (calls Exc cfg).Reachable s →
      s.step a = some s' → ¬ s.NoCallOutlivesReentry a →
        ∃ c s'', s'.step (.complete c (.ok ()) now : Action Exc) = some s'' ∧
          ∃ e ∈ s''.log, ¬ e.KeepsPeriod) := by
  refine ⟨fun as s h => (System.inPeriod_of_run h).log, ?_⟩
  intro s s' a now hr hstep hcond
  exact System.crosses_after_reentry (System.periodsOk_of_reachable hr) hcond hstep now

/-- A run that meets the side condition: a call in flight while the circuit opens and turns
half-open returns before it closes again, and the outcome of the probe is appended in its period. -/
theorem outcomes_keep_their_period_through_half_open : ∃ s : System tinyConfig,
    (s.cb.state = .closed ∧ .probed ⟨2, .halfOpen, 2⟩ true 2 ∈ s.log) ∧
      ∀ e ∈ s.log, e.KeepsPeriod := by
  obtain ⟨s, hr, hs⟩ := Machine.exists_run_of_exec (calls Builtin tinyConfig)
    (fun s a => decide (s.NoCallOutlivesReentry a)) (fun _ _ => of_decide_eq_true)
    [.acquire 0, .acquire 0, .complete ⟨1, .closed, 0⟩ (.error .runtimeError) 0, .acquire 1,
      .complete ⟨0, .closed, 0⟩ (.ok ()) 1, .complete ⟨2, .halfOpen, 2⟩ (.ok ()) 1]
    (fun s => decide (s.cb.state = .closed ∧ .probed ⟨2, .halfOpen, 2⟩ true 2 ∈ s.log))
    (by decide +kernel)
  exact ⟨s, of_decide_eq_true hs, (outcomes_keep_their_period tinyConfig).1 _ s hr⟩

/-- A call admitted before the circuit tripped is still in flight when it closes again, and its
outcome is appended to the new window. -/
theorem not_outcomes_keep_their_period : ¬ ∀ s : System tinyConfig,
    (calls Builtin tinyConfig).Reachable s → ∀ e ∈ s.log, e.KeepsPeriod := by
  obtain ⟨s, hr, hs⟩ := Machine.exists_reachable_of_exec (calls Builtin tinyConfig)
    [.acquire 0, .acquire 0, .complete ⟨1, .closed, 0⟩ (.error .runtimeError) 0, .acquire 1,
      .complete ⟨2, .halfOpen, 2⟩ (.ok ()) 1, .complete ⟨0, .closed, 0⟩ (.ok ()) 1]
    (fun s => s.log.any fun e => !decide e.KeepsPeriod) (by decide +kernel)
  intro h
  simp only [List.any_eq_true, Bool.not_eq_true', decide_eq_false_iff_not] at hs
  obtain ⟨e, he, hne⟩ := hs
  exact hne (h s hr e he)

end CircuitBreaker
