/-
Can a half-open breaker lock itself out?

A half-open breaker admits nothing once its permits are taken; then it is up to the probes in
flight to decide the period.  A probe that ends without being recorded, because its exception is
ignored or passes through `except Exception`, gives its permit back to nobody, and when it was the
last one in flight the breaker stays half-open and rejects every call until it is reset.  As long
as every probe is recorded this does not happen: a half-open breaker without permits has a probe in
flight, and the return of its probes leads to a state that admits calls again.

Main definitions:

* `CircuitBreaker.System.RecordsProbes` — the side condition on a step;
* `CircuitBreaker.System.HasProbe` — a half-open breaker has a permit left or a probe in flight.

Main results:

* `CircuitBreaker.never_locks_out` — **a breaker whose probes are all recorded never locks itself
  out, and one that loses a probe does**;
* `CircuitBreaker.not_never_locks_out` — a cancelled probe locks the breaker out.
-/

import Pysilience.CircuitBreaker.HalfOpen

set_option relaxedAutoImplicit false
set_option autoImplicit false

namespace CircuitBreaker

open Python Collections Transition

universe u v

variable {Exc : Type u} {Cls : Type v} [Exceptions Exc Cls] {cfg : CircuitBreakerConfig Cls}

namespace System

/-- The side condition of a step: if it ends a probe of the present half-open period, the outcome
of the probe is one that gets recorded. -/
def RecordsProbes (s : System cfg) : Action Exc → Prop
  | .complete c outcome _ =>
      s.cb.state = .halfOpen → c.probeOf s.period = true → verdict cfg outcome ≠ none
  | _ => True

instance (s : System cfg) (a : Action Exc) : Decidable (s.RecordsProbes a) :=
  match a with
  | .complete c outcome _ =>
      inferInstanceAs (Decidable (s.cb.state = .halfOpen → c.probeOf s.period = true →
        verdict cfg outcome ≠ none))
  | .acquire .. | .reset => isTrue trivial

/-- A half-open breaker has a permit left, or a probe of the period in flight. -/
def HasProbe (s : System cfg) : Prop :=
  s.cb.state = .halfOpen → 0 < s.cb.halfOpenAllowed ∨ ∃ c ∈ s.running, c.probeOf s.period = true

instance (s : System cfg) : Decidable s.HasProbe :=
  inferInstanceAs (Decidable (_ → _ ∨ ∃ c ∈ s.running, c.probeOf s.period = true))

/-! ### No probe is lost -/

/-- No probe of the present half-open period was lost. -/
def NoneLost (s : System cfg) : Prop := s.cb.state = .halfOpen → lostProbes s.period s.log = 0

/-- A step that loses nothing and does not begin a half-open period. -/
theorem NoneLost.stay {s s' : System cfg} (h : NoneLost s) {es : List Entry}
    (hs : s'.cb.state = .halfOpen → s.cb.state = .halfOpen ∧ s'.period = s.period)
    (hl : s'.log = s.log ++ es) (hes : s.cb.state = .halfOpen → lostProbes s.period es = 0) :
    NoneLost s' := by
  intro hs'
  obtain ⟨h1, h2⟩ := hs hs'
  have hlost := h h1
  have hes := hes h1
  rw [hl, h2, lostProbes, List.countP_append, ← lostProbes, ← lostProbes, hlost, hes]

/-- Every step that records the probe it ends loses none. -/
theorem noneLost_step {s s' : System cfg} {a : Action Exc} (hok : PeriodsOk s) (h : NoneLost s)
    (hcond : s.RecordsProbes a) (hstep : s.step a = some s') : NoneLost s' := by
  cases step_cases hstep with
  | rejected => exact h
  | admitted | probe => exact h.stay (fun hs => ⟨hs, rfl⟩) rfl fun _ => rfl
  | firstProbe =>
      intro _
      have := (hok.fresh (Nat.lt_succ_self s.period)).2.1
      simpa [lostProbes] using this
  | unrecorded c outcome now hc hnv =>
      refine h.stay (fun hs => ⟨hs, rfl⟩) rfl fun hs => ?_
      refine List.countP_eq_zero.2 (List.forall_mem_singleton.2 fun hcp => ?_)
      have hci := (Call.probeOf_iff.1 hcp).1
      rcases hnv with hnv | hnv
      · exact hcond hs hcp hnv
      · exact hnv ⟨hci.trans hs.symm, by simp [hci]⟩
  | windowed => exact h.stay (fun hs => ⟨hs, rfl⟩) rfl fun _ => rfl
  | probed => exact h.stay (fun hs => ⟨hs, rfl⟩) rfl fun _ => rfl
  | trip | reopen | close | reset => exact h.stay (fun hs => by cases hs) rfl fun _ => rfl

theorem noneLost_of_run {as : List (Action Exc)} {s : System cfg}
    (h : (calls Exc cfg).Run RecordsProbes as s) : NoneLost s := by
  refine h.invariant (fun hs => by cases hs) ?_
  intro as s a s' hr hi hcond hs
  exact noneLost_step (periodsOk_of_reachable hr.reachable) hi hcond hs

/-- The results of the probes of the present period were all appended during it. -/
theorem PeriodsOk.resultsOf_le {s : System cfg} (h : PeriodsOk s) :
    (resultsOf s.period s.log).length ≤ (resultsDuring s.period s.log).length := by
  rw [resultsOf, resultsDuring, ← List.countP_eq_length_filter, ← List.countP_eq_length_filter]
  refine List.countP_mono_left fun r hr hrp => ?_
  have ht : r.call.period ≤ r.period ∧ r.period ≤ s.period := h.log _ (mem_probeResults.1 hr)
  have := (Call.probeOf_iff.1 hrp).2
  rw [beq_iff_eq]
  omega

/-- A half-open breaker that lost no probe of the period has a permit or a probe. -/
theorem hasProbe_of_noneLost {s : System cfg} (hok : PeriodsOk s)
    (hacc : Accounted s.running s.log) (hinv : ProbeInv s) (h : NoneLost s) : HasProbe s := by
  intro hs
  obtain ⟨hres, hperm, hall, hpend⟩ := hinv.halfOpen hs
  by_cases ha : 0 < s.cb.halfOpenAllowed
  · exact .inl ha
  · -- all permits are taken, and the results fall short of them
    have h1 := hacc s.period
    have h2 := h hs
    have h3 := hok.resultsOf_le
    rw [hres, List.length_map] at hpend
    have hpos : 0 < runningProbes s.period s.running := by omega
    exact .inr (List.countP_pos_iff.1 hpos)

theorem hasProbe_of_run {as : List (Action Exc)} {s : System cfg}
    (h : (calls Exc cfg).Run RecordsProbes as s) : HasProbe s :=
  hasProbe_of_noneLost (periodsOk_of_reachable h.reachable) (accounted_of_reachable h.reachable)
    (probeInv_of_reachable h.reachable) (noneLost_of_run h)

/-! ### Calls are admitted again -/

/-- Some attempt to acquire permission succeeds. -/
def Admits (Exc : Type u) [Exceptions Exc Cls] (s : System cfg) : Prop :=
  ∃ now s', s.step (.acquire now : Action Exc) = some s' ∧ s'.nextId = s.nextId + 1

/-- A breaker that is not half-open, or is and has a permit left, admits a call. -/
theorem admits_of {s : System cfg} (h : s.cb.state = .halfOpen → 0 < s.cb.halfOpenAllowed) :
    Admits Exc s := by
  -- if the circuit is open, the wait is over at this moment
  let now := s.cb.openedAt + cfg.waitDurationInOpenState
  obtain ⟨s', hstep⟩ : ∃ s', s.step (.acquire now : Action Exc) = some s' := by
    simp only [step]
    split <;> exact ⟨_, rfl⟩
  cases step_cases hstep with
  | rejected _ hr =>
      rcases hr with ⟨-, hw⟩ | ⟨hs, ha⟩
      · exact absurd hw (by simp [now])
      · exact absurd (h hs) (not_lt.2 ha)
  | admitted | firstProbe | probe => exact ⟨now, _, hstep, rfl⟩

/-- The return of a call in flight is possible, and one call less is in flight. -/
theorem step_return {s : System cfg} {c : Call} (hc : c ∈ s.running) (now : ℚ) :
    ∃ s', s.step (.complete c (.ok ()) now : Action Exc) = some s' ∧
      s'.running.length < s.running.length := by
  refine ⟨_, if_pos hc, ?_⟩
  have := List.length_erase_of_mem hc
  have := List.length_pos_of_mem hc
  dsimp only
  omega

/-- As long as the probes are recorded, the return of calls in flight leads to a state that admits
a call.  The measure is the number of calls in flight. -/
theorem admits_again (n : ℕ) : ∀ {as : List (Action Exc)} {s : System cfg},
    (calls Exc cfg).Run RecordsProbes as s → s.running.length = n →
      ∃ bs t, (∀ b ∈ bs, b.isReset = false) ∧ (calls Exc cfg).Run RecordsProbes (as ++ bs) t ∧
        Admits Exc t := by
  induction n using Nat.strong_induction_on with
  | _ n ih =>
      intro as s h hn
      by_cases ha : s.cb.state = .halfOpen → 0 < s.cb.halfOpenAllowed
      · exact ⟨[], s, by simp, by simpa using h, admits_of ha⟩
      · -- no permit is left, so a probe is in flight: let it return
        obtain ⟨hs, ha⟩ := Classical.not_imp.1 ha
        obtain ⟨c, hc, -⟩ := (hasProbe_of_run h hs).resolve_left ha
        obtain ⟨s', hstep, hlt⟩ : ∃ s', s.step (.complete c (.ok ()) 0 : Action Exc) = some s' ∧
            s'.running.length < s.running.length := step_return hc 0
        have hcond : s.RecordsProbes (.complete c (.ok ()) 0 : Action Exc) := by
          intro _ _
          simp [verdict]
        have h' := h.snoc hcond hstep
        obtain ⟨bs, t, hbs, hrun, hadm⟩ := ih _ (hn ▸ hlt) h' rfl
        refine ⟨.complete c (.ok ()) 0 :: bs, t, ?_, by rwa [List.append_cons], hadm⟩
        exact List.forall_mem_cons.2 ⟨rfl, hbs⟩

/-! ### A lost probe is never made up for -/

/-- The breaker is half-open in the period `p`, a probe of which was lost, and will have admitted
at most `n` calls as long as it is not reset. -/
structure Doomed (p : ℕ) (n : ℤ) (s : System cfg) : Prop where
  state : s.cb.state = .halfOpen
  period : s.period = p
  lost : 0 < lostProbes p s.log
  admits : s.nextId + s.cb.halfOpenAllowed = n

/-- A step that loses a probe. -/
theorem doomed_of_lost {s s' : System cfg} {a : Action Exc} (hcond : ¬ s.RecordsProbes a)
    (hstep : s.step a = some s') : Doomed s'.period (s'.nextId + s'.cb.halfOpenAllowed) s' := by
  cases step_cases hstep with
  | rejected | admitted | firstProbe | probe | reset => exact absurd trivial hcond
  | unrecorded c outcome now hc =>
      simp only [RecordsProbes, Classical.not_imp] at hcond
      obtain ⟨hs, hcp, -⟩ := hcond
      refine ⟨hs, rfl, List.countP_pos_iff.2 ⟨.unrecorded c, ?_, hcp⟩, rfl⟩
      exact List.mem_append_right _ (List.mem_singleton_self _)
  | windowed c outcome now success hc hv | trip c outcome now success hc hv
  | probed c outcome now success hc hv | reopen c outcome now success hc hv
  | close c outcome now success hc hv => exact absurd (fun _ _ => by simp [hv]) hcond

/-- With a probe lost and one in flight the results cannot become complete. -/
theorem Doomed.pending {p : ℕ} {n : ℤ} {s : System cfg} (h : Doomed p n s) (hclean : CleanInv s)
    {c : Call} (hc : c ∈ s.running) (hci : c.calledIn = .halfOpen) (success : Bool) :
    ((s.cb.halfOpenResults ++ [success]).length : ℤ) <
      cfg.permittedNumberOfCallsInHalfOpenState := by
  have hacc := hclean.accounting h.state
  have hall := (hclean.probes.halfOpen h.state).allowed
  have hcp := Call.probeOf_iff.2 ⟨hci, (hclean.own.running c hc hci).2⟩
  have hrun : 0 < runningProbes s.period s.running := List.countP_pos_iff.2 ⟨c, hc, hcp⟩
  have hlost := h.lost
  rw [← h.period] at hlost
  rw [List.length_append, List.length_singleton]
  omega

/-- Without a reset the breaker stays in this state. -/
theorem doomed_step {p : ℕ} {n : ℤ} {s s' : System cfg} {a : Action Exc} (hclean : CleanInv s)
    (h : Doomed p n s) (ha : WithoutReset s a) (hstep : s.step a = some s') : Doomed p n s' := by
  obtain ⟨hs, hp, hlost, hn⟩ := h
  have hne : ∀ st : CircuitBreakerState, s.cb.state = st → st = .halfOpen := fun _ hst =>
    hst.symm.trans hs
  have hmore : ∀ es, 0 < lostProbes p (s.log ++ es) := fun es => by
    rw [lostProbes, List.countP_append]
    exact Nat.add_pos_left hlost _
  cases step_cases hstep with
  | rejected => exact ⟨hs, hp, hlost, hn⟩
  | admitted now hs' | firstProbe now hs' => cases hne _ hs'
  | windowed c outcome now success _ _ _ hs' | trip c outcome now success _ _ _ hs' =>
      cases hne _ hs'
  | probe =>
      refine ⟨hs, hp, hmore _, ?_⟩
      push_cast
      omega
  | unrecorded | probed => exact ⟨hs, hp, hmore _, hn⟩
  | reopen c outcome now success hc _ hci _ hl | close c outcome now success hc _ hci _ hl =>
      -- the lost probe is missing from the results for good
      exact absurd hl (not_le.2 (Doomed.pending ⟨hs, hp, hlost, hn⟩ hclean hc hci success))
  | reset => cases ha

end System

/-! ### Never locked out, as long as the probes are recorded -/

/-- **A circuit breaker never locks itself out as long as its probes are recorded.**  In a run in
which every probe of the present half-open period that ends is recorded, a half-open breaker has a
permit left or a probe of the period in flight, and without a reset the run goes on to a state that
admits a call.  Where, in a run without resets, a probe ends unrecorded, the breaker stays
half-open until it is reset, and admits no more calls than it has permits left. -/
theorem never_locks_out (cfg : CircuitBreakerConfig Cls) :
    (∀ (as : List (Action Exc)) (s : System cfg), (calls Exc cfg).Run System.RecordsProbes as s →
      (s.cb.state = .halfOpen →
        0 < s.cb.halfOpenAllowed ∨ ∃ c ∈ s.running, c.probeOf s.period = true) ∧
      ∃ bs t, (∀ b ∈ bs, b.isReset = false) ∧
        (calls Exc cfg).Run System.RecordsProbes (as ++ bs) t ∧ t.Admits Exc) ∧
    (∀ (as : List (Action Exc)) (s : System cfg) (a : Action Exc) (s' : System cfg),
      (calls Exc cfg).Run WithoutReset as s → s.step a = some s' → ¬ s.RecordsProbes a →
        ∀ bs t, (calls Exc cfg).exec (fun _ b => !b.isReset) s' bs = some t →
          t.cb.state = .halfOpen ∧ (t.nextId : ℤ) ≤ s'.nextId + s'.cb.halfOpenAllowed) := by
  refine ⟨fun as s h => ⟨System.hasProbe_of_run h, System.admits_again _ h rfl⟩, ?_⟩
  intro as s a s' h hstep hcond bs t ht
  have ha : WithoutReset s a := by
    cases a with
    | reset => exact absurd trivial hcond
    | _ => rfl
  have hdoomed : System.Doomed _ _ t :=
    (h.snoc ha hstep).exec_invariant withoutReset_of_test
      (fun _ s a _ hr hi ha hs =>
        System.doomed_step (s := s) (a := a) (System.cleanInv_of_run hr) hi ha hs)
      bs (System.doomed_of_lost hcond hstep) ht
  have hreach := ((h.snoc ha hstep).exec_append withoutReset_of_test bs ht).reachable
  have hall := ((System.probeInv_of_reachable hreach).halfOpen hdoomed.state).allowed
  refine ⟨hdoomed.state, ?_⟩
  have := hdoomed.admits
  omega

/-- A run that records its probe, observed while the probe is in flight. -/
theorem never_locks_out_with_probe : ∃ s : System tinyConfig,
    (s.cb.state = .halfOpen ∧ ¬ 0 < s.cb.halfOpenAllowed) ∧
      ∃ c ∈ s.running, c.probeOf s.period = true := by
  obtain ⟨s, hr, hs⟩ := Machine.exists_run_of_exec (calls Builtin tinyConfig)
    (fun s a => decide (s.RecordsProbes a)) (fun _ _ => of_decide_eq_true)
    [.acquire 0, .complete ⟨0, .closed, 0⟩ (.error .runtimeError) 0, .acquire 1]
    (fun s => decide (s.cb.state = .halfOpen ∧ ¬ 0 < s.cb.halfOpenAllowed)) (by decide +kernel)
  have hs := of_decide_eq_true hs
  have := ((never_locks_out tinyConfig).1 _ s hr).1 hs.1
  exact ⟨s, hs, this.resolve_left hs.2⟩

/-- A probe that is cancelled while it is the only one: the breaker is half-open, no permit is left
and no probe is in flight. -/
theorem not_never_locks_out : ¬ ∀ s : System tinyConfig, (calls Builtin tinyConfig).Reachable s →
    s.cb.state = .halfOpen →
      0 < s.cb.halfOpenAllowed ∨ ∃ c ∈ s.running, c.probeOf s.period = true := by
  obtain ⟨s, hr, hs⟩ := Machine.exists_reachable_of_exec (calls Builtin tinyConfig)
    [.acquire 0, .complete ⟨0, .closed, 0⟩ (.error .runtimeError) 0, .acquire 1,
      .complete ⟨1, .halfOpen, 2⟩ (.error .cancelledError) 1]
    (fun s => !decide s.HasProbe) (by decide +kernel)
  simp only [Bool.not_eq_true', decide_eq_false_iff_not] at hs
  exact fun h => hs (h s hr)

end CircuitBreaker
