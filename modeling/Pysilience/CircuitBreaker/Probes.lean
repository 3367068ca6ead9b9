/-
The probes of a half-open period.

A half-open period has a fixed number of permits.  Each admitted probe takes one, and a probe that
has taken one is in flight until it ends, with its result recorded or not.  Nothing ever gives a
permit back.  This module proves what follows in every run, resets included: every probe ever
admitted is in flight, recorded or lost, and the permits of a half-open breaker are those that no
probe of the period has taken.

Main definitions:

* `CircuitBreaker.admittedProbes`, `CircuitBreaker.runningProbes`, `CircuitBreaker.lostProbes` —
  how many probes of a period were admitted, are in flight, and ended unrecorded;
* `CircuitBreaker.resultsOf`, `CircuitBreaker.resultsDuring` — the results of the probes of a
  period, and the results appended during it;
* `CircuitBreaker.Accounted`, `CircuitBreaker.System.ProbeInv` — the two invariants.

Main results:

* `CircuitBreaker.System.accounted_of_reachable` — **every probe is somewhere**;
* `CircuitBreaker.System.probeInv_of_reachable` — **permits are taken by probes only**.
-/

import Pysilience.CircuitBreaker.Periods
import Mathlib.Data.List.Perm.Basic

set_option relaxedAutoImplicit false
set_option autoImplicit false

namespace CircuitBreaker

open Python Collections Transition

universe u v

variable {Exc : Type u} {Cls : Type v} [Exceptions Exc Cls] {cfg : CircuitBreakerConfig Cls}

/-! ### The probes in the log -/

/-- How many probes of the period `p` were admitted. -/
def admittedProbes (p : ℕ) (log : List Entry) : ℕ :=
  log.countP fun
    | .admitted c => c.probeOf p
    | _ => false

/-- How many probes of the period `p` ended without being recorded. -/
def lostProbes (p : ℕ) (log : List Entry) : ℕ :=
  log.countP fun
    | .unrecorded c => c.probeOf p
    | _ => false

/-- How many probes of the period `p` are in flight. -/
def runningProbes (p : ℕ) (running : List Call) : ℕ := running.countP (·.probeOf p)

/-- A result appended to `_half_open_results`: of which call, and during which period. -/
structure ProbeResult where
  call : Call
  success : Bool
  period : ℕ
  deriving DecidableEq

/-- All results ever appended to `_half_open_results`, oldest first. -/
def probeResults (log : List Entry) : List ProbeResult :=
  log.filterMap fun
    | .probed c success period => some ⟨c, success, period⟩
    | _ => none

/-- The results of the probes of the period `p`. -/
def resultsOf (p : ℕ) (log : List Entry) : List ProbeResult :=
  (probeResults log).filter (·.call.probeOf p)

/-- The results appended during the period `p`. -/
def resultsDuring (p : ℕ) (log : List Entry) : List ProbeResult :=
  (probeResults log).filter (·.period == p)

theorem Call.probeOf_iff {c : Call} {p : ℕ} :
    c.probeOf p = true ↔ c.calledIn = .halfOpen ∧ c.period = p := by
  simp [Call.probeOf]

theorem admittedProbes_append (p : ℕ) (log es : List Entry) :
    admittedProbes p (log ++ es) = admittedProbes p log + admittedProbes p es :=
  List.countP_append

theorem lostProbes_append (p : ℕ) (log es : List Entry) :
    lostProbes p (log ++ es) = lostProbes p log + lostProbes p es :=
  List.countP_append

theorem probeResults_append (log es : List Entry) :
    probeResults (log ++ es) = probeResults log ++ probeResults es :=
  List.filterMap_append

theorem resultsOf_append (p : ℕ) (log es : List Entry) :
    resultsOf p (log ++ es) = resultsOf p log ++ resultsOf p es := by
  rw [resultsOf, probeResults_append, List.filter_append, resultsOf, resultsOf]

theorem resultsDuring_append (p : ℕ) (log es : List Entry) :
    resultsDuring p (log ++ es) = resultsDuring p log ++ resultsDuring p es := by
  rw [resultsDuring, probeResults_append, List.filter_append, resultsDuring, resultsDuring]

/-- Entries that are no results add none. -/
theorem resultsDuring_append_of_nil {es : List Entry} (hes : probeResults es = []) (p : ℕ)
    (log : List Entry) : resultsDuring p (log ++ es) = resultsDuring p log := by
  have hnew : resultsDuring p es = [] := by rw [resultsDuring, hes, List.filter_nil]
  rw [resultsDuring_append, hnew, List.append_nil]

theorem admittedProbes_admitted (p : ℕ) (log : List Entry) (c : Call) :
    admittedProbes p (log ++ [.admitted c]) =
      admittedProbes p log + if c.probeOf p then 1 else 0 := by
  rw [admittedProbes_append]
  exact congrArg _ List.countP_singleton

theorem mem_probeResults {log : List Entry} {r : ProbeResult} :
    r ∈ probeResults log ↔ .probed r.call r.success r.period ∈ log := by
  simp only [probeResults, List.mem_filterMap]
  constructor
  · rintro ⟨e, he, hr⟩
    cases e <;> simp only [reduceCtorEq, Option.some_inj] at hr
    subst hr
    exact he
  · intro h
    exact ⟨_, h, rfl⟩

/-! ### Every probe is somewhere -/

/-- Removing a call that is in flight removes it from the count. -/
theorem runningProbes_erase {running : List Call} {c : Call} (hc : c ∈ running) (p : ℕ) :
    runningProbes p running =
      runningProbes p (running.erase c) + if c.probeOf p then 1 else 0 := by
  rw [runningProbes, (List.perm_cons_erase hc).countP_eq, List.countP_cons, runningProbes]

/-- Every admitted probe is in flight, recorded, or lost. -/
def Accounted (running : List Call) (log : List Entry) : Prop :=
  ∀ p, admittedProbes p log =
    runningProbes p running + (resultsOf p log).length + lostProbes p log

/-- New entries of the log and the calls that are in flight afterwards have to balance. -/
theorem Accounted.append {running running' : List Call} {log es : List Entry}
    (h : Accounted running log)
    (hes : ∀ p, admittedProbes p es + runningProbes p running =
      runningProbes p running' + (resultsOf p es).length + lostProbes p es) :
    Accounted running' (log ++ es) := by
  intro p
  have hlog := h p
  have hnew := hes p
  rw [admittedProbes_append, resultsOf_append, lostProbes_append, List.length_append]
  omega

theorem Accounted.admit {running : List Call} {log : List Entry} (h : Accounted running log)
    (c : Call) : Accounted (c :: running) (log ++ [.admitted c]) := by
  refine h.append fun p => ?_
  have hone : admittedProbes p [.admitted c] = if c.probeOf p then 1 else 0 := List.countP_singleton
  have hrunning : runningProbes p (c :: running) =
      runningProbes p running + if c.probeOf p then 1 else 0 := List.countP_cons
  rw [hone, hrunning]
  exact Nat.add_comm _ _

theorem Accounted.record {running : List Call} {log : List Entry} (h : Accounted running log)
    {c : Call} (hc : c ∈ running) (success : Bool) (q : ℕ) :
    Accounted (running.erase c) (log ++ [.probed c success q]) := by
  refine h.append fun p => ?_
  have hone : (resultsOf p [.probed c success q]).length = if c.probeOf p then 1 else 0 := by
    cases hp : c.probeOf p <;> simp [resultsOf, probeResults, hp]
  rw [hone, runningProbes_erase hc p]
  exact Nat.zero_add _

theorem Accounted.lose {running : List Call} {log : List Entry} (h : Accounted running log)
    {c : Call} (hc : c ∈ running) : Accounted (running.erase c) (log ++ [.unrecorded c]) := by
  refine h.append fun p => ?_
  have hone : lostProbes p [.unrecorded c] = if c.probeOf p then 1 else 0 := List.countP_singleton
  rw [hone, runningProbes_erase hc p]
  exact Nat.zero_add _

/-- A call admitted in the closed state is no probe. -/
theorem Accounted.window {running : List Call} {log : List Entry} (h : Accounted running log)
    {c : Call} (hc : c ∈ running) (hclosed : c.calledIn = .closed) (success : Bool) (q : ℕ) :
    Accounted (running.erase c) (log ++ [.windowed c success q]) := by
  refine h.append fun p => ?_
  have hno : c.probeOf p = false := by simp [Call.probeOf, hclosed]
  rw [runningProbes_erase hc p, hno]
  exact Nat.zero_add _

theorem Accounted.clear {running : List Call} {log : List Entry} (h : Accounted running log) :
    Accounted running (log ++ [.cleared]) :=
  h.append fun _ => Nat.zero_add _

namespace System

theorem accounted_step {s s' : System cfg} {a : Action Exc} (h : Accounted s.running s.log)
    (hstep : s.step a = some s') : Accounted s'.running s'.log := by
  cases step_cases hstep with
  | rejected => exact h
  | admitted | firstProbe | probe => exact h.admit _
  | unrecorded c outcome now hc => exact h.lose hc
  | windowed c outcome now success hc _ hcc | trip c outcome now success hc _ hcc =>
      exact h.window hc hcc success _
  | probed c outcome now success hc | reopen c outcome now success hc =>
      exact h.record hc success _
  | close c outcome now success hc =>
      have := (h.record hc success s.period).clear
      simpa using this
  | reset => exact h.clear

theorem accounted_init : Accounted (init cfg).running (init cfg).log := by
  intro p
  simp [init, admittedProbes, runningProbes, resultsOf, probeResults, lostProbes]

/-- In every reachable state every admitted probe is in flight, recorded, or lost. -/
theorem accounted_of_reachable {s : System cfg} (h : (calls Exc cfg).Reachable s) :
    Accounted s.running s.log :=
  h.invariant accounted_init fun s a _ hi hs => accounted_step (s := s) (a := a) hi hs

/-! ### The permits of a half-open period -/

/-- Nothing has happened yet in a period to come. -/
theorem PeriodsOk.fresh {s : System cfg} (h : PeriodsOk s) {p : ℕ} (hp : s.period < p) :
    admittedProbes p s.log = 0 ∧ lostProbes p s.log = 0 ∧ resultsDuring p s.log = [] := by
  have hnot : ∀ c : Call, c.period ≤ s.period → ¬ c.probeOf p = true := by
    intro c hc hcp
    have := (Call.probeOf_iff.1 hcp).2
    omega
  refine ⟨List.countP_eq_zero.2 ?_, List.countP_eq_zero.2 ?_, List.filter_eq_nil_iff.2 ?_⟩
  · intro e he
    cases e with
    | admitted c => exact hnot c (h.log _ he)
    | _ => exact Bool.false_ne_true
  · intro e he
    cases e with
    | unrecorded c => exact hnot c (h.log _ he)
    | _ => exact Bool.false_ne_true
  · intro r hr
    have ht : _ ∧ r.period ≤ s.period := h.log _ (mem_probeResults.1 hr)
    rw [beq_iff_eq]
    omega

/-- The state of a half-open breaker: its results are those appended during the period, its permits
those that no probe of the period took, and the period is not yet decided. -/
structure HalfOpenInv (s : System cfg) : Prop where
  results : s.cb.halfOpenResults = (resultsDuring s.period s.log).map (·.success)
  permits : s.cb.halfOpenAllowed + admittedProbes s.period s.log =
    cfg.permittedNumberOfCallsInHalfOpenState
  allowed : 0 ≤ s.cb.halfOpenAllowed
  pending : (s.cb.halfOpenResults.length : ℤ) < cfg.permittedNumberOfCallsInHalfOpenState

/-- The accounting of every run: the state of a half-open breaker, and a bound on the probes of
every period, past or present. -/
structure ProbeInv (s : System cfg) : Prop where
  halfOpen : s.cb.state = .halfOpen → HalfOpenInv s
  admitted : ∀ p, (admittedProbes p s.log : ℤ) ≤ cfg.permittedNumberOfCallsInHalfOpenState

theorem probeInv_init : ProbeInv (init cfg) where
  halfOpen h := by cases h
  admitted p := by
    have := cfg.one_le_permitted
    simp only [init, admittedProbes, List.countP_nil]
    omega

/-- A step that admits a probe of the period it leads to. -/
theorem ProbeInv.admit {s s' : System cfg} (h : ProbeInv s) (hinv : HalfOpenInv s') {c : Call}
    (hc : c.period = s'.period) (hl : s'.log = s.log ++ [.admitted c]) : ProbeInv s' where
  halfOpen _ := hinv
  admitted p := by
    by_cases hp : p = s'.period
    · have h1 := hinv.permits
      have h2 := hinv.allowed
      rw [hp]
      omega
    · -- the probes of the other periods are what they were
      have hcp : c.probeOf p = false := by
        rw [Bool.eq_false_iff]
        intro hcp
        exact hp ((Call.probeOf_iff.1 hcp).2.symm.trans hc)
      rw [hl, admittedProbes_admitted, hcp]
      exact h.admitted p

/-- A step that admits no probe and leaves the breaker closed or open. -/
theorem ProbeInv.leave {s s' : System cfg} (h : ProbeInv s) (hs : s'.cb.state ≠ .halfOpen)
    (hl : ∀ p, admittedProbes p s'.log = admittedProbes p s.log) : ProbeInv s' where
  halfOpen hs' := absurd hs' hs
  admitted p := by
    rw [hl]
    exact h.admitted p

/-- Every step keeps the accounting. -/
theorem probeInv_step {s s' : System cfg} {a : Action Exc} (hok : PeriodsOk s) (h : ProbeInv s)
    (hstep : s.step a = some s') : ProbeInv s' := by
  have hone := cfg.one_le_permitted
  cases step_cases hstep with
  | rejected => exact h
  | admitted now hs =>
      refine h.leave (by rw [hs]; decide) fun p => ?_
      rw [admittedProbes_admitted]
      rfl
  | firstProbe now hs =>
      obtain ⟨hadm, -, hres⟩ := hok.fresh (Nat.lt_succ_self s.period)
      refine h.admit ⟨?_, ?_, ?_, ?_⟩ rfl rfl
      · rw [resultsDuring_append_of_nil rfl, hres]
        rfl
      · rw [admittedProbes_admitted, hadm, if_pos (Call.probeOf_iff.2 ⟨rfl, rfl⟩)]
        exact sub_add_cancel _ _
      · exact Int.sub_nonneg_of_le hone
      · exact Int.lt_of_lt_of_le Int.zero_lt_one hone
  | probe now hs ha =>
      obtain ⟨hres, hperm, -, hpend⟩ := h.halfOpen hs
      refine h.admit ⟨?_, ?_, ?_, hpend⟩ rfl rfl
      · rw [resultsDuring_append_of_nil rfl]
        exact hres
      · rw [admittedProbes_admitted, if_pos (Call.probeOf_iff.2 ⟨rfl, rfl⟩)]
        push_cast
        omega
      · exact Int.sub_nonneg_of_le ha
  | unrecorded c =>
      have hlog : ∀ p, admittedProbes p (s.log ++ [.unrecorded c]) = admittedProbes p s.log :=
        fun p => admittedProbes_append p s.log _
      refine ⟨fun hs => ?_, fun p => hlog p ▸ h.admitted p⟩
      obtain ⟨hres, hperm, hall, hpend⟩ := h.halfOpen hs
      refine ⟨?_, hlog s.period ▸ hperm, hall, hpend⟩
      rw [resultsDuring_append_of_nil rfl]
      exact hres
  | windowed c outcome now success _ _ _ hs =>
      refine h.leave ?_ fun p => admittedProbes_append p s.log _
      rw [Breaker.windowRecord_state, hs]
      decide
  | trip => exact h.leave nofun fun p => admittedProbes_append p s.log _
  | probed c outcome now success _ _ _ hs hl =>
      have hlog : ∀ p, admittedProbes p (s.log ++ [.probed c success s.period]) =
          admittedProbes p s.log := fun p => admittedProbes_append p s.log _
      obtain ⟨hres, hperm, hall, -⟩ := h.halfOpen hs
      refine ⟨fun _ => ⟨?_, hlog s.period ▸ hperm, hall, hl⟩, fun p => hlog p ▸ h.admitted p⟩
      simp [hres, resultsDuring, probeResults]
  | reopen => exact h.leave nofun fun p => admittedProbes_append p s.log _
  | close => exact h.leave nofun fun p => admittedProbes_append p s.log _
  | reset => exact h.leave nofun fun p => admittedProbes_append p s.log _

/-- The accounting holds in every reachable state. -/
theorem probeInv_of_reachable {s : System cfg} (h : (calls Exc cfg).Reachable s) : ProbeInv s := by
  obtain ⟨as, h⟩ := h
  refine h.invariant probeInv_init ?_
  intro as s a s' hr hi _ hs
  exact probeInv_step (periodsOk_of_reachable hr.reachable) hi hs

end System

end CircuitBreaker
