/-
The load that a circuit breaker lets through while the service is unhealthy, and its recovery.

The sections of the callers read the clock while they hold the lock, so the readings of a run never
decrease.  A call is admitted either in the closed state or as a probe.  The probes of one half-open
period are no more than permitted, and two half-open periods are separated by an open period, which
lasts for the wait duration at least: the probes come in batches.

In the other direction, an open circuit lets a healthy service back in: while all calls succeed, the
state of the breaker only moves on, from open to half-open and from there to closed.

Main definitions:

* `CircuitBreaker.Timed`, `CircuitBreaker.timed` — the calls with a clock, and when each was
  admitted;
* `CircuitBreaker.LoadInv` — the batches of the probes;
* `CircuitBreaker.System.healthy`, `CircuitBreaker.System.Recovering` — the condition on the calls
  of a healthy service, and how far its breaker has come.

Main results:

* `CircuitBreaker.probe_load_bounded` — **the load outside the closed state is bounded**, in every
  interval of every run;
* `CircuitBreaker.recovers` — **a healthy service is let back in**.
-/

import Pysilience.CircuitBreaker.Probes
import Pysilience.CircuitBreaker.Window
import Pysilience.Lib.ArrivalCurve

set_option relaxedAutoImplicit false
set_option autoImplicit false

namespace CircuitBreaker

open ArrivalCurve Python Collections Transition

universe u v

variable {Exc : Type u} {Cls : Type v} [Exceptions Exc Cls] {cfg : CircuitBreakerConfig Cls}

/-! ### The clock -/

/-- A call that was admitted, and the reading of the clock at which it was. -/
structure Admission where
  admittedAt : ℚ
  call : Call
  deriving DecidableEq

/-- The machine of the calls with the last reading of the clock, and the admissions so far, the
latest first. -/
structure Timed (cfg : CircuitBreakerConfig Cls) where
  sys : System cfg
  clock : ℚ
  admissions : List Admission

/-- The reading of the clock that a section makes. -/
def Action.reading : Action Exc → Option ℚ
  | .acquire now | .complete _ _ now => some now
  | .reset => none

namespace Timed

/-- The call that a section admitted at the reading `now`. -/
def newAdmission (s s' : System cfg) (now : ℚ) : List Admission :=
  if s.nextId < s'.nextId then (s'.running.head?.map fun c => ⟨now, c⟩).toList else []

/-- One section, at a reading of the clock that is not before the last one. -/
def step (t : Timed cfg) (a : Action Exc) : Option (Timed cfg) :=
  let now := a.reading.getD t.clock
  if now < t.clock then none
  else (t.sys.step a).map fun s => ⟨s, now, newAdmission t.sys s now ++ t.admissions⟩

end Timed

/-- The calls of a circuit breaker that was constructed at the reading `start`, interleaved. -/
def timed (Exc : Type u) {Cls : Type v} [Exceptions Exc Cls] (cfg : CircuitBreakerConfig Cls)
    (start : ℚ) : Machine (Timed cfg) (Action Exc) where
  init := ⟨System.init cfg, start, []⟩
  step := Timed.step

namespace Timed

/-- A section is one of the cases of the machine, at a reading that is not before the last one. -/
theorem step_cases {t t' : Timed cfg} {a : Action Exc} (h : t.step a = some t') :
    ∃ s now, System.StepCase t.sys a s ∧ t.clock ≤ now ∧ now = a.reading.getD t.clock ∧
      t' = ⟨s, now, newAdmission t.sys s now ++ t.admissions⟩ := by
  simp only [step] at h
  split at h
  · cases h
  · next hnow =>
    obtain ⟨s, hs, rfl⟩ := Option.map_eq_some_iff.1 h
    exact ⟨s, _, System.step_cases hs, not_lt.1 hnow, rfl, rfl⟩

/-- A section that admits no call. -/
theorem newAdmission_of_eq {s s' : System cfg} (h : s'.nextId = s.nextId) (now : ℚ) :
    newAdmission s s' now = [] := by
  rw [newAdmission, if_neg (by omega)]

/-- A section that admits a call. -/
theorem newAdmission_of_lt {s s' : System cfg} {c : Call} {running : List Call}
    (h : s.nextId < s'.nextId) (hr : s'.running = c :: running) (now : ℚ) :
    newAdmission s s' now = [⟨now, c⟩] := by
  rw [newAdmission, if_pos h, hr]
  rfl

end Timed

/-! ### The probes come in batches -/

/-- The call was admitted as a probe. -/
def Admission.isProbe (x : Admission) : Prop := x.call.calledIn = .halfOpen

/-- Two probes of one period, or of periods that are separated by the wait. -/
def Admission.Apart (cfg : CircuitBreakerConfig Cls) (x y : Admission) : Prop :=
  x.call.period ≠ y.call.period →
    x.admittedAt + cfg.waitDurationInOpenState ≤ y.admittedAt ∨
      y.admittedAt + cfg.waitDurationInOpenState ≤ x.admittedAt

/-- What the admissions of a run look like: they are those of the log, they lie in the past, no
probe is later than the opening of an open breaker, the probes of earlier periods are earlier by the
wait than those of the present one, and so are any two probes of different periods. -/
structure LoadInv (t : Timed cfg) : Prop where
  logged : ∀ p, t.admissions.countP (fun x => x.call.probeOf p) = admittedProbes p t.sys.log
  calledIn : ∀ x ∈ t.admissions, x.call.calledIn ≠ .opened
  past : ∀ x ∈ t.admissions, x.admittedAt ≤ t.clock
  opened : t.sys.cb.state = .opened →
    ∀ x ∈ t.admissions, x.isProbe → x.admittedAt ≤ t.sys.cb.openedAt
  earlier : t.sys.cb.state = .halfOpen → ∀ x ∈ t.admissions, x.isProbe →
    x.call.period ≠ t.sys.period → x.admittedAt + cfg.waitDurationInOpenState ≤ t.clock
  apart : ∀ x ∈ t.admissions, ∀ y ∈ t.admissions, x.isProbe → y.isProbe → x.Apart cfg y

namespace LoadInv

variable {t : Timed cfg} {s : System cfg} {now : ℚ}

/-- A section that admits no call. -/
theorem keep (h : LoadInv t) (hnow : t.clock ≤ now) (hid : s.nextId = t.sys.nextId)
    (hlog : ∀ p, admittedProbes p s.log = admittedProbes p t.sys.log)
    (hopened : s.cb.state = .opened → s.cb.openedAt = now ∨
      t.sys.cb.state = .opened ∧ s.cb.openedAt = t.sys.cb.openedAt)
    (hhalf : s.cb.state = .halfOpen → t.sys.cb.state = .halfOpen ∧ s.period = t.sys.period) :
    LoadInv ⟨s, now, Timed.newAdmission t.sys s now ++ t.admissions⟩ := by
  rw [Timed.newAdmission_of_eq hid, List.nil_append]
  refine ⟨fun p => (h.logged p).trans (hlog p).symm, h.calledIn,
    fun x hx => (h.past x hx).trans hnow, fun hs x hx hprobe => ?_, fun hs x hx hprobe hne => ?_,
    h.apart⟩
  · rcases hopened hs with heq | ⟨hopen, heq⟩
    · exact ((h.past x hx).trans hnow).trans heq.ge
    · exact (h.opened hopen x hx hprobe).trans heq.ge
  · obtain ⟨hopen, hperiod⟩ := hhalf hs
    exact (h.earlier hopen x hx hprobe (hperiod ▸ hne)).trans hnow

/-- A section that admits the call `c`. -/
theorem admitted (h : LoadInv t) (hnow : t.clock ≤ now) {c : Call} {running : List Call}
    (hid : t.sys.nextId < s.nextId) (hr : s.running = c :: running)
    (hlog : s.log = t.sys.log ++ [.admitted c]) (hne : c.calledIn ≠ .opened)
    (hstate : s.cb.state ≠ .opened) (hperiod : s.cb.state = .halfOpen → c.period = s.period)
    (hprobe : c.calledIn = .halfOpen → s.cb.state = .halfOpen)
    (hearlier : s.cb.state = .halfOpen → ∀ x ∈ t.admissions, x.isProbe →
      x.call.period ≠ s.period → x.admittedAt + cfg.waitDurationInOpenState ≤ now) :
    LoadInv ⟨s, now, Timed.newAdmission t.sys s now ++ t.admissions⟩ := by
  rw [Timed.newAdmission_of_lt hid hr, List.singleton_append]
  refine ⟨fun p => ?_, List.forall_mem_cons.2 ⟨hne, h.calledIn⟩,
    List.forall_mem_cons.2 ⟨le_rfl, fun x hx => (h.past x hx).trans hnow⟩,
    fun hs => absurd hs hstate, fun hs => List.forall_mem_cons.2 ⟨fun _ hother => ?_, hearlier hs⟩,
    ?_⟩
  · rw [List.countP_cons, h.logged p, hlog, admittedProbes_admitted]
  · exact absurd (hperiod hs) hother
  · -- an earlier probe of another period is earlier by the wait
    have hbefore : ∀ x ∈ t.admissions, x.isProbe → c.calledIn = .halfOpen →
        x.call.period ≠ c.period → x.admittedAt + cfg.waitDurationInOpenState ≤ now :=
      fun x hx hxprobe hc hother => hearlier (hprobe hc) x hx hxprobe (hperiod (hprobe hc) ▸ hother)
    intro x hx y hy hxprobe hyprobe hother
    rcases List.mem_cons.1 hx with rfl | hx <;> rcases List.mem_cons.1 hy with rfl | hy
    · exact absurd rfl hother
    · exact Or.inr (hbefore y hy hyprobe hxprobe (Ne.symm hother))
    · exact Or.inl (hbefore x hx hxprobe hyprobe hother)
    · exact h.apart x hx y hy hxprobe hyprobe hother

end LoadInv

/-- **Every section keeps the batches apart.** -/
theorem loadInv_step {t t' : Timed cfg} {a : Action Exc} (h : LoadInv t)
    (hstep : t.step a = some t') : LoadInv t' := by
  obtain ⟨s, now, hcase, hnow, hreading, rfl⟩ := Timed.step_cases hstep
  cases hcase with
  | rejected _ _ =>
      exact h.keep hnow rfl (fun _ => rfl) (fun hs => Or.inr ⟨hs, rfl⟩) fun hs => ⟨hs, rfl⟩
  | admitted _ hs =>
      refine h.admitted hnow (Nat.lt_succ_self _) rfl rfl nofun ?_ ?_ nofun ?_
      · rw [hs]
        nofun
      · rw [hs]
        nofun
      · rw [hs]
        nofun
  | firstProbe _ hs hw =>
      cases hreading
      refine h.admitted hnow (Nat.lt_succ_self _) rfl rfl nofun nofun (fun _ => rfl)
        (fun _ => rfl) ?_
      intro _ x hx hprobe _
      have hbefore := h.opened hs x hx hprobe
      simp only [Action.reading, Option.getD_some]
      linarith
  | probe _ hs _ =>
      refine h.admitted hnow (Nat.lt_succ_self _) rfl rfl nofun ?_ (fun _ => rfl) (fun _ => hs) ?_
      · rw [hs]
        nofun
      · intro _ x hx hprobe hother
        exact (h.earlier hs x hx hprobe hother).trans hnow
  | unrecorded _ _ _ _ _ =>
      exact h.keep hnow rfl (fun p => admittedProbes_append p _ _) (fun hs => Or.inr ⟨hs, rfl⟩)
        fun hs => ⟨hs, rfl⟩
  | windowed _ _ _ _ _ _ _ hs _ =>
      refine h.keep hnow rfl (fun p => admittedProbes_append p _ _) (fun hs' => ?_) fun hs' => ?_
      · rw [Breaker.windowRecord_state, hs] at hs'
        cases hs'
      · rw [Breaker.windowRecord_state, hs] at hs'
        cases hs'
  | trip _ _ _ _ _ _ _ _ _ =>
      exact h.keep hnow rfl (fun p => admittedProbes_append p _ _)
        (fun _ => Or.inl hreading.symm) nofun
  | probed _ _ _ _ _ _ _ hs _ =>
      refine h.keep hnow rfl (fun p => admittedProbes_append p _ _) (fun hs' => ?_)
        fun _ => ⟨hs, rfl⟩
      rw [hs] at hs'
      cases hs'
  | reopen _ _ _ _ _ _ _ _ _ _ =>
      exact h.keep hnow rfl (fun p => admittedProbes_append p _ _)
        (fun _ => Or.inl hreading.symm) nofun
  | close _ _ _ _ _ _ _ _ _ _ =>
      exact h.keep hnow rfl (fun p => admittedProbes_append p _ _) nofun nofun
  | reset => exact h.keep hnow rfl (fun p => admittedProbes_append p _ _) nofun nofun

/-- The calls of a timed run are calls of the circuit breaker, and come in batches. -/
theorem loadInv_of_reachable {start : ℚ} {t : Timed cfg} (h : (timed Exc cfg start).Reachable t) :
    (calls Exc cfg).Reachable t.sys ∧ LoadInv t := by
  refine h.invariant (I := fun t => (calls Exc cfg).Reachable t.sys ∧ LoadInv t) ?_ ?_
  · exact ⟨⟨[], Machine.Run.nil⟩,
      ⟨fun _ => rfl, nofun, nofun, fun _ => nofun, fun _ => nofun, nofun⟩⟩
  · intro t a t' ⟨hr, hinv⟩ hstep
    refine ⟨?_, loadInv_step hinv hstep⟩
    have hstep : t.step a = some t' := hstep
    simp only [Timed.step] at hstep
    split at hstep
    · cases hstep
    · obtain ⟨s, hs, rfl⟩ := Option.map_eq_some_iff.1 hstep
      exact hr.step hs

/-! ### The load -/

/-- The admissions that come in batches: in an interval there are no more of them than the permitted
probes, and as many again for every wait that fits into it. -/
theorem LoadInv.countP_le {t : Timed cfg} (hinv : LoadInv t)
    (hr : (calls Exc cfg).Reachable t.sys) (hwait : 0 < cfg.waitDurationInOpenState) (s d : ℚ) :
    (t.admissions.countP fun x =>
        x.call.calledIn ≠ .closed ∧ s ≤ x.admittedAt ∧ x.admittedAt ≤ s + d) ≤
      cfg.permittedNumberOfCallsInHalfOpenState.toNat *
        (⌊d / cfg.waitDurationInOpenState⌋₊ + 1) := by
  have hone := cfg.one_le_permitted
  let probes := t.admissions.filter fun x => x.call.calledIn = .halfOpen
  have hprobes : ∀ x ∈ probes, x ∈ t.admissions ∧ x.isProbe := fun x hx =>
    ⟨(List.mem_filter.1 hx).1, of_decide_eq_true (p := x.call.calledIn = .halfOpen)
      (List.mem_filter.1 hx).2⟩
  -- the probes of one period are the permitted ones at most
  have hbatch : ∀ p, probes.countP (·.call.period = p) ≤
      cfg.permittedNumberOfCallsInHalfOpenState.toNat := by
    intro p
    have hadmitted := (System.probeInv_of_reachable hr).admitted p
    have hcount : probes.countP (·.call.period = p) = admittedProbes p t.sys.log := by
      rw [← hinv.logged p, List.countP_filter]
      refine List.countP_congr fun x _ => ?_
      simp [Call.probeOf, and_comm]
    omega
  have hcount := countP_batches_le (fun x => x.admittedAt) (fun x => x.call.period) hwait hbatch
    (fun x hx y hy hne => hinv.apart x (hprobes x hx).1 y (hprobes y hy).1 (hprobes x hx).2
      (hprobes y hy).2 hne) s d
  rw [List.countP_filter] at hcount
  -- no call is admitted in the open state
  refine le_trans (List.countP_mono_left fun x hx hin => ?_) hcount
  have hin := of_decide_eq_true hin
  have hopened := hinv.calledIn x hx
  rw [Bool.and_eq_true, decide_eq_true_eq, decide_eq_true_eq]
  refine ⟨hin.2, ?_⟩
  cases hc : x.call.calledIn with
  | closed => exact absurd hc hin.1
  | opened => exact absurd hc hopened
  | halfOpen => rfl

/-- **The load outside the closed state is bounded.**  Whatever the callers, the outcomes of their
calls and the resets, an interval of length `d` contains no more admissions in a state that is not
closed than the permitted probes, and as many again for every wait that fits into it. -/
theorem probe_load_bounded (cfg : CircuitBreakerConfig Cls) (start : ℚ) (t : Timed cfg)
    (h : (timed Exc cfg start).Reachable t) (hwait : 0 < cfg.waitDurationInOpenState) (s d : ℚ) :
    (t.admissions.countP fun x =>
        x.call.calledIn ≠ .closed ∧ s ≤ x.admittedAt ∧ x.admittedAt ≤ s + d : ℤ) ≤
      cfg.permittedNumberOfCallsInHalfOpenState * (⌊d / cfg.waitDurationInOpenState⌋₊ + 1) := by
  obtain ⟨hr, hinv⟩ := loadInv_of_reachable h
  have hone := cfg.one_le_permitted
  have hcast := Int.ofNat_le.2 (hinv.countP_le hr hwait s d)
  rwa [Nat.cast_mul, Int.toNat_of_nonneg (by omega), Nat.cast_add, Nat.cast_one] at hcast

/-- A probe fails at the instant one, the next comes at the instant two: the bound is attained. -/
theorem probe_load_bounded_attained : ∃ t : Timed tinyConfig,
    (t.admissions.countP fun x =>
        x.call.calledIn ≠ .closed ∧ 1 ≤ x.admittedAt ∧ x.admittedAt ≤ 1 + 1 : ℤ) = 2 ∧
      (t.admissions.countP fun x =>
          x.call.calledIn ≠ .closed ∧ 1 ≤ x.admittedAt ∧ x.admittedAt ≤ 1 + 1 : ℤ) ≤
        tinyConfig.permittedNumberOfCallsInHalfOpenState *
          (⌊1 / tinyConfig.waitDurationInOpenState⌋₊ + 1) := by
  obtain ⟨t, ht, hcount⟩ := Machine.exists_reachable_of_exec (timed Builtin tinyConfig 0)
    [.acquire 0, .complete ⟨0, .closed, 0⟩ (.error .runtimeError) 0, .acquire 1,
      .complete ⟨1, .halfOpen, 2⟩ (.error .runtimeError) 1, .acquire 2]
    (fun t => decide ((t.admissions.countP fun x =>
      x.call.calledIn ≠ .closed ∧ 1 ≤ x.admittedAt ∧ x.admittedAt ≤ 1 + 1 : ℤ) = 2))
    (by decide +kernel)
  exact ⟨t, of_decide_eq_true hcount,
    probe_load_bounded tinyConfig 0 t ht (by decide +kernel) 1 1⟩

/-! ### Recovery -/

namespace System

/-- The side condition on a step: a call that ends in it has succeeded. -/
def healthy (_ : System cfg) : Action Exc → Bool
  | .acquire _ => true
  | .complete _ outcome _ => verdict cfg outcome == some true
  | .reset => false

/-- The results of probes that were recorded so far. -/
def probed (s : System cfg) : ℕ := (probeResults s.log).length

/-- What has become of the open breaker of `s₀` while all calls succeeded: it is untouched as long
as it is open, then it counts the probes and their results, which are all successes, and when it
has closed no failure is in its window. -/
structure Recovering (s₀ s : System cfg) : Prop where
  opened : s.cb.state = .opened → s.cb = s₀.cb ∧ s.nextId = s₀.nextId ∧ s.probed = s₀.probed
  halfOpen : s.cb.state = .halfOpen →
    s.probed = s₀.probed + s.cb.halfOpenResults.length ∧
    (s.cb.halfOpenResults.length : ℤ) < cfg.permittedNumberOfCallsInHalfOpenState ∧
    (∀ r ∈ s.cb.halfOpenResults, r = true) ∧ 0 ≤ s.cb.halfOpenAllowed ∧
    s.nextId + s.cb.halfOpenAllowed = s₀.nextId + cfg.permittedNumberOfCallsInHalfOpenState
  closed : s.cb.state = .closed →
    (s.probed : ℤ) = s₀.probed + cfg.permittedNumberOfCallsInHalfOpenState ∧
    s.cb.CountOk ∧ ∀ x ∈ s.cb.window.items, x = true

/-- Results that are all successes do not open a circuit. -/
theorem not_probesFail {results : List Bool} (h : ∀ r ∈ results, r = true) :
    ¬ Breaker.ProbesFail cfg results := by
  have hzero : results.countP (!·) = 0 := List.countP_eq_zero.2 fun r hr => by simp [h r hr]
  rw [Breaker.ProbesFail, hzero, Nat.cast_zero, zero_div, not_le]
  exact cfg.bounds.1.1

/-- Outcomes that are all successes do not open a circuit. -/
theorem not_tripped {cb : Breaker cfg} (hcount : cb.CountOk) (h : ∀ x ∈ cb.window.items, x = true) :
    ¬ cb.Tripped := by
  rintro ⟨-, hrate⟩
  have hzero : cb.window.items.countP (!·) = 0 :=
    List.countP_eq_zero.2 fun x hx => by simp [h x hx]
  rw [hcount, hzero, Nat.cast_zero, Int.cast_zero, zero_div] at hrate
  exact absurd cfg.bounds.1.1 (not_lt.2 hrate)

/-- A window of successes takes in another one. -/
theorem forall_mem_append {n : ℕ} {d : Deque Bool n} (h : ∀ x ∈ d.items, x = true) :
    ∀ x ∈ (d.append true).items, x = true := by
  intro x hx
  rw [Deque.items_append, List.rtake] at hx
  rcases List.mem_append.1 (List.mem_of_mem_drop hx) with hx | hx
  · exact h x hx
  · exact List.mem_singleton.1 hx

/-- Every entry that is the result of a probe is counted. -/
theorem probed_append (s : System cfg) (cb : Breaker cfg) (p : ℕ) (running : List Call) (n : ℕ)
    (es : List Entry) : (⟨cb, p, running, n, s.log ++ es⟩ : System cfg).probed =
      s.probed + (probeResults es).length := by
  rw [probed, probed, probeResults_append, List.length_append]

/-- A step that leaves the breaker alone and admits no call. -/
theorem Recovering.keep {s₀ s : System cfg} (h : Recovering s₀ s) (running : List Call)
    {es : List Entry} (hes : probeResults es = []) :
    Recovering s₀ { s with running := running, log := s.log ++ es } := by
  have hprobed : ({ s with running := running, log := s.log ++ es } : System cfg).probed =
      s.probed := by rw [probed_append, hes, List.length_nil, Nat.add_zero]
  refine ⟨fun hs => ?_, fun hs => ?_, fun hs => ?_⟩
  · rw [hprobed]
    exact h.opened hs
  · rw [hprobed]
    exact h.halfOpen hs
  · rw [hprobed]
    exact h.closed hs

/-- An outcome that is recorded while the service is healthy is a success. -/
theorem eq_true_of_healthy {s : System cfg} {c : Call} {outcome : Except Exc Unit} {now : ℚ}
    {success : Bool} (ha : healthy s (.complete c outcome now) = true)
    (hv : verdict cfg outcome = some success) : success = true :=
  Option.some_inj.1 (hv.symm.trans (eq_of_beq ha))

/-- A success does not trip the breaker. -/
theorem Recovering.not_trip {s₀ s : System cfg} (h : Recovering s₀ s) (hs : s.cb.state = .closed) :
    ¬ (s.cb.windowRecord true).Tripped := by
  obtain ⟨-, hcount, htrue⟩ := h.closed hs
  exact not_tripped (Breaker.windowRecord_failureCount hcount true) (forall_mem_append htrue)

/-- A success of a probe does not open the breaker again. -/
theorem Recovering.not_reopen {s₀ s : System cfg} (h : Recovering s₀ s)
    (hs : s.cb.state = .halfOpen) :
    ¬ Breaker.ProbesFail cfg (s.cb.halfOpenResults ++ [true]) := by
  obtain ⟨-, -, htrue, -⟩ := h.halfOpen hs
  exact not_probesFail (List.forall_mem_append.2 ⟨htrue, List.forall_mem_singleton.2 rfl⟩)

/-- **Every step of a healthy service leads on.** -/
theorem recovering_step {s₀ s s' : System cfg} {a : Action Exc} (h : Recovering s₀ s)
    (ha : healthy s a = true) (hstep : s.step a = some s') : Recovering s₀ s' := by
  have hone := cfg.one_le_permitted
  cases step_cases hstep with
  | rejected => exact h
  | admitted now hs =>
      refine ⟨fun hs' => absurd (hs.symm.trans hs') nofun,
        fun hs' => absurd (hs.symm.trans hs') nofun, fun _ => ?_⟩
      rw [probed_append]
      exact h.closed hs
  | firstProbe now hs hw =>
      obtain ⟨-, hid, hprobed⟩ := h.opened hs
      refine ⟨nofun, fun _ => ⟨?_, ?_, nofun, ?_, ?_⟩, nofun⟩
      · rw [probed_append]
        exact hprobed
      · exact Int.lt_of_lt_of_le Int.zero_lt_one hone
      · exact Int.sub_nonneg_of_le hone
      · dsimp only
        push_cast
        omega
  | probe now hs hleft =>
      obtain ⟨hprobed, hlen, htrue, -, hid⟩ := h.halfOpen hs
      refine ⟨fun hs' => absurd (hs.symm.trans hs') nofun,
        fun _ => ⟨?_, hlen, htrue, Int.sub_nonneg_of_le hleft, ?_⟩,
        fun hs' => absurd (hs.symm.trans hs') nofun⟩
      · rw [probed_append]
        exact hprobed
      · dsimp only
        push_cast
        omega
  | unrecorded c outcome now _ _ => exact h.keep _ rfl
  | windowed c outcome now success hc hv _ hs hn =>
      cases eq_true_of_healthy ha hv
      obtain ⟨hprobed, hcount, htrue⟩ := h.closed hs
      refine ⟨fun hs' => absurd (hs.symm.trans hs') nofun,
        fun hs' => absurd (hs.symm.trans hs') nofun,
        fun _ => ⟨?_, Breaker.windowRecord_failureCount hcount true, forall_mem_append htrue⟩⟩
      rw [probed_append]
      exact hprobed
  | trip c outcome now success hc hv _ hs ht =>
      cases eq_true_of_healthy ha hv
      exact absurd ht (h.not_trip hs)
  | probed c outcome now success hc hv _ hs hl =>
      cases eq_true_of_healthy ha hv
      obtain ⟨hprobed, hlen, htrue, hallowed, hid⟩ := h.halfOpen hs
      refine ⟨fun hs' => absurd (hs.symm.trans hs') nofun, fun _ => ⟨?_, hl, ?_, hallowed, hid⟩,
        fun hs' => absurd (hs.symm.trans hs') nofun⟩
      · rw [probed_append, hprobed, List.length_append]
        rfl
      · exact List.forall_mem_append.2 ⟨htrue, List.forall_mem_singleton.2 rfl⟩
  | reopen c outcome now success hc hv _ hs _ hf =>
      cases eq_true_of_healthy ha hv
      exact absurd hf (h.not_reopen hs)
  | close c outcome now success hc hv _ hs hl _ =>
      obtain ⟨hprobed, hlen, -, -, -⟩ := h.halfOpen hs
      refine ⟨nofun, nofun, fun _ => ⟨?_, rfl, nofun⟩⟩
      rw [List.length_append, List.length_singleton] at hl
      rw [probed_append, hprobed]
      simp only [probeResults, List.filterMap_cons, List.filterMap_nil, List.length_singleton]
      omega
  | reset => cases ha

/-- A call that comes in the step comes before the wait of the open breaker of `s₀` is over. -/
def Early (s₀ : System cfg) (a : Action Exc) : Prop :=
  ∀ now, a = .acquire now → now < s₀.cb.openedAt + cfg.waitDurationInOpenState

omit [Exceptions Exc Cls] in
/-- The call that comes in a step. -/
theorem early_acquire {s₀ : System cfg} {now : ℚ} : Early s₀ (.acquire now : Action Exc) ↔
    now < s₀.cb.openedAt + cfg.waitDurationInOpenState := by
  simp [Early]

/-- **A step leaves the breaker open exactly if it is early**, and no step opens it again. -/
theorem Recovering.opened_step {s₀ s s' : System cfg} {a : Action Exc} (h : Recovering s₀ s)
    (ha : healthy s a = true) (hstep : s.step a = some s') :
    s'.cb.state = .opened ↔ s.cb.state = .opened ∧ Early s₀ a := by
  have hopenedAt : s.cb.state = .opened → s.cb.openedAt = s₀.cb.openedAt := fun hs => by
    rw [(h.opened hs).1]
  cases step_cases hstep with
  | rejected now hrejected =>
      refine ⟨fun hs => ⟨hs, early_acquire.2 ?_⟩, fun hs => hs.1⟩
      rcases hrejected with ⟨-, hw⟩ | ⟨hh, -⟩
      · rw [hopenedAt hs] at hw
        linarith
      · cases hh.symm.trans hs
  | firstProbe now hs hw =>
      refine iff_of_false nofun fun hs' => ?_
      have hearly := early_acquire.1 hs'.2
      rw [hopenedAt hs] at hw
      linarith
  | unrecorded => simp [Early]
  | trip c outcome now success _ hv _ hs ht =>
      cases eq_true_of_healthy ha hv
      exact absurd ht (h.not_trip hs)
  | reopen c outcome now success _ hv _ hs _ hf =>
      cases eq_true_of_healthy ha hv
      exact absurd hf (h.not_reopen hs)
  | admitted _ hs => simp [hs]
  | probe _ hs => simp [hs]
  | windowed _ _ _ _ _ _ _ hs => simp [hs, Breaker.windowRecord]
  | probed _ _ _ _ _ _ _ hs => simp [hs]
  | close _ _ _ _ _ _ _ hs => simp [hs]
  | reset => cases ha

/-- **The breaker is open as long as all steps are early.** -/
theorem Recovering.opened_exec {s₀ t : System cfg} (bs : List (Action Exc)) :
    ∀ {s : System cfg}, Recovering s₀ s → (calls Exc cfg).exec healthy s bs = some t →
      Recovering s₀ t ∧
        (t.cb.state = .opened ↔ s.cb.state = .opened ∧ ∀ a ∈ bs, Early s₀ a) := by
  induction bs with
  | nil =>
      intro s h hexec
      cases hexec
      exact ⟨h, by simp⟩
  | cons a bs ih =>
      intro s h hexec
      obtain ⟨ha, s', hstep, hexec⟩ := Machine.exec_cons hexec
      obtain ⟨ht, hopened⟩ := ih (recovering_step h ha hstep) hexec
      rw [hopened, h.opened_step ha hstep, List.forall_mem_cons, and_assoc]
      exact ⟨ht, Iff.rfl⟩

end System

/-- **A healthy service is let back in.**  From an open breaker, whatever calls are still in flight
and however the callers interleave, as long as every call that ends succeeds and nobody resets the
breaker: it is open exactly as long as no call has come after the wait, and until then it is the
same; it is closed exactly when as many results of probes as permitted have been recorded, and then
its window holds no failure; and a call that comes after the wait is rejected only while all the
permitted probes have been admitted and too few of them have come back. -/
theorem recovers (cfg : CircuitBreakerConfig Cls) (s t : System cfg) (bs : List (Action Exc))
    (hs : s.cb.state = .opened) (h : (calls Exc cfg).exec System.healthy s bs = some t) :
    (t.cb.state = .opened ↔
      ∀ now, .acquire now ∈ bs → now < s.cb.openedAt + cfg.waitDurationInOpenState) ∧
    (t.cb.state = .opened → t.cb = s.cb ∧ t.nextId = s.nextId) ∧
    (t.cb.state = .closed ↔
      (s.probed : ℤ) + cfg.permittedNumberOfCallsInHalfOpenState ≤ t.probed) ∧
    (t.cb.state = .closed → ∀ x ∈ t.cb.window.items, x = true) ∧
    ∀ now e, s.cb.openedAt + cfg.waitDurationInOpenState ≤ now →
      (t.cb.acquirePermission now).1 = .error e →
        (t.nextId : ℤ) = s.nextId + cfg.permittedNumberOfCallsInHalfOpenState ∧
          (t.probed : ℤ) < s.probed + cfg.permittedNumberOfCallsInHalfOpenState := by
  have hone := cfg.one_le_permitted
  have hinit : System.Recovering s s := ⟨fun _ => ⟨rfl, rfl, rfl⟩,
    fun hs' => absurd (hs.symm.trans hs') nofun, fun hs' => absurd (hs.symm.trans hs') nofun⟩
  obtain ⟨hinv, hopened⟩ := hinit.opened_exec bs h
  have hearly : (∀ a ∈ bs, System.Early s a) ↔
      ∀ now, .acquire now ∈ bs → now < s.cb.openedAt + cfg.waitDurationInOpenState :=
    ⟨fun h now hnow => h _ hnow now rfl, fun h a ha now hnow => h now (hnow ▸ ha)⟩
  refine ⟨hopened.trans ((and_iff_right hs).trans hearly),
    fun ht => ⟨(hinv.opened ht).1, (hinv.opened ht).2.1⟩, ⟨fun ht => ?_, fun hle => ?_⟩,
    fun ht => (hinv.closed ht).2.2, ?_⟩
  · exact (hinv.closed ht).1.ge
  · cases ht : t.cb.state with
    | closed => rfl
    | opened =>
        have := (hinv.opened ht).2.2
        omega
    | halfOpen =>
        obtain ⟨hprobed, hlen, -⟩ := hinv.halfOpen ht
        omega
  · intro now e hnow herror
    have hcase := t.cb.acquire_cases now
    rw [herror] at hcase
    generalize (t.cb.acquirePermission now).2 = cb at hcase
    cases hcase with
    | wait ht hw =>
        rw [(hinv.opened ht).1] at hw
        linarith
    | exhausted ht hexhausted =>
        obtain ⟨hprobed, hlen, -, hallowed, hid⟩ := hinv.halfOpen ht
        exact ⟨by omega, by omega⟩

/-- The recovery after a failure at the instant zero: the probe of the instant one closes the
circuit, while a call that was admitted before the failure is still in flight. -/
theorem recovers_after_failure : ∃ s t : System tinyConfig,
    s.cb.state = .opened ∧ t.running = [⟨0, .closed, 0⟩] ∧ t.cb.state = .closed ∧
      ∀ x ∈ t.cb.window.items, x = true := by
  have h : ((calls Builtin tinyConfig).exec (fun _ _ => true) (System.init tinyConfig)
      [.acquire 0, .acquire 0, .complete ⟨1, .closed, 0⟩ (.error .runtimeError) 0]).any (fun s =>
        ((calls Builtin tinyConfig).exec System.healthy s
          [.acquire 1, .complete ⟨2, .halfOpen, 2⟩ (.ok ()) 1]).any fun t =>
        decide (s.cb.state = .opened ∧ t.running = [⟨0, .closed, 0⟩] ∧
          s.probed + tinyConfig.permittedNumberOfCallsInHalfOpenState ≤ t.probed)) = true := by
    decide +kernel
  simp only [Option.any_eq_true, decide_eq_true_eq] at h
  obtain ⟨s, -, t, hexec, hs, hrun, hprobed⟩ := h
  obtain ⟨-, -, hclosed, hwindow, -⟩ := recovers tinyConfig s t _ hs hexec
  exact ⟨s, t, hs, hrun, hclosed.2 hprobed, hwindow (hclosed.2 hprobed)⟩

end CircuitBreaker
