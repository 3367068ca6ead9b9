/-
The load on a service that is out.

While a service is out every call of it fails.  A new circuit breaker is then closed for as long as
fewer calls have failed than the minimum that its window needs, and is never closed again: the
results of its probes are failures, and open it anew.  So all the load that the service gets is a
few calls at the beginning, as many as may be in flight at once besides, and the probes, which come
one batch for each wait.

Main definitions:

* `CircuitBreaker.Outage` — the condition on the calls of a service that is out;
* `CircuitBreaker.OutageInv` — what becomes of the breaker.

Main results:

* `CircuitBreaker.outageInv_step` — what every step keeps;
* `CircuitBreaker.outage_load_bounded` — **the load on a service that is out is bounded**.
-/

import Pysilience.CircuitBreaker.Load

set_option relaxedAutoImplicit false
set_option autoImplicit false

namespace CircuitBreaker

open ArrivalCurve Python Collections Transition

universe u v

variable {Exc : Type u} {Cls : Type v} [Exceptions Exc Cls] {cfg : CircuitBreakerConfig Cls}

/-! ### Nothing but failures -/

/-- Results that are all failures open a circuit. -/
theorem probesFail_of_failures {results : List Bool} (h : ∀ r ∈ results, r = false)
    (hne : results ≠ []) : Breaker.ProbesFail cfg results := by
  have hall : results.countP (!·) = results.length :=
    List.countP_eq_length.2 fun r hr => by simp [h r hr]
  have hpos : (results.length : ℚ) ≠ 0 := by
    simpa using hne
  rw [Breaker.ProbesFail, hall, div_self hpos]
  exact cfg.bounds.1.2

/-- Outcomes that are all failures open a circuit as soon as there are enough of them. -/
theorem tripped_of_failures {cb : Breaker cfg} (hcount : cb.CountOk)
    (h : ∀ x ∈ cb.window.items, x = false)
    (hmin : cfg.minimumNumberOfCalls ≤ cb.window.items.length) : cb.Tripped := by
  refine ⟨hmin, ?_⟩
  have hone := cfg.one_le_minimumNumberOfCalls
  have hall : cb.window.items.countP (!·) = cb.window.items.length :=
    List.countP_eq_length.2 fun x hx => by simp [h x hx]
  have hpos : (cb.window.items.length : ℚ) ≠ 0 := by
    have : cb.window.items.length ≠ 0 := by omega
    exact_mod_cast this
  rw [hcount, hall, Int.cast_natCast, div_self hpos]
  exact cfg.bounds.1.2

/-! ### The calls of a service that is out -/

/-- The side condition on a step: a call that ends in it has failed, and there are at most
`capacity` calls in flight. -/
def Outage (capacity : ℕ) (t : Timed cfg) : Action Exc → Prop
  | .acquire _ => t.sys.running.length < capacity
  | .complete _ outcome _ => verdict cfg outcome = some false
  | .reset => False

instance (capacity : ℕ) (t : Timed cfg) : (a : Action Exc) → Decidable (Outage capacity t a)
  | .acquire _ => inferInstanceAs (Decidable (_ < _))
  | .complete .. => inferInstanceAs (Decidable (_ = _))
  | .reset => inferInstanceAs (Decidable False)

/-- What has become of a breaker that was new when the outage began. -/
structure OutageInv (cfg : CircuitBreakerConfig Cls) (start : ℚ) (capacity : ℕ) (t : Timed cfg) :
    Prop where
  count : t.sys.cb.CountOk
  started : start ≤ t.clock
  capacity_le : t.sys.running.length ≤ capacity
  running : ∀ c ∈ t.sys.running, ∃ x ∈ t.admissions, x.call = c
  /-- In the closed state every call that has ended is in the window. -/
  closed : t.sys.cb.state = .closed →
    (∀ x ∈ t.admissions, x.call.calledIn = .closed) ∧
    (∀ x ∈ t.sys.cb.window.items, x = false) ∧
    t.admissions.length = t.sys.running.length + t.sys.cb.window.items.length ∧
    (t.sys.cb.window.items.length : ℤ) < cfg.minimumNumberOfCalls
  /-- It was left when enough calls had failed. -/
  left : t.sys.cb.state ≠ .closed →
    (t.sys.running.length : ℤ) + cfg.minimumNumberOfCalls ≤ t.admissions.length
  opened : t.sys.cb.state = .opened → start ≤ t.sys.cb.openedAt
  halfOpen : t.sys.cb.state = .halfOpen → start + cfg.waitDurationInOpenState ≤ t.clock ∧
    ∀ r ∈ t.sys.cb.halfOpenResults, r = false
  early : (t.admissions.countP fun x => x.call.calledIn = .closed : ℤ) ≤
    cfg.minimumNumberOfCalls - 1 + capacity
  late : ∀ x ∈ t.admissions, x.call.calledIn ≠ .closed →
    start + cfg.waitDurationInOpenState ≤ x.admittedAt

namespace OutageInv

variable {start : ℚ} {capacity : ℕ} {t : Timed cfg}

theorem init (cfg : CircuitBreakerConfig Cls) (start : ℚ) (capacity : ℕ) :
    OutageInv cfg start capacity ⟨System.init cfg, start, []⟩ where
  count := rfl
  started := le_rfl
  capacity_le := Nat.zero_le _
  running := nofun
  closed := by
    intro _
    have hone := cfg.one_le_minimumNumberOfCalls
    refine ⟨nofun, nofun, rfl, ?_⟩
    simp only [System.init, Breaker.init, Deque.items_empty, List.length_nil]
    omega
  left := fun h => absurd rfl h
  opened := nofun
  halfOpen := nofun
  early := by
    have hone := cfg.one_le_minimumNumberOfCalls
    rw [List.countP_nil]
    omega
  late := nofun

/-- A section that admits no call. -/
theorem keep (h : OutageInv cfg start capacity t) {s : System cfg} {now : ℚ} (hnow : t.clock ≤ now)
    (hid : s.nextId = t.sys.nextId) (hcount : s.cb.CountOk)
    (hrunning : s.running.Sublist t.sys.running)
    (hclosed : s.cb.state = .closed → t.sys.cb.state = .closed ∧
      (∀ x ∈ s.cb.window.items, x = false) ∧
      t.admissions.length = s.running.length + s.cb.window.items.length ∧
      (s.cb.window.items.length : ℤ) < cfg.minimumNumberOfCalls)
    (hleft : s.cb.state ≠ .closed →
      (s.running.length : ℤ) + cfg.minimumNumberOfCalls ≤ t.admissions.length)
    (hopened : s.cb.state = .opened → start ≤ s.cb.openedAt)
    (hhalfOpen : s.cb.state = .halfOpen → t.sys.cb.state = .halfOpen ∧
      ∀ r ∈ s.cb.halfOpenResults, r = false) :
    OutageInv cfg start capacity ⟨s, now, Timed.newAdmission t.sys s now ++ t.admissions⟩ := by
  rw [Timed.newAdmission_of_eq hid, List.nil_append]
  exact {
    count := hcount
    started := h.started.trans hnow
    capacity_le := hrunning.length_le.trans h.capacity_le
    running := fun c hc => h.running c (hrunning.subset hc)
    closed := fun hs => ⟨(h.closed (hclosed hs).1).1, (hclosed hs).2⟩
    left := hleft
    opened := hopened
    halfOpen := fun hs => ⟨(h.halfOpen (hhalfOpen hs).1).1.trans hnow, (hhalfOpen hs).2⟩
    early := h.early
    late := h.late }

/-- A section that admits a call in the closed state. -/
theorem admitted (h : OutageInv cfg start capacity t) {now : ℚ} (hnow : t.clock ≤ now)
    (hroom : t.sys.running.length < capacity) {s : System cfg} {c : Call}
    (hid : t.sys.nextId < s.nextId) (hcb : s.cb = t.sys.cb) (hs : t.sys.cb.state = .closed)
    (hrunning : s.running = c :: t.sys.running) (hc : c.calledIn = .closed) :
    OutageInv cfg start capacity ⟨s, now, Timed.newAdmission t.sys s now ++ t.admissions⟩ := by
  obtain ⟨hall, hfalse, hlength, hmin⟩ := h.closed hs
  rw [Timed.newAdmission_of_lt hid hrunning, List.singleton_append]
  have hstate : s.cb.state = .closed := by rw [hcb, hs]
  have hlen : s.running.length = t.sys.running.length + 1 := by rw [hrunning, List.length_cons]
  refine {
    count := by rw [hcb]; exact h.count
    started := h.started.trans hnow
    capacity_le := by rw [hlen]; exact hroom
    running := ?_
    closed := fun _ => ⟨List.forall_mem_cons.2 ⟨hc, hall⟩, by rw [hcb]; exact hfalse, ?_,
      by rw [hcb]; exact hmin⟩
    left := fun hne => absurd hstate hne
    opened := fun hs' => absurd (hstate.symm.trans hs') (by simp)
    halfOpen := fun hs' => absurd (hstate.symm.trans hs') (by simp)
    early := ?_
    late := List.forall_mem_cons.2 ⟨fun hne => absurd hc hne, h.late⟩ }
  · intro c' hc'
    rw [hrunning] at hc'
    rcases List.mem_cons.1 hc' with rfl | hc'
    · exact ⟨_, List.mem_cons_self, rfl⟩
    · obtain ⟨x, hx, hcall⟩ := h.running c' hc'
      exact ⟨x, List.mem_cons_of_mem _ hx, hcall⟩
  · rw [List.length_cons, hlen, hcb]
    omega
  · -- fewer calls than needed have ended, and the others are in flight
    have hle : (t.admissions.countP fun x => x.call.calledIn = .closed) ≤ t.admissions.length :=
      List.countP_le_length
    rw [List.countP_cons]
    split <;> omega

/-- A section that admits a probe. -/
theorem probe (h : OutageInv cfg start capacity t) {now : ℚ} (hnow : t.clock ≤ now)
    (hlate : start + cfg.waitDurationInOpenState ≤ now)
    (hroom : t.sys.running.length < capacity) {s : System cfg} {c : Call}
    (hid : t.sys.nextId < s.nextId) (hcount : s.cb.CountOk) (hleft : t.sys.cb.state ≠ .closed)
    (hs : s.cb.state = .halfOpen) (hresults : ∀ r ∈ s.cb.halfOpenResults, r = false)
    (hrunning : s.running = c :: t.sys.running) (hc : c.calledIn = .halfOpen) :
    OutageInv cfg start capacity ⟨s, now, Timed.newAdmission t.sys s now ++ t.admissions⟩ := by
  have hended := h.left hleft
  rw [Timed.newAdmission_of_lt hid hrunning, List.singleton_append]
  have hlen : s.running.length = t.sys.running.length + 1 := by rw [hrunning, List.length_cons]
  refine {
    count := hcount
    started := h.started.trans hnow
    capacity_le := by rw [hlen]; exact hroom
    running := ?_
    closed := fun hs' => absurd (hs.symm.trans hs') (by simp)
    left := fun _ => ?_
    opened := fun hs' => absurd (hs.symm.trans hs') (by simp)
    halfOpen := fun _ => ⟨hlate, hresults⟩
    early := ?_
    late := List.forall_mem_cons.2 ⟨fun _ => hlate, h.late⟩ }
  · intro c' hc'
    rw [hrunning] at hc'
    rcases List.mem_cons.1 hc' with rfl | hc'
    · exact ⟨_, List.mem_cons_self, rfl⟩
    · obtain ⟨x, hx, hcall⟩ := h.running c' hc'
      exact ⟨x, List.mem_cons_of_mem _ hx, hcall⟩
  · rw [hlen, List.length_cons]
    push_cast
    omega
  · rw [List.countP_cons_of_neg (by simp [hc])]
    exact h.early

end OutageInv

/-- A failure that is recorded in a window with room for it. -/
theorem Breaker.windowRecord_failure {cb : Breaker cfg} (hmin :
    (cb.window.items.length : ℤ) < cfg.minimumNumberOfCalls) :
    (cb.windowRecord false).window.items = cb.window.items ++ [false] := by
  have hsize := cfg.bounds.2.2.2.1
  rw [Breaker.windowRecord_window]
  refine Deque.items_append_of_lt ?_ false
  unfold CircuitBreakerConfig.windowSize
  omega

/-- **Every step of an outage keeps the account.** -/
theorem outageInv_step {start : ℚ} {capacity : ℕ} {t t' : Timed cfg} {a : Action Exc}
    (h : OutageInv cfg start capacity t) (ha : Outage capacity t a) (hstep : t.step a = some t') :
    OutageInv cfg start capacity t' := by
  obtain ⟨s, now, hcase, hnow, hreading, rfl⟩ := Timed.step_cases hstep
  -- an outcome that is recorded is a failure
  have hfailure : ∀ {c : Call} {outcome : Except Exc Unit} {now : ℚ} {success : Bool},
      a = .complete c outcome now → verdict cfg outcome = some success → success = false := by
    rintro c outcome now success rfl hv
    exact Option.some_inj.1 (hv.symm.trans ha)
  have hended : ∀ {c : Call}, c ∈ t.sys.running →
      (t.sys.running.erase c).length + 1 = t.sys.running.length := by
    intro c hc
    have hpos := List.length_pos_of_mem hc
    rw [List.length_erase_of_mem hc]
    omega
  cases hcase with
  | rejected now' hs =>
      exact h.keep hnow rfl h.count (List.Sublist.refl _) (fun hs => ⟨hs, (h.closed hs).2⟩) h.left
        h.opened fun hs => ⟨hs, (h.halfOpen hs).2⟩
  | admitted now' hs => exact h.admitted hnow ha (Nat.lt_succ_self _) rfl hs rfl rfl
  | firstProbe now' hs hw =>
      have hopened := h.opened hs
      cases hreading
      simp only [Action.reading, Option.getD_some] at hnow ⊢
      exact h.probe hnow (by linarith) ha (Nat.lt_succ_self _) h.count (by simp [hs]) rfl
        (by simp) rfl rfl
  | probe now' hs hallowed =>
      obtain ⟨hlate, hresults⟩ := h.halfOpen hs
      exact h.probe hnow (hlate.trans hnow) ha (Nat.lt_succ_self _) h.count (by simp [hs]) hs
        hresults rfl rfl
  | unrecorded c outcome now' hc hv =>
      have hlen := hended hc
      refine h.keep hnow rfl h.count List.erase_sublist (fun hs => ?_) (fun hne => ?_) h.opened
        fun hs => ⟨hs, (h.halfOpen hs).2⟩
      · -- in the closed state every call that fails is recorded
        obtain ⟨x, hx, rfl⟩ := h.running c hc
        have hcalled := (h.closed hs).1 x hx
        rcases hv with hv | hv
        · cases hv.symm.trans ha
        · exact absurd ⟨hcalled.trans hs.symm, by simp [hcalled]⟩ hv
      · have hleft := h.left hne
        dsimp only
        omega
  | windowed c outcome now' success hc hv hcalled hs hn =>
      cases hfailure rfl hv
      have hlen := hended hc
      obtain ⟨hall, hfalse, hlength, hmin⟩ := h.closed hs
      have hcount := Breaker.windowRecord_failureCount h.count false
      have hitems := Breaker.windowRecord_failure hmin
      have hfalse' : ∀ x ∈ (t.sys.cb.windowRecord false).window.items, x = false := by
        rw [hitems]
        exact List.forall_mem_append.2 ⟨hfalse, List.forall_mem_singleton.2 rfl⟩
      refine h.keep hnow rfl hcount List.erase_sublist (fun _ => ⟨hs, hfalse', ?_, ?_⟩)
        (fun hne => absurd hs hne) (fun hs' => absurd (hs.symm.trans hs') (by simp))
        fun hs' => absurd (hs.symm.trans hs') (by simp)
      · rw [hitems, List.length_append, List.length_singleton]
        dsimp only
        omega
      · by_contra hge
        exact hn (tripped_of_failures hcount hfalse' (not_lt.1 hge))
  | trip c outcome now' success hc hv hcalled hs ht =>
      cases hfailure rfl hv
      have hlen := hended hc
      obtain ⟨hall, hfalse, hlength, hmin⟩ := h.closed hs
      have hitems := Breaker.windowRecord_failure hmin
      have henough := ht.1
      rw [hitems, List.length_append, List.length_singleton] at henough
      cases hreading
      simp only [Action.reading, Option.getD_some] at hnow ⊢
      refine h.keep hnow rfl (Breaker.windowRecord_failureCount h.count false) List.erase_sublist
        (fun hs' => by simp at hs') (fun _ => ?_) (fun _ => h.started.trans hnow)
        fun hs' => by simp at hs'
      dsimp only
      push_cast at henough
      omega
  | probed c outcome now' success hc hv hcalled hs hlt =>
      cases hfailure rfl hv
      have hlen := hended hc
      have hleft := h.left (by simp [hs])
      refine h.keep hnow rfl h.count List.erase_sublist
        (fun hs' => absurd (hs.symm.trans hs') (by simp)) (fun _ => ?_)
        (fun hs' => absurd (hs.symm.trans hs') (by simp)) fun _ => ⟨hs, ?_⟩
      · dsimp only
        omega
      · exact List.forall_mem_append.2 ⟨(h.halfOpen hs).2, List.forall_mem_singleton.2 rfl⟩
  | reopen c outcome now' success hc hv hcalled hs hle hf =>
      cases hfailure rfl hv
      have hlen := hended hc
      have hleft := h.left (by simp [hs])
      cases hreading
      simp only [Action.reading, Option.getD_some] at hnow ⊢
      refine h.keep hnow rfl h.count List.erase_sublist (fun hs' => by simp at hs') (fun _ => ?_)
        (fun _ => h.started.trans hnow) fun hs' => by simp at hs'
      dsimp only
      omega
  | close c outcome now' success hc hv hcalled hs hle hn =>
      cases hfailure rfl hv
      refine absurd (probesFail_of_failures ?_ (List.append_ne_nil_of_right_ne_nil _
        (List.cons_ne_nil _ _))) hn
      exact List.forall_mem_append.2 ⟨(h.halfOpen hs).2, List.forall_mem_singleton.2 rfl⟩
  | reset => exact ha.elim

/-- The account of every run of an outage. -/
theorem outageInv_of_run {start : ℚ} {capacity : ℕ} {as : List (Action Exc)} {t : Timed cfg}
    (h : (timed Exc cfg start).Run (Outage capacity) as t) : OutageInv cfg start capacity t :=
  h.invariant (.init cfg start capacity) fun _ _ _ _ _ hi ha hstep => outageInv_step hi ha hstep

/-! ### The load -/

/-- The probes of an outage: the permitted ones, for every wait that has passed. -/
theorem OutageInv.countP_probes_le {start : ℚ} {capacity : ℕ} {t : Timed cfg}
    (h : OutageInv cfg start capacity t) (hr : (timed Exc cfg start).Reachable t)
    (hwait : 0 < cfg.waitDurationInOpenState) :
    (t.admissions.countP fun x => x.call.calledIn ≠ .closed) ≤
      cfg.permittedNumberOfCallsInHalfOpenState.toNat *
        ⌊(t.clock - start) / cfg.waitDurationInOpenState⌋₊ := by
  obtain ⟨hcalls, hload⟩ := loadInv_of_reachable hr
  rcases lt_or_ge t.clock (start + cfg.waitDurationInOpenState) with hearly | hlate
  · -- before the first wait is over there are no probes
    have hnone : (t.admissions.countP fun x => x.call.calledIn ≠ .closed) = 0 := by
      refine List.countP_eq_zero.2 fun x hx hprobe => ?_
      have hafter := h.late x hx (of_decide_eq_true hprobe)
      have hpast := hload.past x hx
      linarith
    rw [hnone]
    exact Nat.zero_le _
  · have hcount := hload.countP_le hcalls hwait (start + cfg.waitDurationInOpenState)
      (t.clock - (start + cfg.waitDurationInOpenState))
    have hfloor : ⌊(t.clock - start) / cfg.waitDurationInOpenState⌋₊ =
        ⌊(t.clock - (start + cfg.waitDurationInOpenState)) / cfg.waitDurationInOpenState⌋₊ + 1 := by
      have hnonneg : 0 ≤ (t.clock - (start + cfg.waitDurationInOpenState)) /
          cfg.waitDurationInOpenState := div_nonneg (sub_nonneg.2 hlate) hwait.le
      have hone : (t.clock - start) / cfg.waitDurationInOpenState =
          (t.clock - (start + cfg.waitDurationInOpenState)) / cfg.waitDurationInOpenState + 1 := by
        rw [div_add_one hwait.ne']
        congr 1
        ring
      rw [hone, Nat.floor_add_one hnonneg]
    rw [hfloor]
    refine le_trans (List.countP_mono_left fun x hx hprobe => ?_) hcount
    have hprobe := of_decide_eq_true hprobe
    have hpast := hload.past x hx
    exact decide_eq_true ⟨hprobe, h.late x hx hprobe, by linarith⟩

/-- **The load on a service that is out is bounded.**  From the construction of a breaker on, let
every call that ends have failed, however the callers interleave, with at most `capacity` calls in
flight at a time and without a reset.  The breaker is closed for as long as fewer calls have ended
than the minimum number, and never after; and the calls it has admitted by any time are at most
those, the calls in flight, and the permitted probes for every wait that has passed. -/
theorem outage_load_bounded (cfg : CircuitBreakerConfig Cls)
    (hwait : 0 < cfg.waitDurationInOpenState) (start : ℚ) (capacity : ℕ) (as : List (Action Exc))
    (t : Timed cfg) (h : (timed Exc cfg start).Run (Outage capacity) as t) :
    (t.sys.cb.state = .closed ↔
      (t.admissions.length : ℤ) < t.sys.running.length + cfg.minimumNumberOfCalls) ∧
    (t.admissions.length : ℤ) ≤ cfg.minimumNumberOfCalls - 1 + capacity +
      cfg.permittedNumberOfCallsInHalfOpenState *
        ⌊(t.clock - start) / cfg.waitDurationInOpenState⌋₊ := by
  have hinv := outageInv_of_run h
  constructor
  · constructor
    · intro hs
      obtain ⟨-, -, hlength, hmin⟩ := hinv.closed hs
      omega
    · intro hlt
      by_contra hne
      have hleft := hinv.left hne
      omega
  · have hprobes := hinv.countP_probes_le h.reachable hwait
    have hearly := hinv.early
    have hone := cfg.one_le_permitted
    have hsplit := List.length_eq_countP_add_countP
      (fun x : Admission => decide (x.call.calledIn = .closed)) (l := t.admissions)
    have hothers : (t.admissions.countP fun x => ¬ decide (x.call.calledIn = .closed) = true) =
        t.admissions.countP fun x => x.call.calledIn ≠ .closed :=
      List.countP_congr fun x _ => by simp
    rw [hothers] at hsplit
    have hcast := Int.ofNat_le.2 hprobes
    rw [Nat.cast_mul, Int.toNat_of_nonneg (by omega)] at hcast
    omega

/-- One call fails, and then a probe for each wait: the bound is attained. -/
theorem outage_load_bounded_attained : ∃ t : Timed tinyConfig,
    (t.admissions.length : ℤ) = 3 ∧
      (t.admissions.length : ℤ) ≤ tinyConfig.minimumNumberOfCalls - 1 + 1 +
        tinyConfig.permittedNumberOfCallsInHalfOpenState *
          ⌊(t.clock - 0) / tinyConfig.waitDurationInOpenState⌋₊ ∧ t.clock = 2 := by
  have htest : ∀ (t : Timed tinyConfig) (a : Action Builtin),
      decide (Outage 1 t a) = true → Outage 1 t a := fun _ _ ha => of_decide_eq_true ha
  obtain ⟨t, ht, hcount⟩ := Machine.exists_run_of_exec (timed Builtin tinyConfig 0)
    (fun t a => decide (Outage 1 t a)) htest
    [.acquire 0, .complete ⟨0, .closed, 0⟩ (.error .runtimeError) 0, .acquire 1,
      .complete ⟨1, .halfOpen, 2⟩ (.error .runtimeError) 1, .acquire 2]
    (fun t => decide ((t.admissions.length : ℤ) = 3 ∧ t.clock = 2)) (by decide +kernel)
  obtain ⟨hlength, hclock⟩ := of_decide_eq_true hcount
  exact ⟨t, hlength,
    (outage_load_bounded tinyConfig (by decide +kernel) 0 1 _ t ht).2, hclock⟩

end CircuitBreaker
