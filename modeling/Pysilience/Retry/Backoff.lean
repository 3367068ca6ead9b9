/-
The waits between the attempts.

The wait after a failed attempt is `initial_interval * multiplier ** k`, capped by `max_interval`
and then multiplied by the jitter.  Two things come of this order.  The power is computed whatever
the other factor and the cap are, and where it overflows, the `OverflowError` takes the place of the
exception of the function.  And the jitter applies to a wait that is already capped, so that a wait
may be longer than the cap.

Main definitions:

* `Retries.RetryConfig.backoff` — the wait, where it can be computed;
* `Retries.RetryableOutcome`, `Retries.WaitsAfter` — which attempts are followed by a wait;
* `Retries.waits` — the waits of a run, slept or reported.

Main results:

* `Retries.RetryConfig.wait_ok_iff` — when a wait can be computed;
* `Retries.Retry.overflow_iff` — when a call ends with an `OverflowError`;
* `Retries.Retry.exec_start_waits` — the waits of a run;
* `Retries.Retry.never_overflows_iff` — **no wait of a configuration overflows**, and when;
* `Retries.Retry.waits_capped_iff` — **no wait of a run exceeds the cap**, and when.
-/

import Pysilience.Retry.Retry
import Mathlib.Algebra.Order.Field.Rat

set_option relaxedAutoImplicit false
set_option autoImplicit false

namespace Retries

open Python Programs Listeners

variable {Exc Cls ω V : Type}

/-! ### The wait after a failed attempt -/

namespace RetryConfig

variable (cfg : RetryConfig Cls) {uniform : ℚ} {i : ℕ}

/-- The wait before it is capped. -/
def interval (i : ℕ) : ℚ := cfg.initialInterval * cfg.multiplier ^ (i - 1)

/-- The wait before the jitter. -/
def capped (i : ℕ) : ℚ :=
  match cfg.maxInterval with
  | some maxInterval => min (cfg.interval i) maxInterval
  | none => cfg.interval i

/-- Jitter is applied. -/
def jitters : Bool := cfg.jitter && decide (0 < cfg.jitterRatio)

/-- The wait. -/
def backoff (uniform : ℚ) (i : ℕ) : ℚ :=
  max 0 (if cfg.jitters then cfg.capped i * uniform else cfg.capped i)

/-- All the computation of a wait can do. -/
theorem wait_eq (hi : 1 ≤ i) : cfg.waitSecondsBeforeRetry uniform i =
    if 2 ^ 1024 ≤ cfg.multiplier ^ (i - 1) then .error ⟨⟩ else .ok (cfg.backoff uniform i) := by
  rw [waitSecondsBeforeRetry, if_neg (Nat.not_lt.2 hi)]
  by_cases h : 2 ^ 1024 ≤ cfg.multiplier ^ (i - 1)
  · have hpow : floatPow cfg.multiplier (i - 1) = .error ⟨⟩ := if_pos h
    simp only [hpow, if_pos h]
    rfl
  · have hpow : floatPow cfg.multiplier (i - 1) = .ok (cfg.multiplier ^ (i - 1)) := if_neg h
    simp only [hpow, if_neg h]
    rfl

/-- A wait can be computed when the power does not overflow. -/
theorem wait_ok_iff (hi : 1 ≤ i) {wait : ℚ} :
    cfg.waitSecondsBeforeRetry uniform i = .ok wait ↔
      cfg.multiplier ^ (i - 1) < 2 ^ 1024 ∧ cfg.backoff uniform i = wait := by
  rw [cfg.wait_eq hi]
  split
  · next h => simp [not_lt.2 h]
  · next h => simp [not_le.1 h]

theorem wait_error_iff (hi : 1 ≤ i) {e : OverflowError} :
    cfg.waitSecondsBeforeRetry uniform i = .error e ↔ 2 ^ 1024 ≤ cfg.multiplier ^ (i - 1) := by
  rw [cfg.wait_eq hi]
  split
  · next h => simp [h]
  · next h => simp [h]

/-- The powers of the multiplier do not overflow when the last one does not. -/
theorem pow_lt_of_last {k n : ℕ} (hk : k ≤ n) (h : cfg.multiplier ^ n < 2 ^ 1024) :
    cfg.multiplier ^ k < 2 ^ 1024 := by
  by_cases hone : cfg.multiplier ≤ 1
  · exact (pow_le_one₀ cfg.bounds.2.2.1 hone).trans_lt (one_lt_pow₀ one_lt_two (by decide))
  · exact (pow_le_pow_right₀ (not_le.1 hone).le hk).trans_lt h

theorem interval_nonneg : 0 ≤ cfg.interval i :=
  mul_nonneg cfg.bounds.2.1 (pow_nonneg cfg.bounds.2.2.1 _)

theorem backoff_nonneg : 0 ≤ cfg.backoff uniform i := le_max_left _ _

/-- A wait exceeds the cap when the jitter makes it longer: the cap was applied before. -/
theorem backoff_le_iff {cap : ℚ} (hcap : cfg.maxInterval = some cap) :
    cfg.backoff uniform i ≤ cap ↔
      cfg.jitters = false ∨ cap = 0 ∨ uniform ≤ 1 ∨ cfg.interval i * uniform ≤ cap := by
  have hnonneg : 0 ≤ cap := cfg.bounds.2.2.2.1 cap hcap
  have hcapped : cfg.capped i = min (cfg.interval i) cap := by
    rw [capped, hcap]
  have hle : cfg.capped i ≤ cap := hcapped.le.trans (min_le_right _ _)
  have h0 : 0 ≤ cfg.capped i := hcapped.ge.trans' (le_min cfg.interval_nonneg hnonneg)
  cases hj : cfg.jitters with
  | false => simpa [backoff, hj, hnonneg] using hle
  | true =>
      have hback : cfg.backoff uniform i ≤ cap ↔ cfg.capped i * uniform ≤ cap := by
        rw [backoff, hj, if_pos rfl, max_le_iff]
        exact and_iff_right hnonneg
      rw [hback]
      constructor
      · intro h
        rcases min_choice (cfg.interval i) cap with hmin | hmin
        · rw [hcapped, hmin] at h
          exact .inr (.inr (.inr h))
        · rw [hcapped, hmin] at h
          rcases hnonneg.eq_or_lt with heq | hpos
          · exact .inr (.inl heq.symm)
          · exact .inr (.inr (.inl (le_of_mul_le_mul_left (by rwa [mul_one]) hpos)))
      · rintro (hfalse | rfl | hu | hint)
        · cases hfalse
        · rw [le_antisymm hle h0, zero_mul]
        · exact (mul_le_of_le_one_right h0 hu).trans hle
        · by_cases hu : uniform ≤ 0
          · exact (mul_nonpos_of_nonneg_of_nonpos h0 hu).trans hnonneg
          · refine (mul_le_mul_of_nonneg_right ?_ (not_le.1 hu).le).trans hint
            exact hcapped.le.trans (min_le_left _ _)

end RetryConfig

/-! ### The waits of a run -/

section Waits

variable [Exceptions Exc Cls]

/-- The wait that something that happened consists in or reports. -/
def entryWait : Entry RetryAction (RetryEvent Exc) → Option ℚ
  | .invoked => none
  | .did (.slept _ seconds) => some seconds
  | .emitted event => event.waitBeforeNext

/-- The waits that were slept or reported, in order. -/
def waits (s : RetryStage Exc ω) : List ℚ := s.trace.filterMap entryWait

/-- An attempt with this outcome is followed by another one, if any is left. -/
def RetryableOutcome (cfg : RetryConfig Cls) : Except Exc V → Prop
  | .ok _ => False
  | .error exc => caught exc = true ∧ cfg.classifiesRetryable exc = true

@[simp] theorem retryableOutcome_error (cfg : RetryConfig Cls) (exc : Exc) :
    RetryableOutcome cfg (.error exc : Except Exc V) ↔
      caught exc = true ∧ cfg.classifiesRetryable exc = true :=
  Iff.rfl

/-- The attempts from number `k` to number `i` all fail, and more attempts are left. -/
structure FailsUpTo (cfg : RetryConfig Cls) (outcomes : ℕ → Except Exc V) (k i : ℕ) : Prop where
  le : k ≤ i
  lt : i < cfg.maxAttempts
  fails : ∀ j, k ≤ j → j ≤ i → RetryableOutcome cfg (outcomes j)

variable {cfg : RetryConfig Cls} {outcomes : ℕ → Except Exc V} {k i : ℕ}

theorem FailsUpTo.head (h : FailsUpTo cfg outcomes k i) :
    RetryableOutcome cfg (outcomes k) ∧ k < cfg.maxAttempts :=
  ⟨h.fails k le_rfl h.le, by have := h.le; have := h.lt; omega⟩

/-- The failures end with an attempt that ends the loop. -/
theorem not_failsUpTo (h : ¬ RetryableOutcome cfg (outcomes k) ∨ cfg.maxAttempts ≤ k) (i : ℕ) :
    ¬ FailsUpTo cfg outcomes k i := by
  intro hfails
  rcases h with hr | hlast
  · exact hr hfails.head.1
  · exact absurd hfails.head.2 (not_lt.2 hlast)

/-- Where no wait can be computed, none can be computed later. -/
theorem FailsUpTo.wait_ne_ok (h : FailsUpTo cfg outcomes k i) (hk : 1 ≤ k)
    (hpow : 2 ^ 1024 ≤ cfg.multiplier ^ (k - 1)) (uniform w : ℚ) :
    cfg.waitSecondsBeforeRetry uniform i ≠ .ok w := by
  intro hw
  have hlt := ((cfg.wait_ok_iff (hk.trans h.le)).1 hw).1
  have hle : k - 1 ≤ i - 1 := Nat.sub_le_sub_right h.le 1
  exact absurd (cfg.pow_lt_of_last hle hlt) (not_lt.2 hpow)

/-- After a failed attempt the next ones decide how far the failures go. -/
theorem failsUpTo_iff (hk : RetryableOutcome cfg (outcomes k)) (hlt : k < cfg.maxAttempts) :
    FailsUpTo cfg outcomes k i ↔ i = k ∨ FailsUpTo cfg outcomes (k + 1) i := by
  constructor
  · intro h
    rcases h.le.eq_or_lt with heq | hle
    · exact .inl heq.symm
    · exact .inr ⟨hle, h.lt, fun j hj => h.fails j (by omega)⟩
  · rintro (rfl | h)
    · refine ⟨le_rfl, hlt, ?_⟩
      intro j hj hji
      rwa [Nat.le_antisymm hji hj]
    · refine ⟨by have := h.le; omega, h.lt, ?_⟩
      intro j hj hji
      rcases hj.eq_or_lt with rfl | hj
      · exact hk
      · exact h.fails j hj hji

namespace Retry

variable {self : Retry Exc Cls ω} {sleeper : Sleeper} {draws : ℕ → ℚ}

theorem waits_note (s : RetryStage Exc ω) (entry : Entry RetryAction (RetryEvent Exc)) :
    waits (s.note entry) = waits s ++ (entryWait entry).toList := by
  rw [waits, Stage.note_trace, List.filterMap_append]
  cases h : entryWait entry <;> simp [h, waits]

theorem waits_notified (s : RetryStage Exc ω) (event : RetryEvent Exc) :
    waits (s.notified self.listeners event) = waits s ++ event.waitBeforeNext.toList :=
  waits_note s (.emitted event)

/-- A wait is reported, and then slept. -/
theorem waits_retried (attempt : ℕ) (exc : Exc) (wait : ℚ) (s : RetryStage Exc ω) :
    waits (self.retried sleeper attempt exc wait s) = waits s ++ [wait, wait] := by
  rw [retried, waits_note, waits_notified, waits_note]
  simp [entryWait, event]

/-- What the loop comes to from an attempt on: whether it ends with an `OverflowError`, and which
waits it adds to those there were. -/
theorem exec_loop_waits (left : ℕ) :
    ∀ (k : ℕ) (s : RetryStage Exc ω), s.calls + 1 = k →
      (k + left : ℤ) = self.config.maxAttempts + 1 →
      ((exec (self.loop (invoke outcomes) sleeper draws left k) s).1 = .error .overflowError ↔
        ∃ i, FailsUpTo self.config outcomes k i ∧ 2 ^ 1024 ≤ self.config.multiplier ^ (i - 1)) ∧
      ∀ w, w ∈ waits (exec (self.loop (invoke outcomes) sleeper draws left k) s).2 ↔ w ∈ waits s ∨
        ∃ i, FailsUpTo self.config outcomes k i ∧
          self.config.waitSecondsBeforeRetry (draws i) i = .ok w := by
  induction left with
  | zero =>
      intro k s _ hk
      have hnone : ∀ i, ¬ FailsUpTo self.config outcomes k i := by
        intro i h
        have := h.head.2
        omega
      simp [loop, hnone]
  | succ left ih =>
      intro k s hs hk
      have hpos : 1 ≤ k := by omega
      subst hs
      rcases hturn : exec
        (self.turn (invoke outcomes) sleeper (draws (s.calls + 1)) (s.calls + 1)) s with ⟨r, s'⟩
      have hstop : ¬ RetryableOutcome self.config (outcomes (s.calls + 1)) ∨
          self.config.maxAttempts ≤ ((s.calls + 1 : ℕ) : ℤ) →
          ∀ i, ¬ FailsUpTo self.config outcomes (s.calls + 1) i := not_failsUpTo
      have hcase := turn_cases self outcomes sleeper (draws (s.calls + 1)) (s.calls + 1) s
      rw [hturn] at hcase
      cases hcase with
      | value h =>
          have hnone := hstop (.inl (by rw [h]; exact id))
          rw [exec_loop_returns hturn]
          simp [hnone, waits_notified, waits_note, entryWait, event]
      | passed h hc =>
          have hnone := hstop (.inl (by rw [h, retryableOutcome_error, hc]; simp))
          rw [exec_loop_raises hturn]
          simp [hnone, waits_note, entryWait]
      | nonRetryable h hc hr =>
          have hnone := hstop (.inl (by rw [h, retryableOutcome_error, hr]; simp))
          rw [exec_loop_raises hturn]
          simp [hnone, waits_notified, waits_note, entryWait, event]
      | exhausted h hc hr hlast =>
          have hnone := hstop (.inr hlast)
          rw [exec_loop_raises hturn]
          simp [hnone, waits_notified, waits_note, entryWait, event]
      | overflow h hc hr hlt hw =>
          rw [exec_loop_raises hturn]
          have hpow := (self.config.wait_error_iff hpos).1 hw
          have hself : FailsUpTo self.config outcomes (s.calls + 1) (s.calls + 1) :=
            (failsUpTo_iff (by rw [h]; exact ⟨hc, hr⟩) hlt).2 (.inl rfl)
          refine ⟨iff_of_true rfl ⟨_, hself, hpow⟩, fun w => ?_⟩
          have hlater : ¬ ∃ i, FailsUpTo self.config outcomes (s.calls + 1) i ∧
              self.config.waitSecondsBeforeRetry (draws i) i = .ok w := by
            rintro ⟨i, hi, hwi⟩
            exact hi.wait_ne_ok hpos hpow (draws i) w hwi
          simp [hlater, waits_note, entryWait]
      | @retried exc wait h hc hr hlt hw =>
          rw [exec_loop_goesOn hturn]
          have hfails : ∀ i, FailsUpTo self.config outcomes (s.calls + 1) i ↔
              i = s.calls + 1 ∨ FailsUpTo self.config outcomes (s.calls + 1 + 1) i :=
            fun i => failsUpTo_iff (by rw [h]; exact ⟨hc, hr⟩) hlt
          obtain ⟨hover, hwaits⟩ := ih (s.calls + 1 + 1)
            (self.retried sleeper (s.calls + 1) exc wait s) (by simp [retried])
            (by push_cast at hk ⊢; omega)
          have hpow := ((self.config.wait_ok_iff hpos).1 hw).1
          constructor
          · rw [hover]
            simp only [hfails, or_and_right, exists_or, exists_eq_left, not_le.2 hpow, false_or]
          · intro w
            rw [hwaits, waits_retried]
            simp only [hfails, or_and_right, exists_or, exists_eq_left, hw, List.mem_append,
              List.mem_cons, List.not_mem_nil, or_false, or_self, Except.ok.injEq, or_assoc,
              eq_comm (a := w)]

/-- The loop starts with the first of the attempts. -/
theorem exec_start_waits (self : Retry Exc Cls ω) (outcomes : ℕ → Except Exc V)
    (sleeper : Sleeper) (draws : ℕ → ℚ) (outside : ω) :
    let run := exec (self.loop (invoke outcomes) sleeper draws self.config.maxAttempts.toNat 1)
      (Stage.start () outside)
    (run.1 = .error .overflowError ↔
      ∃ i, FailsUpTo self.config outcomes 1 i ∧ 2 ^ 1024 ≤ self.config.multiplier ^ (i - 1)) ∧
    ∀ w, w ∈ waits run.2 ↔ ∃ i, FailsUpTo self.config outcomes 1 i ∧
      self.config.waitSecondsBeforeRetry (draws i) i = .ok w := by
  have hmax := self.config.bounds.1
  have hleft : ((1 : ℕ) + self.config.maxAttempts.toNat : ℤ) = self.config.maxAttempts + 1 := by
    omega
  refine ⟨(exec_loop_waits _ 1 _ rfl hleft).1, fun w => ?_⟩
  exact ((exec_loop_waits _ 1 _ rfl hleft).2 w).trans (or_iff_right List.not_mem_nil)

/-- When a call ends with an `OverflowError`. -/
theorem overflow_iff (self : Retry Exc Cls ω) (outcomes : ℕ → Except Exc V) (draws : ℕ → ℚ)
    (outside : ω) :
    (exec (self.execute outcomes draws) (Stage.start () outside)).1 = .error .overflowError ↔
      ∃ i, FailsUpTo self.config outcomes 1 i ∧ 2 ^ 1024 ≤ self.config.multiplier ^ (i - 1) :=
  (exec_start_waits self outcomes .time draws outside).1

/-! ### Waits that overflow -/

/-- Every wait can be computed, and no call ends with an `OverflowError`. -/
def NeverOverflows (self : Retry Exc Cls ω) : Prop :=
  (∀ (i : ℕ) (uniform : ℚ), 1 ≤ i → i < self.config.maxAttempts →
    ∃ wait, self.config.waitSecondsBeforeRetry uniform i = .ok wait) ∧
  ∀ (V : Type) (outcomes : ℕ → Except Exc V) (draws : ℕ → ℚ) (outside : ω),
    (exec (self.execute outcomes draws) (Stage.start () outside)).1 ≠ .error .overflowError ∧
    (exec (self.executeAsync outcomes draws) (Stage.start () outside)).1 ≠ .error .overflowError

/-- **No wait overflows** exactly when the last power that may be computed does not. -/
theorem never_overflows_iff (self : Retry Exc Cls ω) :
    self.NeverOverflows ↔
      self.config.multiplier ^ (self.config.maxAttempts.toNat - 2) < 2 ^ 1024 := by
  have hmax := self.config.bounds.1
  constructor
  · intro h
    by_cases hone : self.config.maxAttempts = 1
    · have hzero : self.config.maxAttempts.toNat - 2 = 0 := by omega
      rw [hzero, pow_zero]
      exact one_lt_pow₀ one_lt_two (by decide)
    · -- the wait before the last attempt
      have hi : 1 ≤ self.config.maxAttempts.toNat - 1 := by omega
      obtain ⟨wait, hwait⟩ := h.1 (self.config.maxAttempts.toNat - 1) 1 hi (by omega)
      have hlt := ((self.config.wait_ok_iff hi).1 hwait).1
      rwa [Nat.sub_sub] at hlt
  · intro h
    have hlt : ∀ i : ℕ, i < self.config.maxAttempts → self.config.multiplier ^ (i - 1) < 2 ^ 1024 :=
      fun i hi => self.config.pow_lt_of_last (by omega) h
    refine ⟨fun i uniform hi hlast => ⟨_, (self.config.wait_ok_iff hi).2 ⟨hlt i hlast, rfl⟩⟩, ?_⟩
    intro V outcomes draws outside
    have hno : ¬ ∃ i, FailsUpTo self.config outcomes 1 i ∧
        2 ^ 1024 ≤ self.config.multiplier ^ (i - 1) := by
      rintro ⟨i, hi, hle⟩
      exact absurd (hlt i hi.lt) (not_lt.2 hle)
    exact ⟨fun hover => hno ((exec_start_waits self outcomes .time draws outside).1.1 hover),
      fun hover => hno ((exec_start_waits self outcomes .asyncio draws outside).1.1 hover)⟩

/-- A configuration with all defaults, other than the number of attempts. -/
def manyAttempts : RetryConfig Builtin where
  maxAttempts := 1026
  retryOn := [.exception]
  accepted := by decide +kernel

/-- With it, a function that always raises the same exception is called 1025 times, with no pause,
and then its caller gets another exception. -/
theorem manyAttempts_overflows :
    ¬ (init manyAttempts none : Retry Builtin Builtin Unit).NeverOverflows ∧
      (exec ((init manyAttempts none).execute (fun _ => (.error .valueError : Except Builtin ℕ))
        fun _ => 1) (Stage.start () ())).1 = .error .overflowError := by
  have hrun : (exec ((init manyAttempts none).execute
      (fun _ => (.error .valueError : Except Builtin ℕ)) fun _ => 1) (Stage.start () ())).1 =
      .error .overflowError := by
    rw [overflow_iff]
    refine ⟨1025, ⟨by decide, by decide, fun j _ _ => ⟨rfl, rfl⟩⟩, le_of_eq ?_⟩
    rfl
  exact ⟨fun h => (h.2 ℕ _ _ ()).1 hrun, hrun⟩

/-! ### Waits that exceed the cap -/

/-- All waits that were slept or reported are between zero and the cap. -/
def WaitsWithin (cap : ℚ) (s : RetryStage Exc ω) : Prop := ∀ w ∈ waits s, 0 ≤ w ∧ w ≤ cap

/-- **No wait of a run exceeds the cap** exactly when the jitter makes no wait of the run longer
than the cap: it is not applied, the cap is zero, it does not make this wait longer, or it makes it
longer but not as long as the cap. -/
theorem waits_capped_iff (self : Retry Exc Cls ω) (outcomes : ℕ → Except Exc V) (draws : ℕ → ℚ)
    (outside : ω) {cap : ℚ} (hcap : self.config.maxInterval = some cap) :
    (WaitsWithin cap (exec (self.execute outcomes draws) (Stage.start () outside)).2 ∧
      WaitsWithin cap (exec (self.executeAsync outcomes draws) (Stage.start () outside)).2) ↔
    ∀ i, FailsUpTo self.config outcomes 1 i → self.config.multiplier ^ (i - 1) < 2 ^ 1024 →
      self.config.jitters = false ∨ cap = 0 ∨ draws i ≤ 1 ∨
        self.config.interval i * draws i ≤ cap := by
  -- the waits of a run, one by one
  have hwithin : ∀ sleeper, WaitsWithin cap (exec (self.loop (invoke outcomes) sleeper draws
      self.config.maxAttempts.toNat 1) (Stage.start () outside)).2 ↔
      ∀ i, FailsUpTo self.config outcomes 1 i → self.config.multiplier ^ (i - 1) < 2 ^ 1024 →
        self.config.backoff (draws i) i ≤ cap := by
    intro sleeper
    have hwaits := (exec_start_waits self outcomes sleeper draws outside).2
    constructor
    · intro h i hi hpow
      exact (h _ ((hwaits _).2 ⟨i, hi, (self.config.wait_ok_iff hi.le).2 ⟨hpow, rfl⟩⟩)).2
    · intro h w hw
      obtain ⟨i, hi, hwi⟩ := (hwaits w).1 hw
      obtain ⟨hpow, rfl⟩ := (self.config.wait_ok_iff hi.le).1 hwi
      exact ⟨self.config.backoff_nonneg, h i hi hpow⟩
  refine (and_congr (hwithin .time) (hwithin .asyncio)).trans (and_self_iff.trans ?_)
  exact forall₃_congr fun i _ _ => self.config.backoff_le_iff hcap

/-- A configuration with a fixed pause, capped at its own length, and jitter. -/
def cappedJitter : RetryConfig Builtin where
  initialInterval := 1
  multiplier := 1
  maxInterval := some 1
  jitter := true
  retryOn := [.exception]
  accepted := by decide +kernel

theorem waits_capped_iff_cappedJitter :
    (WaitsWithin 1 (exec ((init cappedJitter none).execute
        (fun _ => (.error .valueError : Except Builtin ℕ)) fun _ => 9 / 10) (Stage.start () ())).2 ∧
      WaitsWithin 1 (exec ((init cappedJitter none).executeAsync
        (fun _ => (.error .valueError : Except Builtin ℕ)) fun _ => 9 / 10)
        (Stage.start () ())).2) ↔
    ∀ i, FailsUpTo cappedJitter (fun _ => (.error .valueError : Except Builtin ℕ)) 1 i →
      cappedJitter.multiplier ^ (i - 1) < 2 ^ 1024 →
      cappedJitter.jitters = false ∨ (1 : ℚ) = 0 ∨ (9 / 10 : ℚ) ≤ 1 ∨
        cappedJitter.interval i * (9 / 10) ≤ 1 :=
  waits_capped_iff (init cappedJitter none) _ _ () rfl

/-- A draw from the band of the jitter makes every wait longer than the cap. -/
theorem cappedJitter_exceeds :
    (1 - cappedJitter.jitterRatio ≤ 11 / 10 ∧ 11 / 10 ≤ 1 + cappedJitter.jitterRatio) ∧
      ¬ WaitsWithin 1 (exec ((init cappedJitter none).execute
        (fun _ => (.error .valueError : Except Builtin ℕ)) fun _ => 11 / 10)
        (Stage.start () ())).2 := by
  refine ⟨by decide +kernel, fun h => ?_⟩
  have hwait : (11 / 10 : ℚ) ∈ waits (exec ((init cappedJitter none).execute
      (fun _ => (.error .valueError : Except Builtin ℕ)) fun _ => 11 / 10)
      (Stage.start () ())).2 := by decide +kernel
  exact absurd (h _ hwait).2 (by decide +kernel)

end Retry

end Waits

end Retries
