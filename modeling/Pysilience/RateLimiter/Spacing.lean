/-
The leaky bucket keeps its grants apart, and refuses nothing else.

The instant the bucket keeps is one interval after its last grant.  So a grant is never closer than
an interval to the one before it, whatever time passed without calls, and a call is refused only
when a grant was that close: nothing is accumulated, and a late call does not delay the next one.

Main definitions:

* `RateLimiter.KeptApart` — the state of a leaky bucket and the grants it made.

Main results:

* `RateLimiter.keptApart_keptByMeter` — time and grants keep this relation;
* `RateLimiter.KeptApart.refused_iff` — a call is refused when a grant is too close;
* `RateLimiter.leakyBucket_spacing` — **the spacing is exact**, in every run.
-/

import Pysilience.Lib.ArrivalCurve
import Pysilience.RateLimiter.LeakyBucket

set_option relaxedAutoImplicit false
set_option autoImplicit false

namespace RateLimiter

open ArrivalCurve LazyMeter Transition

variable {limit : ℤ} {period : ℚ}

/-! ### The last grant -/

/-- The grants are an interval apart; the next one is allowed an interval after the last one, and
immediately when there is none. -/
structure KeptApart (limit : ℤ) (period : ℚ) (h : History LeakyBucketStrategy) : Prop where
  interval_eq : h.strategy.interval = period / limit
  spaced : Spaced (period / limit) h.grants
  idle : h.grants = [] → h.strategy.nextAllowed ≤ h.clock
  busy : ∀ last ∈ h.grants.head?, h.strategy.nextAllowed = last + period / limit

theorem KeptApart.start (limit : ℤ) (period now : ℚ) :
    KeptApart limit period (History.start (LeakyBucketStrategy.init limit period now) now) where
  interval_eq := rfl
  spaced := Spaced.nil
  idle _ := le_rfl
  busy _ h := nomatch h

/-- Time that passes changes nothing, and a grant is made when the bucket allows it. -/
theorem keptApart_keptByMeter (hl : 1 ≤ limit) (hp : 0 < period) :
    KeptByMeter leakyBucketMeter (KeptApart limit period) where
  settle hs hnow := ⟨hs.interval_eq, hs.spaced, fun h => (hs.idle h).trans hnow, hs.busy⟩
  take {h} hs hroom := by
    have hnext : h.strategy.nextAllowed ≤ h.clock := one_le_leakyBucketMeter_room.1 hroom
    refine ⟨hs.interval_eq, ?_, fun hnil => absurd hnil (List.cons_ne_nil _ _), ?_⟩
    · refine hs.spaced.cons (interval_pos hl hp).le fun last hlast => ?_
      rwa [← hs.busy last hlast]
    · intro last hlast
      obtain rfl : h.clock = last := Option.some_inj.1 hlast
      exact congrArg (h.clock + ·) hs.interval_eq

/-- **A call is refused when a grant is less than an interval before it**, and only then. -/
theorem KeptApart.refused_iff {h : History LeakyBucketStrategy} (hs : KeptApart limit period h)
    (hl : 1 ≤ limit) (hp : 0 < period) {t : ℚ} (ht : h.clock ≤ t) :
    (leakyBucket.tryAcquire h.strategy t).1 = false ↔ ∃ g ∈ h.grants, t - g < period / limit := by
  have hrefused : (leakyBucket.tryAcquire h.strategy t).1 = false ↔ t < h.strategy.nextAllowed := by
    simp only [leakyBucket, LeakyBucketStrategy.tryAcquire]
    split
    · next hle => simpa using hle
    · next hlt => simpa using hlt
  rw [hrefused]
  cases hg : h.grants with
  | nil =>
      have hidle := hs.idle hg
      simp only [List.not_mem_nil, false_and, exists_false, iff_false, not_lt]
      exact hidle.trans ht
  | cons last g =>
      have hbusy : h.strategy.nextAllowed = last + period / limit :=
        hs.busy last (by rw [hg]; rfl)
      rw [hbusy]
      constructor
      · intro hlt
        exact ⟨last, List.mem_cons_self, by linarith⟩
      · rintro ⟨x, hx, hlt⟩
        rcases List.mem_cons.1 hx with rfl | hx
        · linarith
        · -- the last grant is later than the others
          have hspaced := hs.spaced
          rw [hg] at hspaced
          have hlast := (List.pairwise_cons.1 hspaced).1 x hx
          linarith [interval_pos hl hp]

/-! ### Every run -/

/-- **The spacing of the leaky bucket is exact**, in every run.  No interval contains more grants
than one and its length times the rate, whatever time passed before it; and a call is refused
exactly when a grant was made less than the period divided by the limit before it. -/
theorem leakyBucket_spacing (hl : 1 ≤ limit) (hp : 0 < period) {start : ℚ}
    {h : History LeakyBucketStrategy}
    (hr : (runs leakyBucket (LeakyBucketStrategy.init limit period start) start).Reachable h) :
    (∀ s t, s ≤ t → (grantsIn h.grants s t : ℚ) ≤ 1 + (t - s) * limit / period) ∧
    ∀ t, h.clock ≤ t →
      ((leakyBucket.tryAcquire h.strategy t).1 = false ↔
        ∃ g ∈ h.grants, t - g < period / limit) := by
  rw [leakyBucket_eq] at hr
  have hs : KeptApart limit period h :=
    (keptApart_keptByMeter hl hp).reachable (KeptApart.start limit period start) hr
  refine ⟨fun s t hst => ?_, fun t => hs.refused_iff hl hp⟩
  have hd := interval_pos hl hp
  have hcount := hs.spaced.grantsIn_mul_le hd.le hst
  have hlimit : (limit : ℚ) ≠ 0 := by
    have : (1 : ℚ) ≤ limit := by exact_mod_cast hl
    exact (zero_lt_one.trans_le this).ne'
  calc (grantsIn h.grants s t : ℚ) ≤ (t - s + period / limit) / (period / limit) :=
        (le_div_iff₀ hd).2 hcount
    _ = 1 + (t - s) * limit / period := by
        field_simp
        ring

/-- A bucket for two permits a second, idle for a minute: of two calls a quarter of a second apart
the second one is refused, and the third one, half a second after the first, is not. -/
theorem leakyBucket_spacing_afterIdle :
    ∃ h : History LeakyBucketStrategy, h.grants = [121 / 2, 60] ∧
      (∀ s t, s ≤ t → (grantsIn h.grants s t : ℚ) ≤ 1 + (t - s) * (2 : ℤ) / 1) ∧
      ∀ t, h.clock ≤ t →
        ((leakyBucket.tryAcquire h.strategy t).1 = false ↔
          ∃ g ∈ h.grants, t - g < 1 / (2 : ℤ)) := by
  obtain ⟨h, hr, hh⟩ := Machine.exists_reachable_of_exec
    (runs leakyBucket (LeakyBucketStrategy.init 2 1 0) 0)
    [(.tryAcquire, 60), (.tryAcquire, 241 / 4), (.tryAcquire, 121 / 2)]
    (fun h => decide (h.grants = [121 / 2, 60])) (by decide +kernel)
  exact ⟨h, of_decide_eq_true hh, leakyBucket_spacing (by decide) one_pos hr⟩

end RateLimiter
