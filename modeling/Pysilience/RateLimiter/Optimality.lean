/-
No permit is refused needlessly.

The token bucket, the leaky bucket and the fixed window each keep to a family of limits on the
permits that an interval may contain, and each of them refuses an attempt only where one more permit
would exceed such a limit.  They are greedy, hence no choice among the same attempts that keeps to
the same limits grants more of them, at any time of any run.  The sliding window keeps to its limits
as well; it estimates from two counters and may refuse an attempt that they would allow.

Main definitions:

* `RateLimiter.RateLimitAlgorithm.limits` — the limits of an algorithm;
* `RateLimiter.attempts` — the instants of the attempts of a run.

Main results:

* `RateLimiter.limits_respected` — whichever the algorithm, the permits keep to its limits;
* `RateLimiter.exceeded_of_refused` — where an attempt is refused, a limit would be exceeded;
* `RateLimiter.permits_are_optimal` — **the buckets and the fixed window grant as many attempts as
  their limits allow**.
-/

import Pysilience.Lib.Greedy
import Pysilience.RateLimiter.Contention

set_option relaxedAutoImplicit false
set_option autoImplicit false

namespace RateLimiter

open AlignedWindows ArrivalCurve Greedy LazyMeter Transition

universe u

variable {S : Type u} {limit : ℤ} {period start : ℚ}

/-! ### The limits -/

/-- The token bucket allows a burst of the limit, and what accrues at its rate. -/
def burstLimits (limit : ℤ) (period : ℚ) : Limits ℚ where
  admits s t n := (n : ℚ) ≤ limit + (t - s) * (limit / period)
  mono h hle := (Nat.cast_le.2 hle).trans h

/-- The leaky bucket allows one permit in an interval shorter than its own. -/
def spacingLimits (limit : ℤ) (period : ℚ) : Limits ℚ where
  admits s t n := t - s < period / limit → n ≤ 1
  mono h hle hlen := hle.trans (h hlen)

/-- The fixed window allows the limit in an interval that lies in one window. -/
def windowLimits (limit : ℤ) (period start : ℚ) : Limits ℚ where
  admits s t n := ∀ k, InWindow start period k s → InWindow start period k t → (n : ℤ) ≤ limit
  mono h hle k hs ht := (Nat.cast_le.2 hle).trans (h k hs ht)

/-- The sliding window allows up to twice the limit in an interval no longer than the period. -/
def slidingLimits (limit : ℤ) (period : ℚ) : Limits ℚ where
  admits s t n := t - s ≤ period → (n : ℚ) ≤ limit * (1 + (t - s) / period)
  mono h hle hlen := (Nat.cast_le.2 hle).trans (h hlen)

/-- The limits of an algorithm, for a strategy that was created at the instant `start`. -/
def RateLimitAlgorithm.limits (limit : ℤ) (period start : ℚ) : RateLimitAlgorithm → Limits ℚ
  | tokenBucket => burstLimits limit period
  | leakyBucket => spacingLimits limit period
  | fixedWindow => windowLimits limit period start
  | slidingWindow => slidingLimits limit period

/-- **Whichever the algorithm, the permits keep to its limits.** -/
theorem limits_respected (hl : 1 ≤ limit) (hp : 0 < period) (algorithm : RateLimitAlgorithm)
    {h : History algorithm.State}
    (hr : (runs algorithm.strategy (algorithm.create limit period start) start).Reachable h) :
    (algorithm.limits limit period start).Respects h.grants := by
  intro s t hst
  cases algorithm with
  | tokenBucket =>
      have hi := metered_of_reachable hl hp hr
      exact grantsIn_le_of_readings (hi.metered.nonneg.trans hi.metered.level_le)
        (rate_nonneg hl hp) (grants_subset_readings hr) hi.metered.conforms hst
  | leakyBucket =>
      intro hlen
      have hinterval := interval_pos hl hp
      have hcount := (keptApart_of_reachable hl hp hr).spaced.grantsIn_mul_le hinterval.le hst
      have htwo : (grantsIn h.grants s t : ℚ) < 2 := by
        refine lt_of_mul_lt_mul_right (hcount.trans_lt ?_) hinterval.le
        linarith
      exact Nat.lt_succ_iff.1 (by exact_mod_cast htwo)
  | fixedWindow =>
      intro k hs ht
      refine le_trans (Nat.cast_le.2 ?_) ((fixedInv_of_reachable hl hp hr).bounded k)
      refine List.countP_mono_left fun x _ hx => ?_
      have hx := of_decide_eq_true hx
      exact decide_eq_true ⟨hs.1.trans hx.1, hx.2.trans_lt ht.2⟩
  | slidingWindow => exact (windowInv_of_reachable hl hp hr).conforms s t hst

/-! ### Where an attempt is refused -/

/-- The readings of a run do not lie in the future. -/
theorem readings_le_clock {σ : RateLimitStrategy S} {init : S} {h : History S}
    (hr : (runs σ init start).Reachable h) : ∀ x ∈ h.readings, x ≤ h.clock := by
  refine hr.invariant (I := fun h => ∀ x ∈ h.readings, x ≤ h.clock) ?_ ?_
  · exact fun x hx => (List.mem_singleton.1 hx).le
  · rintro h ⟨query, now⟩ h' hi hstep
    obtain ⟨hnow, rfl⟩ := History.step_eq_some hstep
    exact List.forall_mem_cons.2 ⟨le_rfl, fun x hx => (hi x hx).trans hnow⟩

/-- **Where an attempt is refused, one more permit would exceed a limit.** -/
theorem exceeded_of_refused (hl : 1 ≤ limit) (hp : 0 < period) {algorithm : RateLimitAlgorithm}
    (hgreedy : algorithm ≠ .slidingWindow) {h : History algorithm.State}
    (hr : (runs algorithm.strategy (algorithm.create limit period start) start).Reachable h)
    {now : ℚ} (hnow : h.clock ≤ now)
    (hrefused : (algorithm.strategy.tryAcquire h.strategy now).1 = false) :
    ∃ s ≤ now,
      ¬ (algorithm.limits limit period start).admits s now (grantsIn h.grants s now + 1) := by
  have hreadings := readings_le_clock hr
  have hgrants := grants_subset_readings hr
  cases algorithm with
  | tokenBucket =>
      have hi := metered_of_reachable hl hp hr
      have hrefused : (tokenBucket.tryAcquire h.strategy now).1 = false := hrefused
      rw [tokenBucket_eq, ofMeter, Meter.attempt_fst_eq_false, ← not_le, Meter.avail,
        one_le_tokenBucketMeter_room, tokenBucketMeter_settle, not_le, TokenBucketStrategy.refill,
        hi.capacity, hi.refillRate, hi.lastRefill] at hrefused
      have hone : (1 : ℚ) ≤ limit := by exact_mod_cast hl
      obtain ⟨s, hs, hlt⟩ := hi.metered.exhausted hone hnow hrefused
      refine ⟨s, (hreadings s hs).trans hnow, fun hadmits => absurd hadmits (not_le.2 ?_)⟩
      rwa [Nat.cast_add, Nat.cast_one]
  | leakyBucket =>
      have hapart := keptApart_of_reachable hl hp hr
      obtain ⟨s, hs, hlen⟩ := (hapart.refused_iff hl hp hnow).1 hrefused
      have hle : s ≤ now := (hreadings s (hgrants s hs)).trans hnow
      refine ⟨s, hle, fun hadmits => ?_⟩
      have hcount : 0 < grantsIn h.grants s now :=
        List.countP_pos_iff.2 ⟨s, hs, decide_eq_true ⟨le_rfl, hle⟩⟩
      have := hadmits hlen
      omega
  | fixedWindow =>
      -- after advancing, the counter is the number of permits of the present window
      have hadv := (fixedInv_of_reachable hl hp hr).maybeAdvance hp hnow h.readings
      obtain ⟨k, count, _, hcount, hc⟩ := hadv.counted
      have hrefused : (fixedWindow.tryAcquire h.strategy now).1 = false := hrefused
      rw [fixedWindow_eq, ofMeter, Meter.attempt_fst_eq_false, ← not_le, Meter.avail,
        one_le_fixedWindowMeter_room, fixedWindowMeter_settle] at hrefused
      have hlimit := hadv.valid.limit_eq
      dsimp only at hcount hlimit
      have hbegin : grantsIn h.grants (start + k * period) now = count := by
        rw [← hc.count_eq]
        refine List.countP_congr fun x hx => ?_
        have hle : x ≤ now := hc.grants_le x hx
        constructor
        · intro hin
          obtain ⟨hbegin, hend⟩ := of_decide_eq_true hin
          exact decide_eq_true ⟨hbegin, hend.trans_lt hc.last_mem.2⟩
        · intro hin
          exact decide_eq_true ⟨(of_decide_eq_true hin).1, hle⟩
      refine ⟨start + k * period, hc.last_mem.1, fun hadmits => ?_⟩
      have hle := hadmits k ⟨le_rfl, by linarith [hc.last_mem.1, hc.last_mem.2]⟩ hc.last_mem
      rw [hbegin] at hle
      push_cast at hle
      omega
  | slidingWindow => exact absurd rfl hgreedy

/-! ### Every run -/

/-- The instants of the attempts of a run, the latest first. -/
def attempts (as : List (Query × ℚ)) : List ℚ :=
  as.reverse.filterMap fun a => if a.1 = .tryAcquire then some a.2 else none

theorem attempts_concat (as : List (Query × ℚ)) (query : Query) (now : ℚ) :
    attempts (as ++ [(query, now)]) =
      if query = .tryAcquire then now :: attempts as else attempts as := by
  rw [attempts, List.reverse_append]
  cases query <;> rfl

/-- A strategy that refuses an attempt only where a limit would be exceeded is greedy. -/
theorem granted_of_run {σ : RateLimitStrategy S} {init : S} {L : Limits ℚ}
    (hexceeded : ∀ (h : History S) (now : ℚ), (runs σ init start).Reachable h → h.clock ≤ now →
      (σ.tryAcquire h.strategy now).1 = false →
        ∃ s ≤ now, ¬ L.admits s now (grantsIn h.grants s now + 1))
    {as : List (Query × ℚ)} {h : History S} (hr : (runs σ init start).Run Machine.anything as h) :
    Granted L (attempts as) h.grants ∧ ∀ x ∈ attempts as, x ≤ h.clock := by
  induction hr with
  | nil => exact ⟨.nil, nofun⟩
  | @snoc as h h' a hr _ hstep ih =>
      obtain ⟨query, now⟩ := a
      obtain ⟨hnow, rfl⟩ := History.step_eq_some hstep
      obtain ⟨hgranted, hle⟩ := ih
      have hle : ∀ x ∈ attempts as, x ≤ now := fun x hx => (hle x hx).trans hnow
      rw [attempts_concat]
      cases query with
      | tryAcquire =>
          refine ⟨?_, List.forall_mem_cons.2 ⟨le_rfl, hle⟩⟩
          cases hsuccess : (σ.tryAcquire h.strategy now).1 with
          | true =>
              simp only [RateLimitStrategy.ask, hsuccess, if_true]
              exact hgranted.grant hle
          | false =>
              obtain ⟨s, hs, hfull⟩ := hexceeded h now hr.reachable hnow hsuccess
              simp only [RateLimitStrategy.ask, hsuccess, if_true, Bool.false_eq_true, if_false]
              exact hgranted.refuse hle hs hfull
      | secondsUntilAvailable => exact ⟨hgranted, hle⟩
      | permits => exact ⟨hgranted, hle⟩

/-- **No permit is refused needlessly.**  In every run of the token bucket, the leaky bucket or the
fixed window the permits keep to the limits of the algorithm, and no choice among the same attempts
that keeps to them has granted more, before any instant of the run. -/
theorem permits_are_optimal (config : RateLimiterConfig)
    (hgreedy : config.algorithm ≠ .slidingWindow) (start : ℚ) (as : List (Query × ℚ))
    (h : History config.State) (hr : (config.runs start).Run Machine.anything as h) :
    let limits := config.algorithm.limits config.limitForPeriod config.limitRefreshPeriod start
    h.grants.Sublist (attempts as) ∧ limits.Respects h.grants ∧
    ∀ g', g'.Sublist (attempts as) → limits.Respects g' → Ahead h.grants g' := by
  obtain ⟨hl, hp, _⟩ := config.bounds
  have hgranted := (granted_of_run (fun h now hr hnow hrefused =>
    exceeded_of_refused hl hp hgreedy hr hnow hrefused) hr).1
  exact ⟨hgranted.sublist, limits_respected hl hp config.algorithm hr.reachable,
    fun g' hsub hrespects => hgranted.ahead hsub hrespects⟩

/-- Two permits a second by the token bucket, and five attempts, of which three are granted. -/
theorem permits_are_optimal_after_burst :
    let limits := twoASecond.algorithm.limits twoASecond.limitForPeriod
      twoASecond.limitRefreshPeriod 0
    ∃ (as : List (Query × ℚ)) (h : History twoASecond.State),
      attempts as = [1 / 2, 1 / 4, 0, 0, 0] ∧ h.grants = [1 / 2, 0, 0] ∧
      h.grants.Sublist (attempts as) ∧ limits.Respects h.grants ∧
      ∀ g', g'.Sublist (attempts as) → limits.Respects g' → Ahead h.grants g' := by
  intro limits
  obtain ⟨h, hr, hh⟩ := Machine.exists_run_of_exec (twoASecond.runs 0)
    (fun _ _ => true) (fun _ _ _ => trivial)
    [(.tryAcquire, 0), (.tryAcquire, 0), (.tryAcquire, 0), (.permits, 1 / 8),
      (.tryAcquire, 1 / 4), (.tryAcquire, 1 / 2)]
    (fun h => decide (h.grants = [1 / 2, 0, 0])) (by decide +kernel)
  exact ⟨_, h, by decide +kernel, of_decide_eq_true hh,
    permits_are_optimal twoASecond (by decide) 0 _ h hr⟩

end RateLimiter
