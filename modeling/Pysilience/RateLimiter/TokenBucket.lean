/-
The token bucket.

`_TokenBucketStrategy` keeps a number of tokens that is refilled lazily: each query first adds what
has accrued since the last one, up to the capacity.  Its tokens are the level of a meter whose
burst is the limit and whose rate is the limit per period, so it grants exactly what the arrival
curve of the meter admits.  Numbers that the source declares as `float` are exact rationals.

Main definitions:

* `RateLimiter.TokenBucketStrategy` — the fields, with `refill` and the three queries;
* `RateLimiter.tokenBucket` — the strategy;
* `RateLimiter.tokenBucketMeter` — the lazy meter that it is.

Main results:

* `RateLimiter.metered_of_reachable` — the tokens are the level of the meter in every run;
* `RateLimiter.token_bucket_exact` — **the token bucket grants no more than its curve, and refuses
  only what would exceed it**;
* `RateLimiter.tokenBucketMeter_lawful`, `RateLimiter.tokenBucketMeter_punctual` — the meter is
  lawful, and its estimate is punctual.
-/

import Pysilience.Lib.ArrivalCurve
import Pysilience.RateLimiter.Metering
import Mathlib.Algebra.Order.Field.Rat

set_option relaxedAutoImplicit false
set_option autoImplicit false

namespace RateLimiter

open ArrivalCurve LazyMeter Transition

/-! ### The strategy -/

/-- The fields of `_TokenBucketStrategy`. -/
structure TokenBucketStrategy where
  capacity : ℤ
  refillRate : ℚ
  tokens : ℚ
  lastRefill : ℚ
  deriving DecidableEq

namespace TokenBucketStrategy

/-- `__init__` at the reading `now`. -/
def init (limit : ℤ) (period now : ℚ) : TokenBucketStrategy where
  capacity := limit
  refillRate := limit / period
  tokens := limit
  lastRefill := now

/-- `_refill`. -/
def refill (b : TokenBucketStrategy) (now : ℚ) : TokenBucketStrategy :=
  { b with
    tokens := min (b.capacity : ℚ) (b.tokens + (now - b.lastRefill) * b.refillRate)
    lastRefill := now }

def tryAcquire (b : TokenBucketStrategy) (now : ℚ) : Bool × TokenBucketStrategy :=
  let b := b.refill now
  if 1 ≤ b.tokens then (true, { b with tokens := b.tokens - 1 }) else (false, b)

def secondsUntilAvailable (b : TokenBucketStrategy) (now : ℚ) : ℚ × TokenBucketStrategy :=
  let b := b.refill now
  if 1 ≤ b.tokens then (0, b) else ((1 - b.tokens) / b.refillRate, b)

def permits (b : TokenBucketStrategy) (now : ℚ) : ℤ × TokenBucketStrategy :=
  let b := b.refill now
  (Python.toInt b.tokens, b)

end TokenBucketStrategy

/-- `_TokenBucketStrategy` as a strategy. -/
def tokenBucket : RateLimitStrategy TokenBucketStrategy where
  tryAcquire := TokenBucketStrategy.tryAcquire
  secondsUntilAvailable := TokenBucketStrategy.secondsUntilAvailable
  permits := TokenBucketStrategy.permits

/-! ### The lazy meter -/

/-- The token bucket as a lazy meter. -/
def tokenBucketMeter : Meter TokenBucketStrategy ℚ where
  settle := TokenBucketStrategy.refill
  room b _ := Python.toInt b.tokens
  wait b _ := if 1 ≤ b.tokens then 0 else (1 - b.tokens) / b.refillRate
  take b _ := { b with tokens := b.tokens - 1 }

@[simp] theorem tokenBucketMeter_settle (b : TokenBucketStrategy) (now : ℚ) :
    tokenBucketMeter.settle b now = b.refill now := rfl

theorem one_le_tokenBucketMeter_room {b : TokenBucketStrategy} {now : ℚ} :
    1 ≤ tokenBucketMeter.room b now ↔ 1 ≤ b.tokens :=
  Python.one_le_toInt

theorem tokenBucketMeter_wait (b : TokenBucketStrategy) (now : ℚ) :
    tokenBucketMeter.wait b now = if 1 ≤ b.tokens then 0 else (1 - b.tokens) / b.refillRate := rfl

theorem tokenBucket_eq : tokenBucket = ofMeter tokenBucketMeter := by
  refine eq_ofMeter (fun b now => ?_) (fun b now => ?_) fun b now => rfl
  · exact if_congr one_le_tokenBucketMeter_room.symm rfl rfl
  · simp only [tokenBucket, TokenBucketStrategy.secondsUntilAvailable, Meter.estimate,
      Meter.delay, tokenBucketMeter_settle, tokenBucketMeter_wait]
    split <;> rfl

/-! ### The tokens are the level of a meter -/

variable {limit : ℤ} {period start : ℚ}

/-- The token bucket for `limit` and `period` keeps its parameters, and its tokens are the level of
the meter for what happened in the run. -/
structure BucketInv (limit : ℤ) (period : ℚ) (h : History TokenBucketStrategy) : Prop where
  capacity : h.strategy.capacity = limit
  refillRate : h.strategy.refillRate = limit / period
  lastRefill : h.strategy.lastRefill = h.clock
  metered : Metered (limit : ℚ) (limit / period) h.readings h.grants h.clock h.strategy.tokens

theorem rate_nonneg (hl : 1 ≤ limit) (hp : 0 < period) : (0 : ℚ) ≤ limit / period := by
  have : (1 : ℚ) ≤ limit := by exact_mod_cast hl
  exact div_nonneg (zero_le_one.trans this) hp.le

theorem rate_pos (hl : 1 ≤ limit) (hp : 0 < period) : (0 : ℚ) < limit / period := by
  have : (1 : ℚ) ≤ limit := by exact_mod_cast hl
  exact div_pos (zero_lt_one.trans_le this) hp

theorem bucketInv_init (hl : 1 ≤ limit) (hp : 0 < period) (start : ℚ) :
    BucketInv limit period (History.start (TokenBucketStrategy.init limit period start) start) where
  capacity := rfl
  refillRate := rfl
  lastRefill := rfl
  metered := by
    have : (1 : ℚ) ≤ limit := by exact_mod_cast hl
    exact Metered.start (zero_le_one.trans this) (rate_nonneg hl hp) start

/-- Refilling is letting time pass. -/
theorem BucketInv.refill {h : History TokenBucketStrategy} (hi : BucketInv limit period h)
    (hl : 1 ≤ limit) (hp : 0 < period) {now : ℚ} (hnow : h.clock ≤ now) :
    BucketInv limit period ⟨h.strategy.refill now, now, now :: h.readings, h.grants⟩ where
  capacity := hi.capacity
  refillRate := hi.refillRate
  lastRefill := rfl
  metered := by
    have htok : (h.strategy.refill now).tokens =
        min (limit : ℚ) (h.strategy.tokens + (now - h.clock) * (limit / period)) := by
      rw [TokenBucketStrategy.refill, hi.capacity, hi.refillRate, hi.lastRefill]
    exact htok ▸ hi.metered.pass (rate_nonneg hl hp) hnow

/-- A grant takes one token. -/
theorem BucketInv.take {h : History TokenBucketStrategy} (hi : BucketInv limit period h)
    (hl : 1 ≤ limit) (hp : 0 < period) (htok : 1 ≤ h.strategy.tokens) :
    BucketInv limit period ⟨{ h.strategy with tokens := h.strategy.tokens - 1 }, h.clock,
      h.readings, h.clock :: h.grants⟩ where
  capacity := hi.capacity
  refillRate := hi.refillRate
  lastRefill := hi.lastRefill
  metered := hi.metered.take (rate_nonneg hl hp) htok

theorem bucketInv_kept (hl : 1 ≤ limit) (hp : 0 < period) :
    KeptByMeter tokenBucketMeter (BucketInv limit period) where
  settle hi hnow := hi.refill hl hp hnow
  take hi hroom := hi.take hl hp (one_le_tokenBucketMeter_room.1 hroom)

/-- The tokens are the level of the meter in every run. -/
theorem metered_of_reachable (hl : 1 ≤ limit) (hp : 0 < period) {h : History TokenBucketStrategy}
    (hr : (runs tokenBucket (TokenBucketStrategy.init limit period start) start).Reachable h) :
    BucketInv limit period h := by
  rw [tokenBucket_eq] at hr
  exact (bucketInv_kept hl hp).reachable (bucketInv_init hl hp start) hr

/-! ### The token bucket is exact -/

/-- **The token bucket is exact.**  In every run its tokens lie between zero and the limit; no
interval that begins at a reading contains more grants than the limit plus what accrues at the
rate of the limit per period; and where a permit is refused, one more grant would exceed that
bound for the interval that begins at some earlier reading. -/
theorem token_bucket_exact (limit : ℤ) (period : ℚ) (hl : 1 ≤ limit) (hp : 0 < period) (start : ℚ)
    (h : History TokenBucketStrategy)
    (hr : (runs tokenBucket (TokenBucketStrategy.init limit period start) start).Reachable h) :
    (0 ≤ h.strategy.tokens ∧ h.strategy.tokens ≤ limit) ∧
    (∀ s ∈ h.readings, ∀ t, s ≤ t →
      (grantsIn h.grants s t : ℚ) ≤ limit + (t - s) * limit / period) ∧
    ∀ t, h.clock ≤ t → (tokenBucket.tryAcquire h.strategy t).1 = false →
      ∃ s ∈ h.readings, limit + (t - s) * limit / period < (grantsIn h.grants s t : ℚ) + 1 := by
  have hi := metered_of_reachable hl hp hr
  refine ⟨⟨hi.metered.nonneg, hi.metered.level_le⟩, fun s hs t hst => ?_, fun t ht hrefused => ?_⟩
  · rw [mul_div_assoc]
    exact hi.metered.conforms s hs t hst
  · -- a refused query has refilled the bucket and found less than one token
    have hlevel : (h.strategy.refill t).tokens < 1 := by
      by_contra hge
      rw [not_lt] at hge
      simp [tokenBucket, TokenBucketStrategy.tryAcquire, hge] at hrefused
    rw [TokenBucketStrategy.refill, hi.capacity, hi.refillRate, hi.lastRefill] at hlevel
    have hone : (1 : ℚ) ≤ limit := by exact_mod_cast hl
    obtain ⟨s, hs, hlt⟩ := hi.metered.exhausted hone ht hlevel
    exact ⟨s, hs, by rwa [mul_div_assoc]⟩

/-- The bucket for two permits a second after two grants at once: a quarter of a second later a
permit is refused. -/
theorem token_bucket_exact_after_burst : ∃ h : History TokenBucketStrategy,
    (h.grants = [0, 0] ∧ (tokenBucket.tryAcquire h.strategy (1 / 4)).1 = false) ∧
    (0 ≤ h.strategy.tokens ∧ h.strategy.tokens ≤ (2 : ℤ)) ∧
    (∀ s ∈ h.readings, ∀ t, s ≤ t →
      (grantsIn h.grants s t : ℚ) ≤ (2 : ℤ) + (t - s) * (2 : ℤ) / 1) ∧
    ∀ t, h.clock ≤ t → (tokenBucket.tryAcquire h.strategy t).1 = false →
      ∃ s ∈ h.readings, (2 : ℤ) + (t - s) * (2 : ℤ) / 1 < (grantsIn h.grants s t : ℚ) + 1 := by
  obtain ⟨h, hr, hh⟩ := Machine.exists_reachable_of_exec
    (runs tokenBucket (TokenBucketStrategy.init 2 1 0) 0)
    [(.tryAcquire, 0), (.permits, 0), (.tryAcquire, 0)]
    (fun h => decide (h.grants = [0, 0] ∧ (tokenBucket.tryAcquire h.strategy (1 / 4)).1 = false))
    (by decide +kernel)
  exact ⟨h, of_decide_eq_true hh, token_bucket_exact 2 1 (by decide) one_pos 0 h hr⟩

/-! ### The meter is lawful -/

namespace TokenBucketStrategy

/-- The states of the token bucket for `limit` and `period` that was last queried at the instant
`now`: it was refilled then, and has at least no tokens and at most its capacity. -/
structure Valid (limit : ℤ) (period : ℚ) (b : TokenBucketStrategy) (now : ℚ) : Prop where
  capacity_eq : b.capacity = limit
  refillRate_eq : b.refillRate = limit / period
  lastRefill_eq : b.lastRefill = now
  tokens_nonneg : 0 ≤ b.tokens
  tokens_le : b.tokens ≤ limit

theorem valid_init (hl : 1 ≤ limit) (period start : ℚ) :
    Valid limit period (init limit period start) start where
  capacity_eq := rfl
  refillRate_eq := rfl
  lastRefill_eq := rfl
  tokens_nonneg := by
    have : (1 : ℚ) ≤ limit := by exact_mod_cast hl
    exact zero_le_one.trans this
  tokens_le := le_rfl

variable {b : TokenBucketStrategy} {t now : ℚ}

/-- The tokens after a refill. -/
theorem Valid.refill_tokens (h : Valid limit period b t) (now : ℚ) :
    (b.refill now).tokens = min (limit : ℚ) (b.tokens + (now - t) * (limit / period)) := by
  rw [refill, h.capacity_eq, h.refillRate_eq, h.lastRefill_eq]

theorem Valid.refill (h : Valid limit period b t) (hl : 1 ≤ limit) (hp : 0 < period)
    (ht : t ≤ now) : Valid limit period (b.refill now) now where
  capacity_eq := h.capacity_eq
  refillRate_eq := h.refillRate_eq
  lastRefill_eq := rfl
  tokens_nonneg := by
    have hlimit : (0 : ℚ) ≤ limit := h.tokens_nonneg.trans h.tokens_le
    have hgain := mul_nonneg (sub_nonneg.2 ht) (rate_nonneg hl hp)
    rw [h.refill_tokens]
    exact le_min hlimit (add_nonneg h.tokens_nonneg hgain)
  tokens_le := by
    rw [h.refill_tokens]
    exact min_le_left _ _

/-- A refill without delay changes nothing. -/
theorem Valid.refill_self (h : Valid limit period b now) : b.refill now = b := by
  have htokens : (b.refill now).tokens = b.tokens := by
    rw [h.refill_tokens, sub_self, zero_mul, add_zero, min_eq_right h.tokens_le]
  have hlast := h.lastRefill_eq
  cases b
  simp only [TokenBucketStrategy.refill] at htokens hlast ⊢
  rw [htokens, hlast]

/-- Refilling twice is refilling once: what was clamped the first time is clamped in the end. -/
theorem Valid.refill_refill (h : Valid limit period b t) (hl : 1 ≤ limit) (hp : 0 < period)
    (ht : t ≤ now) {later : ℚ} (hnow : now ≤ later) :
    (b.refill now).refill later = b.refill later := by
  have htokens : ((b.refill now).refill later).tokens = (b.refill later).tokens := by
    have hgain := mul_nonneg (sub_nonneg.2 hnow) (rate_nonneg hl hp)
    rw [(h.refill hl hp ht).refill_tokens, h.refill_tokens, h.refill_tokens,
      ← min_add_add_right, ← min_assoc, min_eq_left (le_add_of_nonneg_right hgain)]
    ring_nf
  exact TokenBucketStrategy.mk.injEq .. |>.mpr ⟨rfl, rfl, htokens, rfl⟩

/-- Where less than one token is left, what is missing accrues during the wait. -/
theorem Valid.wait_mul_rate (h : Valid limit period b now) (hl : 1 ≤ limit) (hp : 0 < period)
    (hshort : ¬ 1 ≤ b.tokens) :
    tokenBucketMeter.wait b now * (limit / period) = 1 - b.tokens := by
  rw [tokenBucketMeter_wait, if_neg hshort, h.refillRate_eq,
    div_mul_cancel₀ _ (rate_pos hl hp).ne']

end TokenBucketStrategy

/-- The meter of the token bucket is lawful. -/
theorem tokenBucketMeter_lawful (hl : 1 ≤ limit) (hp : 0 < period) :
    tokenBucketMeter.Lawful (TokenBucketStrategy.Valid limit period) where
  settle_valid hs ht := hs.refill hl hp ht
  settle_self hs := hs.refill_self
  settle_settle hs ht hnow := hs.refill_refill hl hp ht hnow
  room_nonneg {b now} hs := by
    have hroom : tokenBucketMeter.room b now = (⌊b.tokens⌋₊ : ℤ) :=
      Python.toInt_of_nonneg hs.tokens_nonneg
    rw [hroom]
    exact Int.natCast_nonneg _
  take_valid hs hroom := by
    have hle := one_le_tokenBucketMeter_room.1 hroom
    exact ⟨hs.capacity_eq, hs.refillRate_eq, hs.lastRefill_eq, sub_nonneg.2 hle,
      (sub_le_self _ zero_le_one).trans hs.tokens_le⟩
  room_take hs hroom := Python.toInt_sub_one (one_le_tokenBucketMeter_room.1 hroom)
  wait_nonneg {b now} hs := by
    rw [tokenBucketMeter_wait]
    split
    · exact le_rfl
    · next hlt =>
      rw [hs.refillRate_eq]
      exact div_nonneg (by linarith) (rate_nonneg hl hp)
  wait_eq_zero {b now} hs := by
    rw [one_le_tokenBucketMeter_room]
    by_cases hle : 1 ≤ b.tokens
    · exact iff_of_true (if_pos hle) hle
    · refine iff_of_false (fun hzero => ?_) hle
      have hwait := hs.wait_mul_rate hl hp hle
      rw [hzero, zero_mul] at hwait
      linarith
  early {b now x} hs hnow hx := by
    by_cases hle : 1 ≤ b.tokens
    · rw [tokenBucketMeter_wait, if_pos hle, add_zero] at hx
      exact absurd hnow (not_le.2 hx)
    · -- what accrues until then is less than what is missing
      have hwait := hs.wait_mul_rate hl hp hle
      have hgain : (x - now) * (limit / period) < tokenBucketMeter.wait b now * (limit / period) :=
        mul_lt_mul_of_pos_right (by linarith) (rate_pos hl hp)
      refine not_le.1 fun hroom => ?_
      have htokens := one_le_tokenBucketMeter_room.1 hroom
      rw [tokenBucketMeter_settle, hs.refill_tokens] at htokens
      linarith [min_le_right (limit : ℚ) (b.tokens + (x - now) * (limit / period))]

/-- The estimate of the token bucket is punctual: after the wait there is one token. -/
theorem tokenBucketMeter_punctual (hl : 1 ≤ limit) (hp : 0 < period) :
    tokenBucketMeter.Punctual (TokenBucketStrategy.Valid limit period) 1 := by
  intro b now hs
  have hself := (tokenBucketMeter_lawful hl hp).settle_self hs
  rw [Meter.arrival, Meter.arrival, Meter.delay, hself, Meter.avail]
  by_cases hle : 1 ≤ b.tokens
  · rw [tokenBucketMeter_wait, if_pos hle, add_zero, hself]
    exact one_le_tokenBucketMeter_room.2 hle
  · have hlimit : (1 : ℚ) ≤ limit := by exact_mod_cast hl
    rw [one_le_tokenBucketMeter_room, tokenBucketMeter_settle, hs.refill_tokens,
      add_sub_cancel_left, hs.wait_mul_rate hl hp hle, add_sub_cancel]
    exact le_min hlimit le_rfl

/-- A token that was taken is missing until the bucket is full. -/
theorem tokenBucketMeter_diminishing :
    tokenBucketMeter.Diminishing (TokenBucketStrategy.Valid limit period) := by
  intro b now later _ _ _
  refine Python.toInt_mono (min_le_min_left _ (add_le_add_left ?_ _))
  exact sub_le_self _ zero_le_one

end RateLimiter
