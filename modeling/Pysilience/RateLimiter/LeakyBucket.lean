/-
The leaky bucket.

`_LeakyBucketStrategy` keeps nothing but the instant from which the next permit is allowed.  A grant
moves this instant to one interval after itself, the interval being the period divided by the limit;
no time that passes without a grant is credited.  The strategy is the simplest of the lazy meters:
its state need not be brought up to date at all.  Numbers that the source declares as `float` are
exact rationals.

Main definitions:

* `RateLimiter.LeakyBucketStrategy` — the fields, and the three queries;
* `RateLimiter.leakyBucket` — the strategy;
* `RateLimiter.leakyBucketMeter` — the lazy meter that it is.

Main results:

* `RateLimiter.leakyBucketMeter_lawful`, `RateLimiter.leakyBucketMeter_punctual` — the meter is
  lawful, and its estimate is punctual.
-/

import Pysilience.RateLimiter.Metering

set_option relaxedAutoImplicit false
set_option autoImplicit false

namespace RateLimiter

open LazyMeter

/-! ### The strategy -/

/-- The fields of `_LeakyBucketStrategy`. -/
structure LeakyBucketStrategy where
  interval : ℚ
  nextAllowed : ℚ
  deriving DecidableEq

namespace LeakyBucketStrategy

/-- `__init__` at the reading `now`. -/
def init (limit : ℤ) (period now : ℚ) : LeakyBucketStrategy where
  interval := period / limit
  nextAllowed := now

def tryAcquire (b : LeakyBucketStrategy) (now : ℚ) : Bool × LeakyBucketStrategy :=
  if b.nextAllowed ≤ now then (true, { b with nextAllowed := now + b.interval }) else (false, b)

def secondsUntilAvailable (b : LeakyBucketStrategy) (now : ℚ) : ℚ × LeakyBucketStrategy :=
  (max 0 (b.nextAllowed - now), b)

def permits (b : LeakyBucketStrategy) (now : ℚ) : ℤ × LeakyBucketStrategy :=
  (if b.nextAllowed ≤ now then 1 else 0, b)

end LeakyBucketStrategy

/-- `_LeakyBucketStrategy` as a strategy. -/
def leakyBucket : RateLimitStrategy LeakyBucketStrategy where
  tryAcquire := LeakyBucketStrategy.tryAcquire
  secondsUntilAvailable := LeakyBucketStrategy.secondsUntilAvailable
  permits := LeakyBucketStrategy.permits

/-! ### The lazy meter -/

/-- The leaky bucket as a lazy meter. -/
def leakyBucketMeter : Meter LeakyBucketStrategy ℚ where
  settle b _ := b
  room b now := if b.nextAllowed ≤ now then 1 else 0
  wait b now := max 0 (b.nextAllowed - now)
  take b now := { b with nextAllowed := now + b.interval }

@[simp] theorem leakyBucketMeter_avail (b : LeakyBucketStrategy) (now : ℚ) :
    leakyBucketMeter.avail b now = leakyBucketMeter.room b now := rfl

theorem leakyBucketMeter_room (b : LeakyBucketStrategy) (now : ℚ) :
    leakyBucketMeter.room b now = if b.nextAllowed ≤ now then 1 else 0 := rfl

theorem one_le_leakyBucketMeter_room {b : LeakyBucketStrategy} {now : ℚ} :
    1 ≤ leakyBucketMeter.room b now ↔ b.nextAllowed ≤ now := by
  rw [leakyBucketMeter_room]
  split
  · next hle => exact iff_of_true le_rfl hle
  · next hlt => exact iff_of_false (by decide) hlt

theorem leakyBucketMeter_wait (b : LeakyBucketStrategy) (now : ℚ) :
    leakyBucketMeter.wait b now = max 0 (b.nextAllowed - now) := rfl

theorem leakyBucket_eq : leakyBucket = ofMeter leakyBucketMeter := by
  refine eq_ofMeter (fun b now => ?_) (fun b now => rfl) fun b now => rfl
  exact if_congr one_le_leakyBucketMeter_room.symm rfl rfl

variable {limit : ℤ} {period : ℚ}

/-- The states of the leaky bucket for `limit` and `period`, at whatever instant it was last
queried. -/
structure LeakyBucketStrategy.Valid (limit : ℤ) (period : ℚ) (b : LeakyBucketStrategy) (_now : ℚ) :
    Prop where
  interval_eq : b.interval = period / limit

theorem LeakyBucketStrategy.valid_init (limit : ℤ) (period start : ℚ) :
    Valid limit period (init limit period start) start where
  interval_eq := rfl

theorem interval_pos (hl : 1 ≤ limit) (hp : 0 < period) : (0 : ℚ) < period / limit := by
  have : (1 : ℚ) ≤ limit := by exact_mod_cast hl
  exact div_pos hp (zero_lt_one.trans_le this)

/-- The meter of the leaky bucket is lawful. -/
theorem leakyBucketMeter_lawful (hl : 1 ≤ limit) (hp : 0 < period) :
    leakyBucketMeter.Lawful (LeakyBucketStrategy.Valid limit period) where
  settle_valid hs _ := ⟨hs.interval_eq⟩
  settle_self _ := rfl
  settle_settle _ _ _ := rfl
  room_nonneg {b now} _ := by
    rw [leakyBucketMeter_room]
    split <;> decide
  take_valid hs _ := ⟨hs.interval_eq⟩
  room_take {b now} hs hroom := by
    -- a grant blocks the bucket for one interval
    have hnext : ¬ now + b.interval ≤ now := by
      rw [hs.interval_eq]
      linarith [interval_pos hl hp]
    have htake : leakyBucketMeter.room (leakyBucketMeter.take b now) now = 0 := if_neg hnext
    have hone : leakyBucketMeter.room b now = 1 := if_pos (one_le_leakyBucketMeter_room.1 hroom)
    rw [htake, hone, sub_self]
  wait_nonneg _ := le_max_left 0 _
  wait_eq_zero {b now} _ := by
    rw [one_le_leakyBucketMeter_room, leakyBucketMeter_wait, max_eq_left_iff, sub_nonpos]
  early {b now x} _ hle hx := by
    refine not_le.1 fun hroom => absurd hx (not_lt.2 ?_)
    have hnext := one_le_leakyBucketMeter_room.1 hroom
    rw [leakyBucketMeter_wait, ← le_sub_iff_add_le']
    exact max_le (sub_nonneg.2 hle) (sub_le_sub_right hnext now)

/-- The estimate of the leaky bucket is punctual: it ends where the next permit is allowed. -/
theorem leakyBucketMeter_punctual :
    leakyBucketMeter.Punctual (LeakyBucketStrategy.Valid limit period) 1 := by
  intro b now _
  have hwait := le_max_right 0 (b.nextAllowed - now)
  rw [Meter.arrival, Meter.arrival, leakyBucketMeter_avail, one_le_leakyBucketMeter_room,
    ← sub_le_iff_le_add']
  exact hwait

/-- The next permit is not allowed any sooner when one is taken. -/
theorem leakyBucketMeter_diminishing :
    leakyBucketMeter.Diminishing (LeakyBucketStrategy.Valid limit period) := by
  intro b now later _ hroom hnow
  have hnext : b.nextAllowed ≤ later := (one_le_leakyBucketMeter_room.1 hroom).trans hnow
  rw [leakyBucketMeter_avail, leakyBucketMeter_avail, leakyBucketMeter_room,
    leakyBucketMeter_room, if_pos hnext]
  split <;> decide

end RateLimiter
