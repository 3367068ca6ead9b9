/-
The fixed window.

`_FixedWindowStrategy` counts the permits of the current window and begins anew with the next one.
It advances lazily, by the truncated number of windows that have passed; nevertheless its windows
stay aligned to the instant of its construction, and the counter is the number of grants of the
window that contains the present instant.  Numbers that the source declares as `float` are exact
rationals.

Main definitions:

* `RateLimiter.FixedWindowStrategy` — the fields, with `maybeAdvance` and the three queries;
* `RateLimiter.fixedWindow` — the strategy;
* `RateLimiter.fixedWindowMeter` — the lazy meter that it is.

Main results:

* `RateLimiter.fixedInv_of_reachable` — the counter counts the grants of the current window;
* `RateLimiter.fixed_window_exact` — **a permit is refused exactly where its window is full**;
* `RateLimiter.fixedWindowMeter_lawful` — the meter is lawful, and its estimate is punctual.
-/

import Pysilience.Lib.AlignedWindows
import Pysilience.Lib.RollingWindow
import Pysilience.RateLimiter.Metering

set_option relaxedAutoImplicit false
set_option autoImplicit false

namespace RateLimiter

open AlignedWindows ArrivalCurve LazyMeter RollingWindow Transition

/-! ### The strategy -/

/-- The fields of `_FixedWindowStrategy`. -/
structure FixedWindowStrategy where
  limit : ℤ
  period : ℚ
  count : ℤ
  windowStart : ℚ
  deriving DecidableEq

namespace FixedWindowStrategy

/-- `__init__` at the reading `now`. -/
def init (limit : ℤ) (period now : ℚ) : FixedWindowStrategy where
  limit := limit
  period := period
  count := 0
  windowStart := now

/-- `_maybe_advance`. -/
def maybeAdvance (w : FixedWindowStrategy) (now : ℚ) : FixedWindowStrategy :=
  let elapsed := now - w.windowStart
  if w.period ≤ elapsed then
    let windows := Python.toInt (elapsed / w.period)
    { w with
      windowStart := w.windowStart + windows * w.period
      count := 0 }
  else w

def tryAcquire (w : FixedWindowStrategy) (now : ℚ) : Bool × FixedWindowStrategy :=
  let w := w.maybeAdvance now
  if w.count < w.limit then (true, { w with count := w.count + 1 }) else (false, w)

/-- `seconds_until_available`, which reads the clock a second time where the window is full. -/
def secondsUntilAvailable (w : FixedWindowStrategy) (now later : ℚ) : ℚ × FixedWindowStrategy :=
  let w := w.maybeAdvance now
  if w.count < w.limit then (0, w)
  else
    let elapsed := later - w.windowStart
    (max 0 (w.period - elapsed), w)

def permits (w : FixedWindowStrategy) (now : ℚ) : ℤ × FixedWindowStrategy :=
  let w := w.maybeAdvance now
  (max 0 (w.limit - w.count), w)

/-- The state `n` windows later. -/
def roll (w : FixedWindowStrategy) (n : ℕ) : FixedWindowStrategy :=
  { w with
    windowStart := w.windowStart + n * w.period
    count := 0 }

/-- The strategy is moved along the grid of its windows. -/
theorem rolling : Rolling windowStart period roll maybeAdvance where
  start_roll _ _ := rfl
  period_roll _ _ := rfl
  roll_roll w m n _ _ := by
    simp only [roll, Nat.cast_add, add_mul, add_assoc]
  advance_eq w now hp := by
    rw [maybeAdvance]
    split
    · next helapsed =>
      have hint := Python.toInt_of_nonneg (div_nonneg (hp.le.trans helapsed) hp.le)
      simp only [hint, roll, Int.cast_natCast]
    · rfl

@[simp] theorem maybeAdvance_limit (w : FixedWindowStrategy) (now : ℚ) :
    (w.maybeAdvance now).limit = w.limit := by
  rw [maybeAdvance]
  split <;> rfl

@[simp] theorem maybeAdvance_period (w : FixedWindowStrategy) (now : ℚ) :
    (w.maybeAdvance now).period = w.period := by
  rw [maybeAdvance]
  split <;> rfl

end FixedWindowStrategy

/-- `_FixedWindowStrategy` as a strategy: all readings of a query are made at one instant. -/
def fixedWindow : RateLimitStrategy FixedWindowStrategy where
  tryAcquire := FixedWindowStrategy.tryAcquire
  secondsUntilAvailable w now := w.secondsUntilAvailable now now
  permits := FixedWindowStrategy.permits

/-! ### The lazy meter -/

/-- The fixed window as a lazy meter. -/
def fixedWindowMeter : Meter FixedWindowStrategy ℚ where
  settle := FixedWindowStrategy.maybeAdvance
  room w _ := max 0 (w.limit - w.count)
  wait w now := if w.count < w.limit then 0 else max 0 (w.period - (now - w.windowStart))
  take w _ := { w with count := w.count + 1 }

@[simp] theorem fixedWindowMeter_settle (w : FixedWindowStrategy) (now : ℚ) :
    fixedWindowMeter.settle w now = w.maybeAdvance now := rfl

@[simp] theorem fixedWindowMeter_room (w : FixedWindowStrategy) (now : ℚ) :
    fixedWindowMeter.room w now = max 0 (w.limit - w.count) := rfl

theorem one_le_fixedWindowMeter_room {w : FixedWindowStrategy} {now : ℚ} :
    1 ≤ fixedWindowMeter.room w now ↔ w.count < w.limit := by
  rw [fixedWindowMeter_room]
  omega

theorem fixedWindowMeter_wait (w : FixedWindowStrategy) (now : ℚ) :
    fixedWindowMeter.wait w now =
      if w.count < w.limit then 0 else max 0 (w.period - (now - w.windowStart)) := rfl

theorem fixedWindow_eq : fixedWindow = ofMeter fixedWindowMeter := by
  refine eq_ofMeter (fun w now => ?_) (fun w now => ?_) fun w now => rfl
  · exact if_congr one_le_fixedWindowMeter_room.symm rfl rfl
  · simp only [fixedWindow, FixedWindowStrategy.secondsUntilAvailable, Meter.estimate,
      Meter.delay, fixedWindowMeter_settle, fixedWindowMeter_wait]
    split <;> rfl

variable {limit : ℤ} {period start : ℚ}

namespace FixedWindowStrategy

/-- The states of the fixed window for `limit` and `period` that was last queried at the instant
`now`: this instant lies in the current window, and the counter is within the limit. -/
structure Valid (limit : ℤ) (period : ℚ) (w : FixedWindowStrategy) (now : ℚ) : Prop where
  limit_eq : w.limit = limit
  period_eq : w.period = period
  count_nonneg : 0 ≤ w.count
  count_le : w.count ≤ limit
  start_le : w.windowStart ≤ now
  lt_end : now < w.windowStart + period

theorem valid_init (hl : 1 ≤ limit) (hp : 0 < period) (start : ℚ) :
    Valid limit period (init limit period start) start where
  limit_eq := rfl
  period_eq := rfl
  count_nonneg := le_rfl
  count_le := zero_le_one.trans hl
  start_le := le_rfl
  lt_end := lt_add_of_pos_right start hp

variable {w : FixedWindowStrategy} {t now : ℚ}

/-- Advancing keeps the counter or begins anew. -/
theorem Valid.maybeAdvance (h : Valid limit period w t) (hp : 0 < period)
    (ht : t ≤ now) : Valid limit period (w.maybeAdvance now) now := by
  have hp' : 0 < w.period := h.period_eq ▸ hp
  have hcount : (w.maybeAdvance now).count = w.count ∨ (w.maybeAdvance now).count = 0 := by
    rcases rolling.advance_cases hp' now with ⟨_, heq⟩ | ⟨n, _, _, _, heq⟩
    · exact Or.inl (by rw [heq])
    · exact Or.inr (by rw [heq, roll])
  have hnonneg := h.count_nonneg
  have hle := h.count_le
  refine ⟨by rw [maybeAdvance_limit, h.limit_eq], by rw [maybeAdvance_period, h.period_eq],
    by omega, by omega, rolling.start_advance_le hp' (h.start_le.trans ht), ?_⟩
  have hend := rolling.lt_start_advance hp' now
  rwa [h.period_eq] at hend

/-- Within the current window there is nothing to advance. -/
theorem Valid.maybeAdvance_of_lt (h : Valid limit period w t) (hp : 0 < period)
    (hnow : now < w.windowStart + period) : w.maybeAdvance now = w := by
  rw [← h.period_eq] at hp hnow
  exact rolling.advance_of_lt hp hnow

/-- Where the window is full, the wait is what remains of it. -/
theorem Valid.wait_of_full (h : Valid limit period w now) (hfull : ¬ w.count < w.limit) :
    fixedWindowMeter.wait w now = w.windowStart + period - now := by
  have hend := h.lt_end
  rw [fixedWindowMeter_wait, if_neg hfull, h.period_eq, max_eq_right (by linarith)]
  ring

end FixedWindowStrategy

/-- The meter of the fixed window is lawful. -/
theorem fixedWindowMeter_lawful (hp : 0 < period) :
    fixedWindowMeter.Lawful (FixedWindowStrategy.Valid limit period) where
  settle_valid hs ht := hs.maybeAdvance hp ht
  settle_self hs := hs.maybeAdvance_of_lt hp hs.lt_end
  settle_settle hs _ hnow := FixedWindowStrategy.rolling.advance_advance (hs.period_eq ▸ hp) hnow
  room_nonneg _ := le_max_left 0 _
  take_valid hs hroom := by
    have hlt := one_le_fixedWindowMeter_room.1 hroom
    rw [hs.limit_eq] at hlt
    exact ⟨hs.limit_eq, hs.period_eq, Int.le_add_one hs.count_nonneg, hlt, hs.start_le,
      hs.lt_end⟩
  room_take {w now} hs hroom := by
    have hlt := one_le_fixedWindowMeter_room.1 hroom
    have htake : fixedWindowMeter.room (fixedWindowMeter.take w now) now =
        max 0 (w.limit - (w.count + 1)) := rfl
    rw [htake, fixedWindowMeter_room]
    omega
  wait_nonneg {w now} _ := by
    rw [fixedWindowMeter_wait]
    split
    · exact le_rfl
    · exact le_max_left 0 _
  wait_eq_zero {w now} hs := by
    rw [one_le_fixedWindowMeter_room]
    by_cases hlt : w.count < w.limit
    · exact iff_of_true (if_pos hlt) hlt
    · have hend := hs.lt_end
      refine iff_of_false ?_ hlt
      rw [hs.wait_of_full hlt]
      linarith
  early {w now x} hs hle hx := by
    by_cases hlt : w.count < w.limit
    · rw [fixedWindowMeter_wait, if_pos hlt, add_zero] at hx
      exact absurd hle (not_le.2 hx)
    · -- the instant lies in the window that is full
      rw [hs.wait_of_full hlt, add_sub_cancel] at hx
      rw [Meter.avail, fixedWindowMeter_settle, hs.maybeAdvance_of_lt hp hx]
      exact not_le.1 fun hroom => hlt (one_le_fixedWindowMeter_room.1 hroom)

/-- The estimate of the fixed window is punctual: a new window has room. -/
theorem fixedWindowMeter_punctual (hl : 1 ≤ limit) (hp : 0 < period) :
    fixedWindowMeter.Punctual (FixedWindowStrategy.Valid limit period) 1 := by
  intro w now hs
  have hself := (fixedWindowMeter_lawful hp).settle_self hs
  rw [Meter.arrival, Meter.arrival, Meter.delay, hself, Meter.avail]
  by_cases hlt : w.count < w.limit
  · rw [fixedWindowMeter_wait, if_pos hlt, add_zero, hself]
    exact one_le_fixedWindowMeter_room.2 hlt
  · have hroll : w.maybeAdvance (w.windowStart + period) = w.roll 1 := by
      have hperiod := hs.period_eq
      subst hperiod
      exact FixedWindowStrategy.rolling.advance_end hp
    rw [hs.wait_of_full hlt, add_sub_cancel, fixedWindowMeter_settle, hroll,
      one_le_fixedWindowMeter_room]
    have hlimit := hs.limit_eq
    simp only [FixedWindowStrategy.roll]
    omega

/-- A permit that was taken is missing until the end of its window. -/
theorem fixedWindowMeter_diminishing (hp : 0 < period) :
    fixedWindowMeter.Diminishing (FixedWindowStrategy.Valid limit period) := by
  intro w now later hs _ _
  have hp' : 0 < w.period := hs.period_eq ▸ hp
  have hp'' : 0 < (fixedWindowMeter.take w now).period := hp'
  rw [Meter.avail, Meter.avail, fixedWindowMeter_settle, fixedWindowMeter_settle]
  rcases FixedWindowStrategy.rolling.advance_cases hp' later with
    ⟨hlt, heq⟩ | ⟨n, hn, hle, hlt, heq⟩
  · rw [heq, FixedWindowStrategy.rolling.advance_of_lt hp'' hlt]
    exact max_le_max_left 0 (sub_le_sub_left (Int.le_add_one le_rfl) _)
  · rw [heq, FixedWindowStrategy.rolling.advance_eq_roll hp'' hn hle hlt]
    exact le_rfl

/-! ### The counter counts the grants of the current window -/

/-- The state is valid, the windows are aligned to the construction of the strategy, the counter
counts the grants of the current one, and no window has more grants than the limit. -/
structure FixedInv (limit : ℤ) (period start : ℚ) (h : History FixedWindowStrategy) : Prop where
  valid : h.strategy.Valid limit period h.clock
  counted : ∃ (k : ℤ) (count : ℕ), h.strategy.windowStart = start + k * period ∧
    h.strategy.count = count ∧ Counted start period h.grants k h.clock count
  bounded : ∀ k, (grantsInWindow start period k h.grants : ℤ) ≤ limit

theorem fixedInv_init (hl : 1 ≤ limit) (hp : 0 < period) (start : ℚ) :
    FixedInv limit period start
      (History.start (FixedWindowStrategy.init limit period start) start) where
  valid := FixedWindowStrategy.valid_init hl hp start
  counted := ⟨0, 0, by simp [History.start, FixedWindowStrategy.init], rfl, Counted.new hp start⟩
  bounded _ := zero_le_one.trans hl

/-- Advancing is letting time pass. -/
theorem FixedInv.maybeAdvance {h : History FixedWindowStrategy}
    (hi : FixedInv limit period start h) (hp : 0 < period) {now : ℚ} (hnow : h.clock ≤ now)
    (readings : List ℚ) :
    FixedInv limit period start ⟨h.strategy.maybeAdvance now, now, readings, h.grants⟩ where
  valid := hi.valid.maybeAdvance hp hnow
  counted := by
    obtain ⟨k, count, hstart, hcount, hc⟩ := hi.counted
    have hperiod := hi.valid.period_eq
    rcases FixedWindowStrategy.rolling.advance_cases (hperiod ▸ hp) now with
      ⟨hlt, heq⟩ | ⟨n, hn, hle, hlt, heq⟩
    · rw [hperiod, hstart] at hlt
      rw [heq]
      refine ⟨k, count, hstart, hcount, hc.pass hnow ⟨hc.last_mem.1.trans hnow, ?_⟩⟩
      linarith
    · rw [hperiod, hstart] at hle hlt
      rw [heq]
      refine ⟨k + n, 0, ?_, rfl, hc.advance hp (by omega) ⟨?_, ?_⟩⟩
      · rw [FixedWindowStrategy.roll, hperiod, hstart, Int.cast_add, Int.cast_natCast]
        ring
      · rw [Int.cast_add, Int.cast_natCast]
        linarith
      · rw [Int.cast_add, Int.cast_natCast]
        linarith
  bounded := hi.bounded

theorem FixedInv.bounded_toNat {h : History FixedWindowStrategy}
    (hi : FixedInv limit period start h) (k : ℤ) :
    grantsInWindow start period k h.grants ≤ limit.toNat := by
  have := hi.bounded k
  omega

/-- The new grant of a `try_acquire` is counted. -/
theorem FixedInv.grant {h : History FixedWindowStrategy} (hi : FixedInv limit period start h)
    (hp : 0 < period) (hroom : h.strategy.count < h.strategy.limit) :
    FixedInv limit period start ⟨{ h.strategy with count := h.strategy.count + 1 }, h.clock,
      h.readings, h.clock :: h.grants⟩ where
  valid := (fixedWindowMeter_lawful hp).take_valid hi.valid
    (one_le_fixedWindowMeter_room.2 hroom)
  counted := by
    obtain ⟨k, count, hstart, hcount, hc⟩ := hi.counted
    exact ⟨k, count + 1, hstart, by simp [hcount], hc.grant⟩
  bounded j := by
    obtain ⟨k, count, hstart, hcount, hc⟩ := hi.counted
    have hlimit := hi.valid.limit_eq
    have hle : grantsInWindow start period j (h.clock :: h.grants) ≤ limit.toNat :=
      hc.grantsInWindow_grant_le hp (by omega) hi.bounded_toNat j
    dsimp only
    omega

theorem fixedInv_kept (hp : 0 < period) :
    KeptByMeter fixedWindowMeter (FixedInv limit period start) where
  settle hi hnow := hi.maybeAdvance hp hnow _
  take hi hroom := hi.grant hp (one_le_fixedWindowMeter_room.1 hroom)

/-- The counter counts the grants of the current window in every run. -/
theorem fixedInv_of_reachable (hl : 1 ≤ limit) (hp : 0 < period)
    {h : History FixedWindowStrategy}
    (hr : (runs fixedWindow (FixedWindowStrategy.init limit period start) start).Reachable h) :
    FixedInv limit period start h := by
  rw [fixedWindow_eq] at hr
  exact (fixedInv_kept hp).reachable (fixedInv_init hl hp start) hr

/-! ### The fixed window is exact -/

/-- **The fixed window is exact.**  In every run a permit is refused at an instant exactly where the
window that contains it, of those aligned to the construction of the strategy, has as many grants
as the limit; every such window has at most that many grants, and every interval no longer than a
period at most twice as many. -/
theorem fixed_window_exact (limit : ℤ) (period : ℚ) (hl : 1 ≤ limit) (hp : 0 < period) (start : ℚ)
    (h : History FixedWindowStrategy)
    (hr : (runs fixedWindow (FixedWindowStrategy.init limit period start) start).Reachable h) :
    (∀ t, h.clock ≤ t → ∀ k, InWindow start period k t →
      ((fixedWindow.tryAcquire h.strategy t).1 = false ↔
        (grantsInWindow start period k h.grants : ℤ) = limit)) ∧
    (∀ k, (grantsInWindow start period k h.grants : ℤ) ≤ limit) ∧
    ∀ s t, s ≤ t → t - s ≤ period → (grantsIn h.grants s t : ℤ) ≤ 2 * limit := by
  have hi := fixedInv_of_reachable hl hp hr
  refine ⟨fun t ht k hk => ?_, hi.bounded, fun s t _ hlen => ?_⟩
  · -- after advancing, the counter is the number of grants of this very window
    have hadv := hi.maybeAdvance hp ht h.readings
    obtain ⟨j, count, _, hcount, hc⟩ := hadv.counted
    have hjk : j = k := hc.last_mem.unique hp hk
    have hgrants : grantsInWindow start period k h.grants = count := hjk ▸ hc.count_eq
    have hlimit := hadv.valid.limit_eq
    have hle := hadv.valid.count_le
    dsimp only at hcount hlimit hle
    rw [fixedWindow_eq, ofMeter, Meter.attempt_fst_eq_false, ← not_le, Meter.avail,
      one_le_fixedWindowMeter_room, fixedWindowMeter_settle, hgrants]
    omega
  · have hle := grantsIn_le_two_mul hp hi.bounded_toNat hlen
    omega

/-- Two permits in each period, all taken around a boundary: the third attempt of the first window
is refused, those of the second window succeed, and the interval has four grants. -/
theorem fixed_window_exact_at_boundary : ∃ h : History FixedWindowStrategy,
    (h.grants = [1, 1, 9 / 10, 9 / 10] ∧ grantsIn h.grants (9 / 10) 1 = 4) ∧
    (∀ t, h.clock ≤ t → ∀ k, InWindow 0 1 k t →
      ((fixedWindow.tryAcquire h.strategy t).1 = false ↔
        (grantsInWindow 0 1 k h.grants : ℤ) = 2)) ∧
    (∀ k, (grantsInWindow 0 1 k h.grants : ℤ) ≤ 2) ∧
    ∀ s t, s ≤ t → t - s ≤ 1 → (grantsIn h.grants s t : ℤ) ≤ 2 * 2 := by
  obtain ⟨h, hr, hh⟩ := Machine.exists_reachable_of_exec
    (runs fixedWindow (FixedWindowStrategy.init 2 1 0) 0)
    [(.tryAcquire, 9 / 10), (.tryAcquire, 9 / 10), (.tryAcquire, 19 / 20), (.tryAcquire, 1),
      (.permits, 1), (.tryAcquire, 1)]
    (fun h => decide (h.grants = [1, 1, 9 / 10, 9 / 10] ∧ grantsIn h.grants (9 / 10) 1 = 4))
    (by decide +kernel)
  exact ⟨h, of_decide_eq_true hh, fixed_window_exact 2 1 (by decide) one_pos 0 h hr⟩

end RateLimiter
