/-
The sliding window.

`_SlidingWindowStrategy` counts the permits of the current window and of the one before it.  A query
first advances to the window that contains the present instant, by one window or by many, and then
weighs the previous count by the part of the previous window that a window ending now still covers.
Each query reads the clock more than once; the functions below take the readings one by one, and the
strategy evaluates all of them at a single instant.  Numbers that the source declares as `float`
are exact rationals.

Main definitions:

* `RateLimiter.SlidingWindowStrategy` — the fields, with `maybeAdvance`, `weightedCount` and the
  three queries;
* `RateLimiter.slidingWindow` — the strategy;
* `RateLimiter.slidingWindowMeter` — the lazy meter that it is.

Main results:

* `RateLimiter.windowInv_of_reachable` — the two counters count the grants of two adjacent windows;
* `RateLimiter.sliding_window_smooth` — **no interval of length `d` up to the period contains more
  than `limit * (1 + d / period)` grants**, wherever it lies;
* `RateLimiter.slidingWindowMeter_lawful`, `RateLimiter.slidingWindowMeter_punctual` — the meter is
  lawful, and waiting twice as estimated leads to a permit;
* `RateLimiter.one_le_avail_after_wait` — once is enough unless the current window is full.
-/

import Pysilience.Lib.AdjacentWindows
import Pysilience.Lib.RollingWindow
import Pysilience.RateLimiter.Metering

set_option relaxedAutoImplicit false
set_option autoImplicit false

namespace RateLimiter

open AdjacentWindows ArrivalCurve LazyMeter RollingWindow Transition

/-! ### The strategy -/

/-- The fields of `_SlidingWindowStrategy`. -/
structure SlidingWindowStrategy where
  limit : ℤ
  period : ℚ
  prevCount : ℤ
  currCount : ℤ
  windowStart : ℚ
  deriving DecidableEq

namespace SlidingWindowStrategy

/-- `__init__` at the reading `now`. -/
def init (limit : ℤ) (period now : ℚ) : SlidingWindowStrategy where
  limit := limit
  period := period
  prevCount := 0
  currCount := 0
  windowStart := now

/-- `_maybe_advance`. -/
def maybeAdvance (w : SlidingWindowStrategy) (now : ℚ) : SlidingWindowStrategy :=
  let elapsed := now - w.windowStart
  if w.period ≤ elapsed then
    let windows := Python.toInt (elapsed / w.period)
    { w with
      prevCount := if windows = 1 then w.currCount else 0
      currCount := 0
      windowStart := w.windowStart + windows * w.period }
  else w

/-- `_weighted_count`, which advances at the reading `now` and weighs at the reading `later`. -/
def weightedCount (w : SlidingWindowStrategy) (now later : ℚ) : ℚ × SlidingWindowStrategy :=
  let w := w.maybeAdvance now
  let elapsed := later - w.windowStart
  let prevWeight := 1 - elapsed / w.period
  (w.prevCount * prevWeight + w.currCount, w)

def tryAcquire (w : SlidingWindowStrategy) (now later : ℚ) : Bool × SlidingWindowStrategy :=
  let (wc, w) := w.weightedCount now later
  if wc + 1 ≤ w.limit then (true, { w with currCount := w.currCount + 1 }) else (false, w)

/-- `seconds_until_available`, whose last reading of the clock is `last`. -/
def secondsUntilAvailable (w : SlidingWindowStrategy) (now later last : ℚ) :
    ℚ × SlidingWindowStrategy :=
  let (wc, w) := w.weightedCount now later
  if wc + 1 ≤ w.limit then (0, w)
  else
    let elapsed := last - w.windowStart
    let remaining := max 0 (w.period - elapsed)
    if 0 < w.prevCount then
      let excess := wc + 1 - w.limit
      let decreaseRate := w.prevCount / w.period
      (min (max 0 (excess / decreaseRate)) remaining, w)
    else (remaining, w)

def permits (w : SlidingWindowStrategy) (now later : ℚ) : ℤ × SlidingWindowStrategy :=
  let (wc, w) := w.weightedCount now later
  (max 0 (Python.toInt (w.limit - wc)), w)

/-- The effective count at an instant of the current window. -/
def effectiveCount (w : SlidingWindowStrategy) (now : ℚ) : ℚ :=
  w.prevCount * (1 - (now - w.windowStart) / w.period) + w.currCount

/-- A permit is granted where the effective count leaves room for it after advancing. -/
theorem tryAcquire_eq (w : SlidingWindowStrategy) (now later : ℚ) :
    w.tryAcquire now later =
      if (w.maybeAdvance now).effectiveCount later + 1 ≤ (w.maybeAdvance now).limit then
        (true, { w.maybeAdvance now with currCount := (w.maybeAdvance now).currCount + 1 })
      else (false, w.maybeAdvance now) := rfl

/-- Answers that come with the same state are told apart by their values only. -/
theorem ite_ite_prod (b c : Prop) [Decidable b] [Decidable c] (x y z : ℚ)
    (w : SlidingWindowStrategy) :
    (if b then (x, w) else if c then (y, w) else (z, w)) =
      (if b then x else if c then y else z, w) := by
  split
  · rfl
  · split <;> rfl

/-- Asking for the wait only advances. -/
theorem secondsUntilAvailable_snd (w : SlidingWindowStrategy) (now later last : ℚ) :
    (w.secondsUntilAvailable now later last).2 = w.maybeAdvance now :=
  congrArg Prod.snd (ite_ite_prod _ _ _ _ _ _)

@[simp] theorem maybeAdvance_limit (w : SlidingWindowStrategy) (now : ℚ) :
    (w.maybeAdvance now).limit = w.limit := by
  rw [maybeAdvance]
  split <;> rfl

@[simp] theorem maybeAdvance_period (w : SlidingWindowStrategy) (now : ℚ) :
    (w.maybeAdvance now).period = w.period := by
  rw [maybeAdvance]
  split <;> rfl

/-- The state `n` windows later. -/
def roll (w : SlidingWindowStrategy) (n : ℕ) : SlidingWindowStrategy :=
  { w with
    prevCount := if n = 1 then w.currCount else 0
    currCount := 0
    windowStart := w.windowStart + n * w.period }

/-- The strategy is moved along the grid of its windows. -/
theorem rolling : Rolling windowStart period roll maybeAdvance where
  start_roll _ _ := rfl
  period_roll _ _ := rfl
  roll_roll w m n hm hn := by
    have h1 : m + n ≠ 1 := by omega
    simp only [roll, if_neg h1, Nat.cast_add, add_mul, ite_self, add_assoc]
  advance_eq w now hp := by
    rw [maybeAdvance]
    split
    · next helapsed =>
      have hint := Python.toInt_of_nonneg (div_nonneg (hp.le.trans helapsed) hp.le)
      simp only [hint, roll, Int.cast_natCast, Nat.cast_eq_one]
    · rfl

/-- Advancing does nothing within the current window, and otherwise moves by a whole number of
windows to the one that contains the present instant. -/
theorem maybeAdvance_cases (w : SlidingWindowStrategy) (hp : 0 < w.period) (now : ℚ) :
    (now < w.windowStart + w.period ∧ w.maybeAdvance now = w) ∨
    ∃ n : ℕ, 1 ≤ n ∧ w.windowStart + n * w.period ≤ now ∧
      now < w.windowStart + n * w.period + w.period ∧
      w.maybeAdvance now =
        { w with
          prevCount := if n = 1 then w.currCount else 0
          currCount := 0
          windowStart := w.windowStart + n * w.period } :=
  rolling.advance_cases hp now

end SlidingWindowStrategy

/-- `_SlidingWindowStrategy` as a strategy: all readings of a query are made at one instant. -/
def slidingWindow : RateLimitStrategy SlidingWindowStrategy where
  tryAcquire w now := w.tryAcquire now now
  secondsUntilAvailable w now := w.secondsUntilAvailable now now now
  permits w now := w.permits now now

/-! ### The lazy meter -/

/-- The sliding window as a lazy meter. -/
def slidingWindowMeter : Meter SlidingWindowStrategy ℚ where
  settle := SlidingWindowStrategy.maybeAdvance
  room w now := max 0 (Python.toInt (w.limit - w.effectiveCount now))
  wait w now :=
    if w.effectiveCount now + 1 ≤ w.limit then 0
    else
      let remaining := max 0 (w.period - (now - w.windowStart))
      if 0 < w.prevCount then
        let excess := w.effectiveCount now + 1 - w.limit
        min (max 0 (excess / (w.prevCount / w.period))) remaining
      else remaining
  take w _ := { w with currCount := w.currCount + 1 }

@[simp] theorem slidingWindowMeter_settle (w : SlidingWindowStrategy) (now : ℚ) :
    slidingWindowMeter.settle w now = w.maybeAdvance now := rfl

theorem slidingWindowMeter_room (w : SlidingWindowStrategy) (now : ℚ) :
    slidingWindowMeter.room w now = max 0 (Python.toInt (w.limit - w.effectiveCount now)) := rfl

theorem one_le_slidingWindowMeter_room {w : SlidingWindowStrategy} {now : ℚ} :
    1 ≤ slidingWindowMeter.room w now ↔ w.effectiveCount now + 1 ≤ w.limit := by
  rw [slidingWindowMeter_room, le_max_iff, or_iff_right (by decide), Python.one_le_toInt,
    le_sub_iff_add_le']

theorem slidingWindowMeter_wait_of_le {w : SlidingWindowStrategy} {now : ℚ}
    (h : w.effectiveCount now + 1 ≤ w.limit) : slidingWindowMeter.wait w now = 0 :=
  if_pos h

theorem slidingWindow_eq : slidingWindow = ofMeter slidingWindowMeter := by
  refine eq_ofMeter (fun w now => ?_) (fun w now => ?_) fun w now => rfl
  · exact if_congr one_le_slidingWindowMeter_room.symm rfl rfl
  · exact SlidingWindowStrategy.ite_ite_prod _ _ _ _ _ _

/-! ### The counters are those of two adjacent windows -/

variable {limit : ℤ} {period start : ℚ}

/-- The counters of the strategy count the grants of two adjacent windows and stay within the
limit, and the grants conform to the curve over intervals no longer than a window. -/
structure WindowInv (limit : ℤ) (period : ℚ) (h : History SlidingWindowStrategy) : Prop where
  limit_eq : h.strategy.limit = limit
  period_eq : h.strategy.period = period
  counted : ∃ previous current : ℕ,
    (h.strategy.prevCount = previous ∧ h.strategy.currCount = current) ∧
    ((previous : ℤ) ≤ limit ∧ (current : ℤ) ≤ limit) ∧
    Counted period h.grants h.strategy.windowStart h.clock previous current
  conforms : ∀ s t, s ≤ t → t - s ≤ period →
    (grantsIn h.grants s t : ℚ) ≤ limit * (1 + (t - s) / period)

theorem windowInv_init (hl : 1 ≤ limit) (hp : 0 < period) (start : ℚ) :
    WindowInv limit period
      (History.start (SlidingWindowStrategy.init limit period start) start) where
  limit_eq := rfl
  period_eq := rfl
  counted := ⟨0, 0, ⟨rfl, rfl⟩, ⟨by omega, by omega⟩, Counted.new hp start⟩
  conforms s t hst _ := by
    have hlimit : (0 : ℚ) ≤ limit := by exact_mod_cast zero_le_one.trans hl
    have : 0 ≤ (t - s) / period := div_nonneg (sub_nonneg.2 hst) hp.le
    exact mul_nonneg hlimit (by linarith)

/-- Advancing is letting time pass. -/
theorem WindowInv.maybeAdvance {h : History SlidingWindowStrategy}
    (hi : WindowInv limit period h) (hl : 1 ≤ limit) (hp : 0 < period) {now : ℚ}
    (hnow : h.clock ≤ now) (readings : List ℚ) :
    WindowInv limit period ⟨h.strategy.maybeAdvance now, now, readings, h.grants⟩ where
  limit_eq := by
    rw [SlidingWindowStrategy.maybeAdvance_limit]
    exact hi.limit_eq
  period_eq := by
    rw [SlidingWindowStrategy.maybeAdvance_period]
    exact hi.period_eq
  counted := by
    obtain ⟨previous, current, ⟨hprev, hcurr⟩, ⟨hprevle, hcurrle⟩, hc⟩ := hi.counted
    have hperiod := hi.period_eq
    rcases h.strategy.maybeAdvance_cases (hperiod ▸ hp) now with
      ⟨hlt, heq⟩ | ⟨n, hn, hle, hlt, heq⟩
    · rw [heq]
      rw [hperiod] at hlt
      exact ⟨previous, current, ⟨hprev, hcurr⟩, ⟨hprevle, hcurrle⟩, hc.pass hnow hlt⟩
    · rw [heq]
      rw [hperiod] at hle hlt ⊢
      refine ⟨if n = 1 then current else 0, 0, ⟨?_, rfl⟩, ⟨?_, by omega⟩,
        hc.advance hp hn hle hlt⟩
      · rw [hcurr]
        split <;> rfl
      · split <;> omega
  conforms := hi.conforms

/-- The new grant of a `try_acquire` leaves the counters right and the curve respected. -/
theorem WindowInv.grant {h : History SlidingWindowStrategy} (hi : WindowInv limit period h)
    (hp : 0 < period)
    (hroom : h.strategy.effectiveCount h.clock + 1 ≤ h.strategy.limit) :
    WindowInv limit period ⟨{ h.strategy with currCount := h.strategy.currCount + 1 }, h.clock,
      h.readings, h.clock :: h.grants⟩ := by
  obtain ⟨previous, current, ⟨hprev, hcurr⟩, ⟨hprevle, hcurrle⟩, hc⟩ := hi.counted
  rw [SlidingWindowStrategy.effectiveCount, hprev, hcurr, hi.limit_eq, hi.period_eq,
    Int.cast_natCast, Int.cast_natCast] at hroom
  have hweight : 0 ≤ 1 - (h.clock - h.strategy.windowStart) / period := by
    have : (h.clock - h.strategy.windowStart) / period ≤ 1 :=
      (div_le_one hp).2 (by linarith [hc.last_lt])
    linarith
  refine ⟨hi.limit_eq, hi.period_eq, ⟨previous, current + 1, ⟨hprev, ?_⟩, ⟨hprevle, ?_⟩,
    hc.grant⟩, hc.smooth hp (by exact_mod_cast hprevle) hroom hi.conforms⟩
  · rw [hcurr]
    rfl
  · have hpos := mul_nonneg (Nat.cast_nonneg (α := ℚ) previous) hweight
    have : (current : ℚ) + 1 ≤ limit := by linarith
    exact_mod_cast this

theorem windowInv_kept (hl : 1 ≤ limit) (hp : 0 < period) :
    KeptByMeter slidingWindowMeter (WindowInv limit period) where
  settle hi hnow := hi.maybeAdvance hl hp hnow _
  take hi hroom := hi.grant hp (one_le_slidingWindowMeter_room.1 hroom)

/-- The counters are those of two adjacent windows in every run. -/
theorem windowInv_of_reachable (hl : 1 ≤ limit) (hp : 0 < period)
    {h : History SlidingWindowStrategy}
    (hr : (runs slidingWindow (SlidingWindowStrategy.init limit period start) start).Reachable h) :
    WindowInv limit period h := by
  rw [slidingWindow_eq] at hr
  exact (windowInv_kept hl hp).reachable (windowInv_init hl hp start) hr

/-! ### Bursts are smoothed -/

/-- **The sliding window smooths bursts.**  In every run the number of grants in a half-open
interval of length `d`, where `d` is positive and at most the period, is at most
`limit * (1 + d / period)`, wherever the interval lies. -/
theorem sliding_window_smooth (limit : ℤ) (period : ℚ) (hl : 1 ≤ limit) (hp : 0 < period)
    (start : ℚ) (h : History SlidingWindowStrategy)
    (hr : (runs slidingWindow (SlidingWindowStrategy.init limit period start) start).Reachable h)
    (s d : ℚ) (hd : 0 < d) (hdp : d ≤ period) :
    ((h.grants.countP fun x => s ≤ x ∧ x < s + d : ℕ) : ℚ) ≤ limit * (1 + d / period) := by
  have hcurve := (windowInv_of_reachable hl hp hr).conforms s (s + d) (by linarith)
    (by rwa [add_sub_cancel_left])
  rw [add_sub_cancel_left] at hcurve
  refine le_trans ?_ hcurve
  have hmono : (h.grants.countP fun x => s ≤ x ∧ x < s + d) ≤ grantsIn h.grants s (s + d) := by
    refine List.countP_mono_left fun x _ hx => ?_
    simp only [decide_eq_true_eq] at hx ⊢
    exact ⟨hx.1, hx.2.le⟩
  exact_mod_cast hmono

/-- Two permits a second, both taken at the end of the first window: the first permit of the second
window is granted once half of it has passed, and the second that contains all three grants keeps
to the bound. -/
theorem sliding_window_smooth_across_windows : ∃ h : History SlidingWindowStrategy,
    h.grants = [3 / 2, 9 / 10, 9 / 10] ∧
    ((h.grants.countP fun x => 9 / 10 ≤ x ∧ x < 9 / 10 + 1 : ℕ) : ℚ) ≤ (2 : ℤ) * (1 + 1 / 1) := by
  obtain ⟨h, hr, hh⟩ := Machine.exists_reachable_of_exec
    (runs slidingWindow (SlidingWindowStrategy.init 2 1 0) 0)
    [(.tryAcquire, 9 / 10), (.tryAcquire, 9 / 10), (.tryAcquire, 11 / 10), (.permits, 6 / 5),
      (.tryAcquire, 3 / 2)]
    (fun h => decide (h.grants = [3 / 2, 9 / 10, 9 / 10])) (by decide +kernel)
  exact ⟨h, of_decide_eq_true hh,
    sliding_window_smooth 2 1 (by decide) one_pos 0 h hr (9 / 10) 1 one_pos le_rfl⟩

/-! ### The meter is lawful -/

namespace SlidingWindowStrategy

/-- The states of the sliding window for `limit` and `period` that was last queried at the instant
`now`: this instant lies in the current window, and both counters are within the limit. -/
structure Valid (limit : ℤ) (period : ℚ) (w : SlidingWindowStrategy) (now : ℚ) : Prop where
  limit_eq : w.limit = limit
  period_eq : w.period = period
  prevCount_nonneg : 0 ≤ w.prevCount
  prevCount_le : w.prevCount ≤ limit
  currCount_nonneg : 0 ≤ w.currCount
  currCount_le : w.currCount ≤ limit
  start_le : w.windowStart ≤ now
  lt_end : now < w.windowStart + period

theorem valid_init (hl : 1 ≤ limit) (hp : 0 < period) (start : ℚ) :
    Valid limit period (init limit period start) start where
  limit_eq := rfl
  period_eq := rfl
  prevCount_nonneg := le_rfl
  prevCount_le := zero_le_one.trans hl
  currCount_nonneg := le_rfl
  currCount_le := zero_le_one.trans hl
  start_le := le_rfl
  lt_end := lt_add_of_pos_right start hp

variable {w : SlidingWindowStrategy} {t now : ℚ}

/-- Letting time pass within the current window. -/
theorem Valid.pass (h : Valid limit period w t) (ht : t ≤ now)
    (hnow : now < w.windowStart + period) : Valid limit period w now :=
  { h with start_le := h.start_le.trans ht, lt_end := hnow }

/-- Within the current window there is nothing to advance. -/
theorem Valid.maybeAdvance_of_lt (h : Valid limit period w t) (hp : 0 < period)
    (hnow : now < w.windowStart + period) : w.maybeAdvance now = w := by
  rw [← h.period_eq] at hp hnow
  exact rolling.advance_of_lt hp hnow

/-- Advancing keeps the counters within the limit. -/
theorem Valid.maybeAdvance (h : Valid limit period w t) (hl : 1 ≤ limit) (hp : 0 < period)
    (ht : t ≤ now) : Valid limit period (w.maybeAdvance now) now := by
  rcases rolling.advance_cases (h.period_eq ▸ hp) now with ⟨hlt, heq⟩ | ⟨n, hn, hle, hlt, heq⟩
  · rw [h.period_eq] at hlt
    rw [heq]
    exact h.pass ht hlt
  · rw [h.period_eq] at hle hlt
    have hprev : (w.roll n).prevCount = w.currCount ∨ (w.roll n).prevCount = 0 := by
      rw [roll]
      exact ite_eq_or_eq _ _ _
    have hnonneg := h.currCount_nonneg
    have hcurr := h.currCount_le
    rw [heq]
    refine ⟨h.limit_eq, h.period_eq, by omega, by omega, le_rfl, zero_le_one.trans hl, ?_, ?_⟩
    · rwa [roll, h.period_eq]
    · rwa [roll, h.period_eq]

/-- The previous window never weighs less than nothing. -/
theorem Valid.weight_nonneg (h : Valid limit period w now) (hp : 0 < period) :
    0 ≤ 1 - (now - w.windowStart) / w.period := by
  have hend := h.lt_end
  rw [h.period_eq, sub_nonneg, div_le_one hp]
  linarith

theorem Valid.currCount_le_effectiveCount (h : Valid limit period w now) (hp : 0 < period) :
    (w.currCount : ℚ) ≤ w.effectiveCount now := by
  have hprev : (0 : ℚ) ≤ w.prevCount := by exact_mod_cast h.prevCount_nonneg
  rw [effectiveCount]
  linarith [mul_nonneg hprev (h.weight_nonneg hp)]

/-- Where there is room for a permit, the current window is not full. -/
theorem Valid.currCount_lt (h : Valid limit period w now) (hp : 0 < period)
    (hroom : w.effectiveCount now + 1 ≤ w.limit) : w.currCount < limit := by
  have hcurr := h.currCount_le_effectiveCount hp
  rw [h.limit_eq] at hroom
  have hlt : (w.currCount : ℚ) < limit := by linarith
  exact_mod_cast hlt

/-- The effective count decreases while the previous window fades. -/
theorem effectiveCount_add (w : SlidingWindowStrategy) (now d : ℚ) :
    w.effectiveCount (now + d) = w.effectiveCount now - d * (w.prevCount / w.period) := by
  rw [effectiveCount, effectiveCount]
  ring

/-- How long the wait is where there is no room: to the end of the current window, or less if the
excess fades away before. -/
theorem Valid.wait_spec (h : Valid limit period w now) (hp : 0 < period)
    (hfull : ¬ w.effectiveCount now + 1 ≤ w.limit) :
    0 < slidingWindowMeter.wait w now ∧
    slidingWindowMeter.wait w now * (w.prevCount / w.period) ≤
      w.effectiveCount now + 1 - w.limit ∧
    (now + slidingWindowMeter.wait w now = w.windowStart + period ∨
      now + slidingWindowMeter.wait w now < w.windowStart + period ∧
      slidingWindowMeter.wait w now * (w.prevCount / w.period) =
        w.effectiveCount now + 1 - w.limit) := by
  have hend := h.lt_end
  have hremaining : max 0 (w.period - (now - w.windowStart)) = w.windowStart + period - now := by
    rw [h.period_eq, max_eq_right (by linarith)]
    ring
  have hexcess : 0 < w.effectiveCount now + 1 - w.limit := sub_pos.2 (not_le.1 hfull)
  have hwait : slidingWindowMeter.wait w now =
      if 0 < w.prevCount then
        min (max 0 ((w.effectiveCount now + 1 - w.limit) / (w.prevCount / w.period)))
          (w.windowStart + period - now)
      else w.windowStart + period - now := by
    simp only [slidingWindowMeter, if_neg hfull, hremaining]
  by_cases hprev : 0 < w.prevCount
  · have hrate : (0 : ℚ) < w.prevCount / w.period := by
      rw [h.period_eq]
      exact div_pos (by exact_mod_cast hprev) hp
    have hfade := div_pos hexcess hrate
    have hmul := div_mul_cancel₀ (w.effectiveCount now + 1 - w.limit) hrate.ne'
    rw [hwait, if_pos hprev, max_eq_right hfade.le]
    rcases lt_or_ge ((w.effectiveCount now + 1 - w.limit) / (w.prevCount / w.period))
      (w.windowStart + period - now) with hlt | hge
    · rw [min_eq_left hlt.le]
      exact ⟨hfade, hmul.le, Or.inr ⟨by linarith, hmul⟩⟩
    · rw [min_eq_right hge]
      refine ⟨by linarith, ?_, Or.inl (by ring)⟩
      exact (mul_le_mul_of_nonneg_right hge hrate.le).trans hmul.le
  · have hzero : w.prevCount = 0 := le_antisymm (not_lt.1 hprev) h.prevCount_nonneg
    rw [hwait, if_neg hprev, hzero, Int.cast_zero, zero_div, mul_zero]
    exact ⟨by linarith, hexcess.le, Or.inl (by ring)⟩

/-- Taking a permit leaves one less. -/
theorem room_take (hroom : 1 ≤ slidingWindowMeter.room w now) :
    slidingWindowMeter.room (slidingWindowMeter.take w now) now =
      slidingWindowMeter.room w now - 1 := by
  have hle := one_le_slidingWindowMeter_room.1 hroom
  have htake : slidingWindowMeter.room (slidingWindowMeter.take w now) now =
      max 0 (Python.toInt (w.limit - w.effectiveCount now - 1)) := by
    rw [slidingWindowMeter_room]
    congr 2
    simp only [slidingWindowMeter, effectiveCount, Int.cast_add, Int.cast_one]
    ring
  have hone : 1 ≤ (w.limit : ℚ) - w.effectiveCount now := le_sub_iff_add_le'.2 hle
  have hint := Python.one_le_toInt.2 hone
  rw [htake, Python.toInt_sub_one hone, slidingWindowMeter_room]
  omega

/-- Before the wait is over there is no permit. -/
theorem Valid.avail_lt_one (h : Valid limit period w now) (hp : 0 < period) {x : ℚ}
    (hnow : now ≤ x) (hx : x < now + slidingWindowMeter.wait w now) :
    slidingWindowMeter.avail w x < 1 := by
  by_cases hle : w.effectiveCount now + 1 ≤ w.limit
  · rw [slidingWindowMeter_wait_of_le hle, add_zero] at hx
    exact absurd hnow (not_le.2 hx)
  · -- the instant lies in the current window, and the excess has not faded away yet
    obtain ⟨_, hfade, hends⟩ := h.wait_spec hp hle
    have hlt : x < w.windowStart + period := by
      rcases hends with hends | hends
      · exact hends ▸ hx
      · exact hx.trans hends.1
    have hprev : (0 : ℚ) ≤ w.prevCount := by exact_mod_cast h.prevCount_nonneg
    have hcount := w.effectiveCount_add now (x - now)
    rw [add_sub_cancel] at hcount
    rw [Meter.avail, slidingWindowMeter_settle, h.maybeAdvance_of_lt hp hlt, ← not_le,
      one_le_slidingWindowMeter_room, hcount]
    rw [not_le] at hle ⊢
    rcases hprev.eq_or_lt with hzero | hpos
    · rwa [← hzero, zero_div, mul_zero, sub_zero]
    · have hrate : 0 < w.prevCount / w.period := div_pos hpos (h.period_eq ▸ hp)
      have hshort : (x - now) * (w.prevCount / w.period) <
          slidingWindowMeter.wait w now * (w.prevCount / w.period) :=
        mul_lt_mul_of_pos_right (by linarith) hrate
      linarith

end SlidingWindowStrategy

/-- The meter of the sliding window is lawful. -/
theorem slidingWindowMeter_lawful (hl : 1 ≤ limit) (hp : 0 < period) :
    slidingWindowMeter.Lawful (SlidingWindowStrategy.Valid limit period) where
  settle_valid hs ht := hs.maybeAdvance hl hp ht
  settle_self hs := hs.maybeAdvance_of_lt hp hs.lt_end
  settle_settle hs _ hnow := SlidingWindowStrategy.rolling.advance_advance (hs.period_eq ▸ hp) hnow
  room_nonneg _ := le_max_left 0 _
  take_valid {w now} hs hroom := by
    have hlt := hs.currCount_lt hp (one_le_slidingWindowMeter_room.1 hroom)
    exact { hs with
      currCount_nonneg := Int.le_add_one hs.currCount_nonneg
      currCount_le := hlt }
  room_take _ hroom := SlidingWindowStrategy.room_take hroom
  wait_nonneg {w now} hs := by
    by_cases hle : w.effectiveCount now + 1 ≤ w.limit
    · exact (slidingWindowMeter_wait_of_le hle).ge
    · exact (hs.wait_spec hp hle).1.le
  wait_eq_zero {w now} hs := by
    rw [one_le_slidingWindowMeter_room]
    by_cases hle : w.effectiveCount now + 1 ≤ w.limit
    · exact iff_of_true (slidingWindowMeter_wait_of_le hle) hle
    · exact iff_of_false (hs.wait_spec hp hle).1.ne' hle
  early hs hnow hx := hs.avail_lt_one hp hnow hx

/-- At the end of the current window there is room exactly if this window is not full. -/
theorem SlidingWindowStrategy.Valid.one_le_avail_end {w : SlidingWindowStrategy} {now : ℚ}
    (hs : w.Valid limit period now) (hp : 0 < period) :
    1 ≤ slidingWindowMeter.avail w (w.windowStart + period) ↔ w.currCount < limit := by
  have hroll : w.maybeAdvance (w.windowStart + period) = w.roll 1 := by
    have hperiod := hs.period_eq
    subst hperiod
    exact rolling.advance_end hp
  have hcount : (w.roll 1).effectiveCount (w.windowStart + period) = w.currCount := by
    rw [effectiveCount, roll, hs.period_eq, Nat.cast_one, one_mul, sub_self, zero_div, sub_zero,
      mul_one, if_pos rfl, Int.cast_zero, add_zero]
  rw [Meter.avail, slidingWindowMeter_settle, hroll, one_le_slidingWindowMeter_room, hcount]
  have hlimit : (w.roll 1).limit = limit := hs.limit_eq
  rw [hlimit]
  norm_cast

/-- The wait ends with the current window at the latest. -/
theorem SlidingWindowStrategy.Valid.add_wait_le {w : SlidingWindowStrategy} {now : ℚ}
    (hs : w.Valid limit period now) (hp : 0 < period) :
    now + slidingWindowMeter.wait w now ≤ w.windowStart + period := by
  by_cases hle : w.effectiveCount now + 1 ≤ w.limit
  · rw [slidingWindowMeter_wait_of_le hle, add_zero]
    exact hs.lt_end.le
  · obtain ⟨_, _, hends | hends⟩ := hs.wait_spec hp hle
    · exact hends.le
    · exact hends.1.le

/-- A wait that ends within the current window leads to a permit. -/
theorem SlidingWindowStrategy.Valid.room_after_wait {w : SlidingWindowStrategy} {now : ℚ}
    (hs : w.Valid limit period now) (hp : 0 < period)
    (hends : now + slidingWindowMeter.wait w now < w.windowStart + period) :
    w.effectiveCount (now + slidingWindowMeter.wait w now) + 1 ≤ w.limit := by
  by_cases hle : w.effectiveCount now + 1 ≤ w.limit
  · rwa [slidingWindowMeter_wait_of_le hle, add_zero]
  · obtain ⟨_, _, heq | ⟨_, hfade⟩⟩ := hs.wait_spec hp hle
    · exact absurd heq hends.ne
    · rw [w.effectiveCount_add, hfade]
      linarith

/-- **One wait is enough exactly where the current window is not full.** -/
theorem one_le_avail_after_wait {w : SlidingWindowStrategy} {now : ℚ}
    (hs : w.Valid limit period now) (hl : 1 ≤ limit) (hp : 0 < period) :
    1 ≤ slidingWindowMeter.avail w (now + slidingWindowMeter.wait w now) ↔
      w.currCount < limit := by
  rcases (hs.add_wait_le hp).lt_or_eq with hends | hends
  · have hroom := hs.room_after_wait hp hends
    have hwait := (slidingWindowMeter_lawful hl hp).wait_nonneg hs
    have hlater := hs.pass (le_add_of_nonneg_right hwait) hends
    rw [Meter.avail, slidingWindowMeter_settle, hs.maybeAdvance_of_lt hp hends,
      one_le_slidingWindowMeter_room]
    exact iff_of_true hroom (hlater.currCount_lt hp hroom)
  · rw [hends]
    exact hs.one_le_avail_end hp

/-- **Two waits are always enough**: where the current window is full, the first one leads to the
next window, which has no grants yet. -/
theorem slidingWindowMeter_punctual (hl : 1 ≤ limit) (hp : 0 < period) :
    slidingWindowMeter.Punctual (SlidingWindowStrategy.Valid limit period) 2 := by
  intro w now hs
  have law := slidingWindowMeter_lawful hl hp
  have hdelay : slidingWindowMeter.delay w now = slidingWindowMeter.wait w now := by
    rw [Meter.delay, law.settle_self hs]
  have hnow : now ≤ now + slidingWindowMeter.wait w now :=
    le_add_of_nonneg_right (law.wait_nonneg hs)
  have hnext := law.settle_valid hs hnow
  have hcurr : (w.maybeAdvance (now + slidingWindowMeter.wait w now)).currCount < limit := by
    rcases SlidingWindowStrategy.rolling.advance_cases (hs.period_eq ▸ hp)
      (now + slidingWindowMeter.wait w now) with ⟨hends, heq⟩ | ⟨n, _, _, _, heq⟩
    · rw [hs.period_eq] at hends
      rw [heq]
      exact (hs.pass hnow hends).currCount_lt hp (hs.room_after_wait hp hends)
    · rw [heq]
      exact zero_lt_one.trans_le hl
  have hroom := (one_le_avail_after_wait hnext hl hp).2 hcurr
  rw [law.avail_settle hs hnow (le_add_of_nonneg_right (law.wait_nonneg hnext))] at hroom
  rw [Meter.arrival, Meter.arrival, Meter.arrival, hdelay]
  exact hroom

/-- A permit that was taken counts until the end of the next window. -/
theorem SlidingWindowStrategy.Valid.effectiveCount_take_le {w : SlidingWindowStrategy} {now x : ℚ}
    (hs : w.Valid limit period now) (hl : 1 ≤ limit) (hp : 0 < period) (hx : now ≤ x) :
    (w.maybeAdvance x).effectiveCount x ≤
      ((slidingWindowMeter.take w now).maybeAdvance x).effectiveCount x := by
  have hweight := (hs.maybeAdvance hl hp hx).weight_nonneg hp
  have htake : (w.currCount : ℚ) ≤ (w.currCount + 1 : ℤ) := by
    exact_mod_cast Int.le_add_one le_rfl
  have hp' : 0 < w.period := hs.period_eq ▸ hp
  have hp'' : 0 < (slidingWindowMeter.take w now).period := hp'
  rcases rolling.advance_cases hp' x with ⟨hlt, heq⟩ | ⟨n, hn, hle, hlt, heq⟩
  · rw [heq, rolling.advance_of_lt hp'' hlt]
    exact add_le_add_right htake _
  · -- the permit was taken in the previous window, if that is the one before
    rw [heq] at hweight ⊢
    rw [rolling.advance_eq_roll hp'' hn hle hlt]
    refine add_le_add_left (mul_le_mul_of_nonneg_right ?_ hweight) _
    simp only [roll, slidingWindowMeter]
    split
    · exact htake
    · exact le_rfl

/-- The sliding window has no more permits when one was taken. -/
theorem slidingWindowMeter_diminishing (hl : 1 ≤ limit) (hp : 0 < period) :
    slidingWindowMeter.Diminishing (SlidingWindowStrategy.Valid limit period) := by
  intro w now later hs _ hnow
  have hcount := hs.effectiveCount_take_le hl hp hnow
  have hlimit : (slidingWindowMeter.take w now).limit = w.limit := rfl
  rw [Meter.avail, Meter.avail, slidingWindowMeter_room, slidingWindowMeter_room,
    slidingWindowMeter_settle, slidingWindowMeter_settle,
    SlidingWindowStrategy.maybeAdvance_limit, SlidingWindowStrategy.maybeAdvance_limit, hlimit]
  exact max_le_max_left 0 (Python.toInt_mono (sub_le_sub_left hcount _))

end RateLimiter
