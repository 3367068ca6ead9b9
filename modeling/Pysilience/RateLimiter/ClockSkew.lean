/-
The sliding window when time passes within a call.

`_SlidingWindowStrategy._weighted_count` reads the clock twice: `_maybe_advance` moves to the window
of the first reading, and the previous count is weighed at the second one.  Between the two the
thread may be suspended for any time.  The counters stay within the limit nevertheless: the counter
of the current window can only be filled up, while the previous window still counts, by a call whose
second reading lies beyond the window, and then the next call begins a new one.  The weight, which
is meant to be a portion, is negative as soon as the second reading lies beyond the window of the
first.

Main definitions:

* `RateLimiter.SkewedCall` — a query with all its readings of the clock;
* `RateLimiter.skewedRuns` — the runs of such queries, with a record of the weights;
* `RateLimiter.Timely` — an admission test whose second reading lies in the window of the first.

Main results:

* `RateLimiter.skewInv_of_run` — the invariant of the counters;
* `RateLimiter.sliding_counters_skewed` — **the counters stay within the limit, and the weights are
  portions exactly if all admission tests are timely**.
-/

import Pysilience.Lib.AlignedWindows
import Pysilience.RateLimiter.SlidingWindow

set_option relaxedAutoImplicit false
set_option autoImplicit false

namespace RateLimiter

open AlignedWindows Transition

/-! ### Runs with several readings per call -/

/-- A query with the readings of the clock that it makes. -/
inductive SkewedCall
  | tryAcquire (now later : ℚ)
  | secondsUntilAvailable (now later last : ℚ)
  | permits (now later : ℚ)
  deriving DecidableEq

/-- The state of a run: the strategy, the last reading of the clock, and the weights that were
applied to the previous count in the admission tests so far. -/
structure SkewedHistory where
  strategy : SlidingWindowStrategy
  clock : ℚ
  weights : List ℚ
  deriving DecidableEq

/-- The weight of the previous window in `_weighted_count`. -/
def SlidingWindowStrategy.prevWeight (w : SlidingWindowStrategy) (now later : ℚ) : ℚ :=
  1 - (later - (w.maybeAdvance now).windowStart) / (w.maybeAdvance now).period

example (w : SlidingWindowStrategy) (now later : ℚ) :
    (w.weightedCount now later).1 =
      (w.maybeAdvance now).prevCount * w.prevWeight now later + (w.maybeAdvance now).currCount :=
  rfl

/-- One call, whose readings do not run backwards. -/
def SkewedHistory.step (h : SkewedHistory) : SkewedCall → Option SkewedHistory
  | .tryAcquire now later =>
    if h.clock ≤ now ∧ now ≤ later then
      some ⟨(h.strategy.tryAcquire now later).2, later,
        h.strategy.prevWeight now later :: h.weights⟩
    else none
  | .secondsUntilAvailable now later last =>
    if h.clock ≤ now ∧ now ≤ later ∧ later ≤ last then
      some ⟨(h.strategy.secondsUntilAvailable now later last).2, last, h.weights⟩
    else none
  | .permits now later =>
    if h.clock ≤ now ∧ now ≤ later then
      some ⟨(h.strategy.permits now later).2, later, h.weights⟩
    else none

/-- The runs of a sliding window that was constructed at the reading `start`. -/
def skewedRuns (limit : ℤ) (period start : ℚ) : Machine SkewedHistory SkewedCall where
  init := ⟨SlidingWindowStrategy.init limit period start, start, []⟩
  step := SkewedHistory.step

/-- The second reading of an admission test lies no later than the end of the window, of those
aligned to the instant `start`, that contains the first one. -/
def Timely (start period : ℚ) : SkewedCall → Prop
  | .tryAcquire now later => ∀ k, InWindow start period k now → later ≤ start + (k + 1) * period
  | _ => True

/-- What a call does: an admission test advances the strategy and may grant a permit, and every
other call advances only. -/
theorem SkewedHistory.step_cases {h h' : SkewedHistory} {call : SkewedCall}
    (hstep : h.step call = some h') :
    (∃ now later, call = .tryAcquire now later ∧ (h.clock ≤ now ∧ now ≤ later) ∧
      h' = ⟨(h.strategy.tryAcquire now later).2, later,
        h.strategy.prevWeight now later :: h.weights⟩) ∨
    ∃ now later, (∀ start period, Timely start period call) ∧ (h.clock ≤ now ∧ now ≤ later) ∧
      h' = ⟨h.strategy.maybeAdvance now, later, h.weights⟩ := by
  cases call with
  | tryAcquire now later =>
      rw [step] at hstep
      split at hstep
      · next hread => exact .inl ⟨now, later, rfl, hread, (Option.some_inj.1 hstep).symm⟩
      · cases hstep
  | secondsUntilAvailable now later last =>
      rw [step] at hstep
      split at hstep
      · next hread =>
        obtain ⟨hnow, hlater, hlast⟩ := hread
        rw [SlidingWindowStrategy.secondsUntilAvailable_snd] at hstep
        exact .inr ⟨now, last, fun _ _ => trivial, ⟨hnow, hlater.trans hlast⟩,
          (Option.some_inj.1 hstep).symm⟩
      · cases hstep
  | permits now later =>
      rw [step] at hstep
      split at hstep
      · next hread =>
        exact .inr ⟨now, later, fun _ _ => trivial, hread, (Option.some_inj.1 hstep).symm⟩
      · cases hstep

/-! ### The invariant of the counters -/

variable {limit : ℤ} {period start : ℚ}

/-- The counters are within the limit, and the current one is below it while the previous window
still counts, unless the current window is over; the windows are aligned to the construction. -/
structure SkewInv (limit : ℤ) (period start : ℚ) (h : SkewedHistory) : Prop where
  limit_eq : h.strategy.limit = limit
  period_eq : h.strategy.period = period
  prevCount_nonneg : 0 ≤ h.strategy.prevCount
  prevCount_le : h.strategy.prevCount ≤ limit
  currCount_nonneg : 0 ≤ h.strategy.currCount
  currCount_le : h.strategy.currCount ≤ limit
  start_le : h.strategy.windowStart ≤ h.clock
  aligned : ∃ k : ℤ, h.strategy.windowStart = start + k * h.strategy.period
  below : 0 < h.strategy.prevCount →
    h.strategy.currCount < limit ∨ h.strategy.windowStart + period ≤ h.clock

theorem skewInv_init (hl : 1 ≤ limit) (period start : ℚ) :
    SkewInv limit period start (skewedRuns limit period start).init where
  limit_eq := rfl
  period_eq := rfl
  prevCount_nonneg := le_rfl
  prevCount_le := zero_le_one.trans hl
  currCount_nonneg := le_rfl
  currCount_le := zero_le_one.trans hl
  start_le := le_rfl
  aligned := ⟨0, by simp [skewedRuns, SlidingWindowStrategy.init]⟩
  below hprev := absurd hprev (lt_irrefl 0)

variable {h h' : SkewedHistory} {now later : ℚ}

/-- Advancing keeps the invariant, whatever is recorded and however late it gets; while the previous
window counts, the current one is not full. -/
theorem SkewInv.maybeAdvance (hi : SkewInv limit period start h) (hl : 1 ≤ limit)
    (hp : 0 < period) (hnow : h.clock ≤ now) (hlater : now ≤ later) (weights : List ℚ) :
    SkewInv limit period start ⟨h.strategy.maybeAdvance now, later, weights⟩ ∧
      (0 < (h.strategy.maybeAdvance now).prevCount →
        (h.strategy.maybeAdvance now).currCount < limit) := by
  have hp' : 0 < h.strategy.period := hi.period_eq ▸ hp
  have hstart := (SlidingWindowStrategy.rolling.start_advance_le hp'
    (hi.start_le.trans hnow)).trans hlater
  have hgrid := SlidingWindowStrategy.rolling.exists_start_advance hp' hi.aligned now
  rw [← h.strategy.maybeAdvance_period now] at hgrid
  rcases h.strategy.maybeAdvance_cases hp' now with ⟨hlt, heq⟩ | ⟨n, hn, _, _, heq⟩
  · -- the current window is not over, so that it is not full if the previous one counts
    rw [heq] at hstart hgrid ⊢
    have hcurr : 0 < h.strategy.prevCount → h.strategy.currCount < limit := by
      intro hprev
      rw [hi.period_eq] at hlt
      exact (hi.below hprev).resolve_right (not_le.2 (hnow.trans_lt hlt))
    exact ⟨{ hi with
      start_le := hstart
      aligned := hgrid
      below := fun hprev => Or.inl (hcurr hprev) }, hcurr⟩
  · rw [heq] at hstart hgrid ⊢
    have hprev : (if n = 1 then h.strategy.currCount else 0) = h.strategy.currCount ∨
        (if n = 1 then h.strategy.currCount else 0) = 0 := ite_eq_or_eq _ _ _
    have hnonneg := hi.currCount_nonneg
    have hle := hi.currCount_le
    have hzero : (0 : ℤ) < limit := zero_lt_one.trans_le hl
    exact ⟨⟨hi.limit_eq, hi.period_eq, by dsimp only; omega, by dsimp only; omega, le_rfl,
      hzero.le, hstart, hgrid, fun _ => Or.inl hzero⟩, fun _ => hzero⟩

/-- A grant keeps the invariant: the current window can be filled up only by an admission test
whose second reading lies beyond it, or where the previous window does not count. -/
theorem SkewInv.grant (hi : SkewInv limit period start h) (hp : 0 < period)
    (hbelow : 0 < h.strategy.prevCount → h.strategy.currCount < limit)
    (hroom : h.strategy.effectiveCount h.clock + 1 ≤ h.strategy.limit) :
    SkewInv limit period start
      { h with strategy := { h.strategy with currCount := h.strategy.currCount + 1 } } := by
  rw [SlidingWindowStrategy.effectiveCount, hi.limit_eq, hi.period_eq] at hroom
  have hcurr : h.strategy.currCount < limit := by
    rcases hi.prevCount_nonneg.eq_or_lt with hzero | hpos
    · rw [← hzero, Int.cast_zero, zero_mul, zero_add] at hroom
      exact_mod_cast hroom
    · exact hbelow hpos
  refine { hi with
    currCount_nonneg := Int.le_add_one hi.currCount_nonneg
    currCount_le := hcurr
    below := fun hprev => ?_ }
  rcases lt_or_ge h.clock (h.strategy.windowStart + period) with hlt | hge
  · -- within the window the previous one has a positive weight
    have hpos : (0 : ℚ) < h.strategy.prevCount := by exact_mod_cast hprev
    have hweight : 0 < 1 - (h.clock - h.strategy.windowStart) / period := by
      rw [sub_pos, div_lt_one hp]
      linarith
    have hless : (h.strategy.currCount : ℚ) + 1 < limit := by
      linarith [mul_pos hpos hweight]
    exact Or.inl (by exact_mod_cast hless)
  · exact Or.inr hge

/-- Every call keeps the invariant. -/
theorem skewInv_step (hl : 1 ≤ limit) (hp : 0 < period) {call : SkewedCall}
    (hi : SkewInv limit period start h) (hstep : h.step call = some h') :
    SkewInv limit period start h' := by
  obtain ⟨now, later, rfl, hread, rfl⟩ | ⟨now, later, _, hread, rfl⟩ :=
    SkewedHistory.step_cases hstep
  · obtain ⟨hadv, hbelow⟩ := hi.maybeAdvance hl hp hread.1 hread.2
      (h.strategy.prevWeight now later :: h.weights)
    rw [SlidingWindowStrategy.tryAcquire_eq]
    split
    · next hroom => exact hadv.grant hp hbelow hroom
    · exact hadv
  · exact (hi.maybeAdvance hl hp hread.1 hread.2 h.weights).1

/-- The counters keep the invariant in every run. -/
theorem skewInv_of_run (hl : 1 ≤ limit) (hp : 0 < period) {calls : List SkewedCall}
    (hr : (skewedRuns limit period start).Run Machine.anything calls h) :
    SkewInv limit period start h :=
  hr.invariant (I := SkewInv limit period start) (skewInv_init hl period start)
    fun _ _ _ _ _ hi _ hstep => skewInv_step hl hp hi hstep

/-! ### The weights -/

/-- **The weight of an admission test is a portion exactly if the test is timely.** -/
theorem SkewInv.prevWeight_mem (hi : SkewInv limit period start h) (hp : 0 < period)
    (hnow : h.clock ≤ now) (hlater : now ≤ later) :
    (0 ≤ h.strategy.prevWeight now later ∧ h.strategy.prevWeight now later ≤ 1) ↔
      Timely start period (.tryAcquire now later) := by
  have hp' : 0 < h.strategy.period := hi.period_eq ▸ hp
  have hstart := SlidingWindowStrategy.rolling.start_advance_le hp' (hi.start_le.trans hnow)
  have hend := SlidingWindowStrategy.rolling.lt_start_advance hp' now
  obtain ⟨k, hk⟩ := SlidingWindowStrategy.rolling.exists_start_advance hp' hi.aligned now
  rw [hi.period_eq] at hend hk
  have hmem : InWindow start period k now := ⟨hk ▸ hstart, by linarith⟩
  have htimely : Timely start period (.tryAcquire now later) ↔
      later ≤ start + (k + 1) * period := by
    constructor
    · exact fun h => h k hmem
    · intro hle j hj
      rwa [hj.unique hp hmem]
  have hwindow : later ≤ start + (k + 1) * period ↔
      later ≤ (h.strategy.maybeAdvance now).windowStart + period := by
    rw [hk, add_mul, one_mul, add_assoc]
  rw [htimely, hwindow, SlidingWindowStrategy.prevWeight,
    SlidingWindowStrategy.maybeAdvance_period, hi.period_eq, sub_nonneg, div_le_one hp,
    sub_le_iff_le_add']
  refine and_iff_left ?_
  have hpassed : 0 ≤ (later - (h.strategy.maybeAdvance now).windowStart) / period :=
    div_nonneg (by linarith) hp.le
  linarith

/-- A call adds a portion to the weights exactly if it is timely. -/
theorem SkewInv.weights_step (hi : SkewInv limit period start h) (hp : 0 < period)
    {call : SkewedCall} (hstep : h.step call = some h') :
    (∀ weight ∈ h'.weights, 0 ≤ weight ∧ weight ≤ 1) ↔
      (∀ weight ∈ h.weights, 0 ≤ weight ∧ weight ≤ 1) ∧ Timely start period call := by
  obtain ⟨now, later, rfl, hread, rfl⟩ | ⟨now, later, htimely, _, rfl⟩ :=
    SkewedHistory.step_cases hstep
  · rw [List.forall_mem_cons, hi.prevWeight_mem hp hread.1 hread.2, and_comm]
  · exact (and_iff_left (htimely start period)).symm

/-- The weights of a run are portions exactly if all its admission tests are timely. -/
theorem weights_iff_timely (hl : 1 ≤ limit) (hp : 0 < period) {calls : List SkewedCall}
    (hr : (skewedRuns limit period start).Run Machine.anything calls h) :
    (∀ weight ∈ h.weights, 0 ≤ weight ∧ weight ≤ 1) ↔ ∀ call ∈ calls, Timely start period call := by
  induction hr with
  | nil => simp [skewedRuns]
  | snoc hr _ hstep ih =>
      rw [(skewInv_of_run hl hp hr).weights_step hp hstep, ih, List.forall_mem_append,
        List.forall_mem_singleton]

/-- **The counters of the sliding window stay within the limit**, in every run of calls whose
readings of the clock never decrease, however much time passes between those of one call.  The
weights that were applied in the admission tests of the run are all between zero and one if and
only if all these tests are timely. -/
theorem sliding_counters_skewed (limit : ℤ) (period : ℚ) (hl : 1 ≤ limit) (hp : 0 < period)
    (start : ℚ) (calls : List SkewedCall) (h : SkewedHistory)
    (hr : (skewedRuns limit period start).Run Machine.anything calls h) :
    ((0 ≤ h.strategy.prevCount ∧ h.strategy.prevCount ≤ limit) ∧
      0 ≤ h.strategy.currCount ∧ h.strategy.currCount ≤ limit) ∧
    ((∀ weight ∈ h.weights, 0 ≤ weight ∧ weight ≤ 1) ↔
      ∀ call ∈ calls, Timely start period call) := by
  have hi := skewInv_of_run hl hp hr
  exact ⟨⟨⟨hi.prevCount_nonneg, hi.prevCount_le⟩, hi.currCount_nonneg, hi.currCount_le⟩,
    weights_iff_timely hl hp hr⟩

/-- Two permits a second: one admission test of the second window is suspended to its very end, and
takes a permit while the previous window counts for nothing. -/
theorem sliding_counters_skewed_to_the_end : ∃ h : SkewedHistory,
    h.weights = [0, 1, 1] ∧
    ((0 ≤ h.strategy.prevCount ∧ h.strategy.prevCount ≤ 2) ∧
      0 ≤ h.strategy.currCount ∧ h.strategy.currCount ≤ 2) ∧
    ((∀ weight ∈ h.weights, 0 ≤ weight ∧ weight ≤ 1) ↔
      ∀ call ∈ [SkewedCall.tryAcquire 0 0, .tryAcquire 0 0, .tryAcquire 1 2],
        Timely 0 1 call) := by
  obtain ⟨h, hr, hh⟩ := Machine.exists_run_of_exec (skewedRuns 2 1 0) (fun _ _ => true)
    (fun _ _ _ => trivial) [.tryAcquire 0 0, .tryAcquire 0 0, .tryAcquire 1 2]
    (fun h => decide (h.weights = [0, 1, 1])) (by decide +kernel)
  exact ⟨h, of_decide_eq_true hh, sliding_counters_skewed 2 1 (by decide) one_pos 0 _ h hr⟩

/-- **A weight can be negative**: two permits a second, both taken in the first window; an admission
test of the second window is suspended to the middle of the third, and weighs the two permits with
minus one half. -/
theorem sliding_weight_negative : ∃ h : SkewedHistory,
    (skewedRuns 2 1 0).Reachable h ∧ h.strategy.prevCount = 2 ∧ -1 / 2 ∈ h.weights ∧
    ¬ ∀ weight ∈ h.weights, 0 ≤ weight ∧ weight ≤ 1 := by
  obtain ⟨h, hr, hh⟩ := Machine.exists_reachable_of_exec (skewedRuns 2 1 0)
    [.tryAcquire 0 0, .tryAcquire 0 0, .tryAcquire 1 (5 / 2)]
    (fun h => decide (h.strategy.prevCount = 2 ∧ -1 / 2 ∈ h.weights)) (by decide +kernel)
  obtain ⟨hprev, hmem⟩ := of_decide_eq_true hh
  refine ⟨h, hr, hprev, hmem, fun hall => ?_⟩
  exact absurd (hall _ hmem).1 (by decide +kernel)

end RateLimiter
