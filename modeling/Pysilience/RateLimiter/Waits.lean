/-
Whether the estimated wait is truthful.

`seconds_until_available` is what a rejected caller is told as `RateLimitExceeded.wait_time`, the
seconds until the next permit.  The estimate is truthful if, as long as no permit is granted,
attempts are refused until the wait is over and succeed when it is, whatever else is asked in the
meantime.  Those of the token bucket, of the leaky bucket and of the fixed window are.  That of the
sliding window is not where the current window is full: it reaches to the end of the window only,
where the permits of this window still count in full.

Main definitions:

* `RateLimiter.Ungranted` — a run that goes on without granting a permit;
* `RateLimiter.Truthful` — the estimate made at an instant is truthful.

Main results:

* `RateLimiter.truthful_iff` — for a lawful meter, the estimate is truthful exactly where it leads
  to a permit;
* `RateLimiter.waits_truthful` — **the waits of three algorithms are truthful**;
* `RateLimiter.sliding_wait_truthful_iff` — **the wait of the sliding window is truthful exactly
  where the current window is not full**.
-/

import Pysilience.RateLimiter.Acquire

set_option relaxedAutoImplicit false
set_option autoImplicit false

namespace RateLimiter

open AlignedWindows LazyMeter Relation Transition

universe u

variable {S : Type u}

/-! ### Truthful estimates -/

/-- A run goes on with queries none of which is granted a permit. -/
def Ungranted (σ : RateLimitStrategy S) : History S → History S → Prop :=
  ReflTransGen fun h h' => (∃ a, h.step σ a = some h') ∧ h'.grants = h.grants

/-- The estimate made at the instant `now` is truthful: as long as no permit is granted, attempts
are refused until the wait is over, and succeed when it is. -/
def Truthful (σ : RateLimitStrategy S) (h : History S) (now : ℚ) : Prop :=
  let wait := (σ.secondsUntilAvailable h.strategy now).1
  0 ≤ wait ∧
  ∀ h₁ h₂, h.step σ (.secondsUntilAvailable, now) = some h₁ → Ungranted σ h₁ h₂ →
    (∀ x, h₂.clock ≤ x → x < now + wait → (σ.tryAcquire h₂.strategy x).1 = false) ∧
    (h₂.clock ≤ now + wait → (σ.tryAcquire h₂.strategy (now + wait)).1 = true)

variable {m : Meter S ℚ} {Valid : S → ℚ → Prop}

/-- A step that grants nothing only settles the state. -/
theorem settle_of_ungranted_step {h h' : History S} {a : Query × ℚ}
    (hstep : h.step (ofMeter m) a = some h') (hgrants : h'.grants = h.grants) :
    h.clock ≤ h'.clock ∧ h'.strategy = m.settle h.strategy h'.clock := by
  obtain ⟨query, now⟩ := a
  obtain ⟨hnow, rfl⟩ := History.step_eq_some hstep
  refine ⟨hnow, ask_snd_of_not_granted (Bool.eq_false_iff.2 fun hgranted => ?_)⟩
  rw [if_pos hgranted] at hgrants
  exact absurd (congrArg List.length hgrants) (by simp)

/-- While nothing is granted, the state stays valid and agrees with what it was. -/
theorem agree_of_ungranted (law : m.Lawful Valid) {h h' : History S}
    (hs : Valid h.strategy h.clock) (hrun : Ungranted (ofMeter m) h h') :
    Valid h'.strategy h'.clock ∧ h.clock ≤ h'.clock ∧
      m.Agree h'.clock h'.strategy h.strategy := by
  induction hrun with
  | refl => exact ⟨hs, le_rfl, Meter.Agree.refl _ _⟩
  | tail _ hstep ih =>
      obtain ⟨hvalid, hle, hagree⟩ := ih
      obtain ⟨⟨a, hstep⟩, hgrants⟩ := hstep
      obtain ⟨hnow, hsettle⟩ := settle_of_ungranted_step hstep hgrants
      rw [hsettle]
      exact ⟨law.settle_valid hvalid hnow, hle.trans hnow, law.agree_settle hvalid hnow hagree⟩

/-- **For a lawful meter, the estimate is truthful exactly where it leads to a permit.** -/
theorem truthful_iff (law : m.Lawful Valid) {h : History S} (hs : Valid h.strategy h.clock)
    {now : ℚ} (hnow : h.clock ≤ now) :
    Truthful (ofMeter m) h now ↔
      1 ≤ m.avail h.strategy (now + m.delay h.strategy now) := by
  have hwait := law.delay_nonneg hs hnow
  have hasked : h.step (ofMeter m) (.secondsUntilAvailable, now) =
      some ⟨m.settle h.strategy now, now, now :: h.readings, h.grants⟩ := if_neg (not_lt.2 hnow)
  constructor
  · intro htruthful
    have hend := (htruthful.2 _ _ hasked ReflTransGen.refl).2 (le_add_of_nonneg_right hwait)
    rw [← law.avail_settle hs hnow (le_add_of_nonneg_right hwait)]
    exact Meter.attempt_fst.1 hend
  · intro hend
    refine ⟨hwait, fun h₁ h₂ hstep hrun => ?_⟩
    obtain rfl := Option.some_inj.1 (hasked.symm.trans hstep)
    obtain ⟨hvalid, hle, hagree⟩ := agree_of_ungranted law (law.settle_valid hs hnow) hrun
    -- what is attempted then is what would be attempted in the present state
    have hattempt : ∀ x, h₂.clock ≤ x → m.attempt h₂.strategy x = m.attempt h.strategy x := by
      intro x hx
      have hx' : now ≤ x := hle.trans hx
      exact Meter.attempt_congr ((hagree x hx).trans (law.settle_settle hs hnow hx'))
    refine ⟨fun x hx hlt => ?_, fun hx => ?_⟩
    · have hnone := law.avail_lt_of_lt_arrival hs 1 hnow (hle.trans hx) hlt
      exact (congrArg Prod.fst (hattempt x hx)).trans (Meter.attempt_fst_eq_false.2 hnone)
    · exact (congrArg Prod.fst (hattempt _ hx)).trans (Meter.attempt_fst.2 hend)

/-! ### Three algorithms -/

/-- **The waits of the token bucket, of the leaky bucket and of the fixed window are truthful**, in
every run and at every instant not before the last query. -/
theorem waits_truthful (config : RateLimiterConfig) (halgorithm : config.algorithm ≠ .slidingWindow)
    (start : ℚ) (h : History config.State) (hr : (config.runs start).Reachable h) (now : ℚ)
    (hnow : h.clock ≤ now) : Truthful config.strategy h now := by
  have law := config.lawful
  have hs := config.valid_of_reachable hr
  have hpunctual := meter_punctual_one config.bounds.1 config.bounds.2.1 halgorithm
  rw [config.strategy_eq, truthful_iff law hs hnow]
  exact law.avail_arrival hpunctual hs hnow

/-- Three permits in two seconds by the fixed window: halfway through the first window, all of them
taken, the wait is one second. -/
theorem waits_truthful_halfway :
    let config : RateLimiterConfig :=
      { limitForPeriod := 3, limitRefreshPeriod := 2, algorithm := .fixedWindow,
        accepted := by decide +kernel }
    ∃ h : History config.State,
      (config.strategy.secondsUntilAvailable h.strategy 1).1 = 1 ∧
      Truthful config.strategy h 1 := by
  intro config
  obtain ⟨h, hr, hh⟩ := Machine.exists_reachable_of_exec (config.runs 0)
    [(.tryAcquire, 0), (.tryAcquire, 1 / 2), (.tryAcquire, 1)]
    (fun h => decide (h.clock ≤ 1 ∧
      (config.strategy.secondsUntilAvailable h.strategy 1).1 = 1)) (by decide +kernel)
  have hh := of_decide_eq_true hh
  exact ⟨h, hh.2, waits_truthful config (by decide) 0 h hr 1 hh.1⟩

/-! ### The sliding window -/

variable {limit : ℤ} {period start : ℚ}

/-- The state is valid, and its window is one of those aligned to the instant `start`. -/
theorem aligned_kept (hl : 1 ≤ limit) (hp : 0 < period) (start : ℚ) :
    KeptByMeter slidingWindowMeter fun h => h.strategy.Valid limit period h.clock ∧
      ∃ k : ℤ, h.strategy.windowStart = start + k * h.strategy.period where
  settle {h now} hi hnow := by
    obtain ⟨hs, hgrid⟩ := hi
    refine ⟨(slidingWindowMeter_lawful hl hp).settle_valid hs hnow, ?_⟩
    have hadvanced := SlidingWindowStrategy.rolling.exists_start_advance (hs.period_eq ▸ hp)
      hgrid now
    rwa [← h.strategy.maybeAdvance_period now] at hadvanced
  take hi hroom := ⟨(slidingWindowMeter_lawful hl hp).take_valid hi.1 hroom, hi.2⟩

/-- The windows of the sliding window are aligned to its construction. -/
theorem exists_windowStart_of_reachable (hl : 1 ≤ limit) (hp : 0 < period)
    {h : History SlidingWindowStrategy}
    (hr : (runs slidingWindow (SlidingWindowStrategy.init limit period start) start).Reachable h) :
    h.strategy.Valid limit period h.clock ∧
      ∃ k : ℤ, h.strategy.windowStart = start + k * h.strategy.period := by
  rw [slidingWindow_eq] at hr
  refine (aligned_kept hl hp start).reachable ⟨SlidingWindowStrategy.valid_init hl hp start, 0, ?_⟩
    hr
  simp [History.start]

/-- After advancing, the current counter is the number of grants of the aligned window that contains
the present instant. -/
theorem currCount_eq_grantsInWindow (hl : 1 ≤ limit) (hp : 0 < period)
    {h : History SlidingWindowStrategy}
    (hr : (runs slidingWindow (SlidingWindowStrategy.init limit period start) start).Reachable h)
    {now : ℚ} (hnow : h.clock ≤ now) {k : ℤ} (hk : InWindow start period k now) :
    (h.strategy.maybeAdvance now).currCount = grantsInWindow start period k h.grants := by
  obtain ⟨hs, hgrid⟩ := exists_windowStart_of_reachable hl hp hr
  obtain ⟨j, hj⟩ := SlidingWindowStrategy.rolling.exists_start_advance (hs.period_eq ▸ hp)
    hgrid now
  obtain ⟨_, current, ⟨_, hcurr⟩, _, hc⟩ :=
    ((windowInv_of_reachable hl hp hr).maybeAdvance hl hp hnow h.readings).counted
  dsimp only at hcurr hc
  rw [hs.period_eq] at hj
  have hstart := hc.start_le
  have hend := hc.last_lt
  rw [hj] at hstart hend
  obtain rfl : j = k := InWindow.unique hp ⟨hstart, by linarith⟩ hk
  rw [hcurr, ← hc.current_eq, hj, grantsInWindow]
  refine congrArg _ (List.countP_congr fun x hx => ?_)
  have hle := hc.grants_le x hx
  rw [decide_eq_true_eq, decide_eq_true_eq, InWindow, iff_self_and]
  intro _
  linarith

/-- **The wait of the sliding window is truthful exactly where the current window is not full**: in
every run and at every instant not before the last query, the estimate is truthful if and only if
fewer permits than the limit were granted in the window that contains this instant, of those
aligned to the construction of the strategy. -/
theorem sliding_wait_truthful_iff (limit : ℤ) (period : ℚ) (hl : 1 ≤ limit) (hp : 0 < period)
    (start : ℚ) (h : History SlidingWindowStrategy)
    (hr : (runs slidingWindow (SlidingWindowStrategy.init limit period start) start).Reachable h)
    (now : ℚ) (hnow : h.clock ≤ now) (k : ℤ) (hk : InWindow start period k now) :
    Truthful slidingWindow h now ↔ (grantsInWindow start period k h.grants : ℤ) < limit := by
  have law := slidingWindowMeter_lawful hl hp
  have hs := (exists_windowStart_of_reachable hl hp hr).1
  have hsettled := law.settle_valid hs hnow
  have hwait := law.delay_nonneg hs hnow
  rw [← currCount_eq_grantsInWindow hl hp hr hnow hk, slidingWindow_eq, truthful_iff law hs hnow,
    ← law.avail_settle hs hnow (le_add_of_nonneg_right hwait)]
  exact one_le_avail_after_wait hsettled hl hp

/-- Two permits in each period, one of them taken: the estimate for the next one is truthful. -/
theorem sliding_wait_truthful_with_room : ∃ h : History SlidingWindowStrategy,
    (slidingWindow.secondsUntilAvailable h.strategy (5 / 4)).1 = 1 / 4 ∧
    (Truthful slidingWindow h (5 / 4) ↔ (grantsInWindow 0 1 1 h.grants : ℤ) < 2) ∧
    (grantsInWindow 0 1 1 h.grants : ℤ) < 2 := by
  obtain ⟨h, hr, hh⟩ := Machine.exists_reachable_of_exec
    (runs slidingWindow (SlidingWindowStrategy.init 2 1 0) 0)
    [(.tryAcquire, 1 / 2), (.tryAcquire, 1 / 2), (.permits, 5 / 4)]
    (fun h => decide (h.clock ≤ 5 / 4 ∧
      (slidingWindow.secondsUntilAvailable h.strategy (5 / 4)).1 = 1 / 4 ∧
      (grantsInWindow 0 1 1 h.grants : ℤ) < 2)) (by decide +kernel)
  obtain ⟨hclock, hwait, hroom⟩ := of_decide_eq_true hh
  exact ⟨h, hwait, sliding_wait_truthful_iff 2 1 (by decide) one_pos 0 h hr (5 / 4) hclock 1
    (by decide +kernel), hroom⟩

/-- **One permit a second, taken at once**: half a second later a rejected caller is told to wait
for half a second, and after half a second is refused again. -/
theorem sliding_wait_not_truthful : ∃ h : History SlidingWindowStrategy,
    (runs slidingWindow (SlidingWindowStrategy.init 1 1 0) 0).Reachable h ∧ h.grants = [0] ∧
    h.clock ≤ 1 / 2 ∧
    (acquireLoop slidingWindow (fun now d => now + d) "api" 0 (1 / 2) 1 h.strategy
      (1 / 2)).map (fun e => e.outcome) = some (.error (reject "api" (1 / 2))) ∧
    (slidingWindow.secondsUntilAvailable h.strategy (1 / 2)).1 = 1 / 2 ∧
    (slidingWindow.tryAcquire h.strategy (1 / 2 + 1 / 2)).1 = false ∧
    ¬ Truthful slidingWindow h (1 / 2) := by
  obtain ⟨h, hr, hh⟩ := Machine.exists_reachable_of_exec
    (runs slidingWindow (SlidingWindowStrategy.init 1 1 0) 0) [(.tryAcquire, 0)]
    (fun h => decide (h.grants = [0] ∧ h.clock ≤ 1 / 2 ∧
      (acquireLoop slidingWindow (fun now d => now + d) "api" 0 (1 / 2) 1 h.strategy
        (1 / 2)).map (fun e => e.outcome) = some (.error (reject "api" (1 / 2))) ∧
      (slidingWindow.secondsUntilAvailable h.strategy (1 / 2)).1 = 1 / 2 ∧
      (slidingWindow.tryAcquire h.strategy (1 / 2 + 1 / 2)).1 = false ∧
      slidingWindowMeter.avail h.strategy
        (1 / 2 + slidingWindowMeter.delay h.strategy (1 / 2)) < 1)) (by decide +kernel)
  obtain ⟨hgrants, hclock, hrejected, hwait, hrefused, hnone⟩ := of_decide_eq_true hh
  refine ⟨h, hr, hgrants, hclock, hrejected, hwait, hrefused, fun htruthful => ?_⟩
  have hs := (exists_windowStart_of_reachable (by decide) one_pos hr).1
  have law : slidingWindowMeter.Lawful (SlidingWindowStrategy.Valid 1 1) :=
    slidingWindowMeter_lawful (by decide) one_pos
  rw [slidingWindow_eq, truthful_iff law hs hclock] at htruthful
  exact absurd htruthful (not_le.2 hnone)

end RateLimiter
