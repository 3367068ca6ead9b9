/-
The configuration of a rate limiter, and the strategy that it selects.

`RateLimiter.__init__` creates the strategy for `config.algorithm`, which is one of four.  The
algorithm of a rate limiter never changes, so the state of its strategy is typed by the algorithm.
All four are lawful meters: what is proved of lawful meters holds whatever the configuration.

Main definitions:

* `RateLimiter.RateLimiterConfig` — an accepted configuration;
* `RateLimiter.RateLimitAlgorithm.State`, `RateLimiter.RateLimitAlgorithm.strategy` — the states and
  the queries of the strategy of an algorithm;
* `RateLimiter.createStrategy` — the strategy of a new rate limiter.

Main results:

* `RateLimiter.meter_lawful`, `RateLimiter.meter_punctual` — **whichever the algorithm, the strategy
  is a lawful meter, and waiting twice as estimated leads to a permit**;
* `RateLimiter.meter_diminishing` — **whichever the algorithm, a permit that has been taken is
  gone**;
* `RateLimiter.RateLimiterConfig.valid_of_reachable` — its state is valid in every run.
-/

import Pysilience.RateLimiter.FixedWindow
import Pysilience.RateLimiter.LeakyBucket
import Pysilience.RateLimiter.SlidingWindow
import Pysilience.RateLimiter.TokenBucket

set_option relaxedAutoImplicit false
set_option autoImplicit false

namespace RateLimiter

open LazyMeter Python Transition

/-! ### Configuration -/

inductive RateLimitAlgorithm
  | tokenBucket | leakyBucket | fixedWindow | slidingWindow
  deriving DecidableEq, Repr

/-- The fields of a configuration, before they are checked. -/
structure ConfigFields where
  limitForPeriod : ℤ := 50
  limitRefreshPeriod : ℚ := 1 / 2
  timeoutDuration : ℚ := 5
  algorithm : RateLimitAlgorithm := .tokenBucket
  deriving DecidableEq

/-- The checks of `RateLimiterConfig.__post_init__`, in order. -/
def ConfigFields.postInit (c : ConfigFields) : Except FString Unit :=
  checks [
    (decide (c.limitForPeriod < 1),
      [.text "limit_for_period must be >= 1, got ", .int c.limitForPeriod]),
    (decide (c.limitRefreshPeriod ≤ 0),
      [.text "limit_refresh_period must be positive, got ", .float c.limitRefreshPeriod]),
    (decide (c.timeoutDuration < 0),
      [.text "timeout_duration must be non-negative, got ", .float c.timeoutDuration])]

/-- A configuration that was accepted: `__post_init__` raised nothing. -/
structure RateLimiterConfig extends ConfigFields where
  accepted : toConfigFields.postInit = .ok ()

/-- What acceptance guarantees. -/
theorem RateLimiterConfig.bounds (config : RateLimiterConfig) :
    1 ≤ config.limitForPeriod ∧ 0 < config.limitRefreshPeriod ∧ 0 ≤ config.timeoutDuration := by
  have h := config.accepted
  rw [ConfigFields.postInit, checks_eq_ok] at h
  simp only [List.forall_mem_cons, decide_eq_false_iff_not, not_lt, not_le] at h
  exact ⟨h.1, h.2.1, h.2.2.1⟩

/-! ### The strategy of an algorithm -/

namespace RateLimitAlgorithm

/-- The states of the strategy of an algorithm. -/
abbrev State : RateLimitAlgorithm → Type
  | tokenBucket => TokenBucketStrategy
  | leakyBucket => LeakyBucketStrategy
  | fixedWindow => FixedWindowStrategy
  | slidingWindow => SlidingWindowStrategy

/-- The queries of the strategy of an algorithm. -/
def strategy : (algorithm : RateLimitAlgorithm) → RateLimitStrategy algorithm.State
  | tokenBucket => RateLimiter.tokenBucket
  | leakyBucket => RateLimiter.leakyBucket
  | fixedWindow => RateLimiter.fixedWindow
  | slidingWindow => RateLimiter.slidingWindow

/-- The strategy of an algorithm, newly created at the reading `now`. -/
def create (limit : ℤ) (period now : ℚ) : (algorithm : RateLimitAlgorithm) → algorithm.State
  | tokenBucket => TokenBucketStrategy.init limit period now
  | leakyBucket => LeakyBucketStrategy.init limit period now
  | fixedWindow => FixedWindowStrategy.init limit period now
  | slidingWindow => SlidingWindowStrategy.init limit period now

/-- The meter that the strategy of an algorithm is. -/
def meter : (algorithm : RateLimitAlgorithm) → Meter algorithm.State ℚ
  | tokenBucket => tokenBucketMeter
  | leakyBucket => leakyBucketMeter
  | fixedWindow => fixedWindowMeter
  | slidingWindow => slidingWindowMeter

/-- The valid states of the strategy of an algorithm. -/
def Valid (limit : ℤ) (period : ℚ) : (algorithm : RateLimitAlgorithm) → algorithm.State → ℚ → Prop
  | tokenBucket => TokenBucketStrategy.Valid limit period
  | leakyBucket => LeakyBucketStrategy.Valid limit period
  | fixedWindow => FixedWindowStrategy.Valid limit period
  | slidingWindow => SlidingWindowStrategy.Valid limit period

theorem strategy_eq (algorithm : RateLimitAlgorithm) :
    algorithm.strategy = ofMeter algorithm.meter := by
  cases algorithm with
  | tokenBucket => exact tokenBucket_eq
  | leakyBucket => exact leakyBucket_eq
  | fixedWindow => exact fixedWindow_eq
  | slidingWindow => exact slidingWindow_eq

end RateLimitAlgorithm

namespace RateLimiterConfig

variable (config : RateLimiterConfig)

/-- The states of the strategy that the configuration selects. -/
abbrev State : Type := config.algorithm.State

/-- The strategy that the configuration selects. -/
abbrev strategy : RateLimitStrategy config.State := config.algorithm.strategy

/-- The meter that this strategy is. -/
abbrev meter : Meter config.State ℚ := config.algorithm.meter

end RateLimiterConfig

/-- `_create_strategy` at the reading `now`. -/
def createStrategy (config : RateLimiterConfig) (now : ℚ) : config.State :=
  config.algorithm.create config.limitForPeriod config.limitRefreshPeriod now

variable {limit : ℤ} {period : ℚ}

theorem valid_create (hl : 1 ≤ limit) (hp : 0 < period) (start : ℚ)
    (algorithm : RateLimitAlgorithm) :
    algorithm.Valid limit period (algorithm.create limit period start) start := by
  cases algorithm with
  | tokenBucket => exact TokenBucketStrategy.valid_init hl period start
  | leakyBucket => exact LeakyBucketStrategy.valid_init limit period start
  | fixedWindow => exact FixedWindowStrategy.valid_init hl hp start
  | slidingWindow => exact SlidingWindowStrategy.valid_init hl hp start

/-- **Whichever the algorithm, the strategy is a lawful meter.** -/
theorem meter_lawful (hl : 1 ≤ limit) (hp : 0 < period) (algorithm : RateLimitAlgorithm) :
    algorithm.meter.Lawful (algorithm.Valid limit period) := by
  cases algorithm with
  | tokenBucket => exact tokenBucketMeter_lawful hl hp
  | leakyBucket => exact leakyBucketMeter_lawful hl hp
  | fixedWindow => exact fixedWindowMeter_lawful hp
  | slidingWindow => exact slidingWindowMeter_lawful hl hp

/-- Except for the sliding window, the estimate is punctual. -/
theorem meter_punctual_one (hl : 1 ≤ limit) (hp : 0 < period) {algorithm : RateLimitAlgorithm}
    (h : algorithm ≠ .slidingWindow) :
    algorithm.meter.Punctual (algorithm.Valid limit period) 1 := by
  cases algorithm with
  | tokenBucket => exact tokenBucketMeter_punctual hl hp
  | leakyBucket => exact leakyBucketMeter_punctual
  | fixedWindow => exact fixedWindowMeter_punctual hl hp
  | slidingWindow => exact absurd rfl h

/-- **Whichever the algorithm, waiting twice as estimated leads to a permit.** -/
theorem meter_punctual (hl : 1 ≤ limit) (hp : 0 < period) (algorithm : RateLimitAlgorithm) :
    algorithm.meter.Punctual (algorithm.Valid limit period) 2 := by
  by_cases h : algorithm = .slidingWindow
  · subst h
    exact slidingWindowMeter_punctual hl hp
  · exact (meter_lawful hl hp algorithm).punctual_succ (meter_punctual_one hl hp h)

/-- **Whichever the algorithm, a permit that has been taken is gone.** -/
theorem meter_diminishing (hl : 1 ≤ limit) (hp : 0 < period) (algorithm : RateLimitAlgorithm) :
    algorithm.meter.Diminishing (algorithm.Valid limit period) := by
  cases algorithm with
  | tokenBucket => exact tokenBucketMeter_diminishing
  | leakyBucket => exact leakyBucketMeter_diminishing
  | fixedWindow => exact fixedWindowMeter_diminishing hp
  | slidingWindow => exact slidingWindowMeter_diminishing hl hp

namespace RateLimiterConfig

variable (config : RateLimiterConfig) {start : ℚ} {h : History config.State}

/-- The runs of the strategy of a rate limiter that was created at the reading `start`. -/
abbrev runs (start : ℚ) : Machine (History config.State) (Query × ℚ) :=
  RateLimiter.runs config.strategy (createStrategy config start) start

/-- The valid states of the strategy of a rate limiter. -/
abbrev Valid : config.State → ℚ → Prop :=
  config.algorithm.Valid config.limitForPeriod config.limitRefreshPeriod

theorem strategy_eq : config.strategy = ofMeter config.meter :=
  config.algorithm.strategy_eq

theorem lawful : config.meter.Lawful config.Valid :=
  meter_lawful config.bounds.1 config.bounds.2.1 config.algorithm

theorem punctual : config.meter.Punctual config.Valid 2 :=
  meter_punctual config.bounds.1 config.bounds.2.1 config.algorithm

theorem diminishing : config.meter.Diminishing config.Valid :=
  meter_diminishing config.bounds.1 config.bounds.2.1 config.algorithm

theorem valid_createStrategy (start : ℚ) : config.Valid (createStrategy config start) start :=
  valid_create config.bounds.1 config.bounds.2.1 start config.algorithm

/-- The state of the strategy of a rate limiter is valid in every run. -/
theorem valid_of_reachable (hr : (config.runs start).Reachable h) :
    config.Valid h.strategy h.clock := by
  rw [runs, strategy_eq] at hr
  exact RateLimiter.valid_of_reachable config.lawful (config.valid_createStrategy start) hr

end RateLimiterConfig

end RateLimiter
