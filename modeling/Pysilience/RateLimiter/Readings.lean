/-
The readings of the clock within one query.

Some queries of the strategies read the clock more than once: the fixed window reads it twice for
its estimate, the sliding window twice for every query and a third time for its estimate.  Between
two readings the thread may be suspended for any time.  A query is atomic all the same, since it
runs under the lock; so only if its readings are made at one instant is it a query of the strategy
at this instant.

Main definitions:

* `RateLimiter.Readings` — the readings that one query makes;
* `RateLimiter.ClockedStrategy` — the interface of the strategies, with all their readings;
* `RateLimiter.ClockedStrategy.atOnce` — the strategy whose readings are made at one instant;
* `RateLimiter.RateLimitAlgorithm.clocked` — the four strategies.

Main results:

* `RateLimiter.ClockedStrategy.tryAcquire_of_single`,
  `RateLimiter.ClockedStrategy.secondsUntilAvailable_of_single`,
  `RateLimiter.ClockedStrategy.permits_of_single` — a query whose readings are made at one instant;
* `RateLimiter.RateLimitAlgorithm.clocked_atOnce` — the four strategies at one instant.
-/

import Pysilience.RateLimiter.Algorithms

set_option relaxedAutoImplicit false
set_option autoImplicit false

namespace RateLimiter

universe u

variable {S : Type u}

/-- The readings of the clock that a query makes, three at most.  A query that reads the clock less
often takes no notice of the later ones. -/
structure Readings where
  first : ℚ
  second : ℚ
  third : ℚ
  le_second : first ≤ second
  le_third : second ≤ third

/-- All readings made at one instant. -/
def Readings.at (now : ℚ) : Readings := ⟨now, now, now, le_rfl, le_rfl⟩

namespace Readings

/-- The readings are made at one instant. -/
def Single (r : Readings) : Prop := r.third = r.first

instance (r : Readings) : Decidable r.Single := inferInstanceAs (Decidable (r.third = r.first))

theorem le_last (r : Readings) : r.first ≤ r.third := r.le_second.trans r.le_third

theorem Single.eq_at {r : Readings} (h : r.Single) : r = .at r.first := by
  obtain ⟨first, second, third, hsecond, hthird⟩ := r
  obtain rfl : third = first := h
  obtain rfl : second = third := le_antisymm hthird hsecond
  rfl

end Readings

/-- The interface `_RateLimitStrategy`: the three queries, each with all its readings of the
clock. -/
structure ClockedStrategy (S : Type u) where
  tryAcquire : S → Readings → Bool × S
  secondsUntilAvailable : S → Readings → ℚ × S
  permits : S → Readings → ℤ × S

namespace ClockedStrategy

variable (τ : ClockedStrategy S)

/-- The strategy whose queries make all their readings at one instant. -/
def atOnce : RateLimitStrategy S where
  tryAcquire strategy now := τ.tryAcquire strategy (.at now)
  secondsUntilAvailable strategy now := τ.secondsUntilAvailable strategy (.at now)
  permits strategy now := τ.permits strategy (.at now)

variable {r : Readings}

theorem tryAcquire_of_single (h : r.Single) (strategy : S) :
    τ.tryAcquire strategy r = τ.atOnce.tryAcquire strategy r.first :=
  congrArg (τ.tryAcquire strategy) h.eq_at

theorem secondsUntilAvailable_of_single (h : r.Single) (strategy : S) :
    τ.secondsUntilAvailable strategy r = τ.atOnce.secondsUntilAvailable strategy r.first :=
  congrArg (τ.secondsUntilAvailable strategy) h.eq_at

theorem permits_of_single (h : r.Single) (strategy : S) :
    τ.permits strategy r = τ.atOnce.permits strategy r.first :=
  congrArg (τ.permits strategy) h.eq_at

end ClockedStrategy

/-- The queries of the strategy of an algorithm, with their readings. -/
def RateLimitAlgorithm.clocked : (algorithm : RateLimitAlgorithm) → ClockedStrategy algorithm.State
  | tokenBucket =>
      { tryAcquire := fun b r => b.tryAcquire r.first
        secondsUntilAvailable := fun b r => b.secondsUntilAvailable r.first
        permits := fun b r => b.permits r.first }
  | leakyBucket =>
      { tryAcquire := fun b r => b.tryAcquire r.first
        secondsUntilAvailable := fun b r => b.secondsUntilAvailable r.first
        permits := fun b r => b.permits r.first }
  | fixedWindow =>
      { tryAcquire := fun w r => w.tryAcquire r.first
        secondsUntilAvailable := fun w r => w.secondsUntilAvailable r.first r.second
        permits := fun w r => w.permits r.first }
  | slidingWindow =>
      { tryAcquire := fun w r => w.tryAcquire r.first r.second
        secondsUntilAvailable := fun w r => w.secondsUntilAvailable r.first r.second r.third
        permits := fun w r => w.permits r.first r.second }

/-- **At one instant the queries are those of the strategy.** -/
theorem RateLimitAlgorithm.clocked_atOnce (algorithm : RateLimitAlgorithm) :
    algorithm.clocked.atOnce = algorithm.strategy := by
  cases algorithm <;> rfl

/-- The queries of the strategy that the configuration selects, with their readings. -/
abbrev RateLimiterConfig.clocked (config : RateLimiterConfig) : ClockedStrategy config.State :=
  config.algorithm.clocked

theorem RateLimiterConfig.clocked_atOnce (config : RateLimiterConfig) :
    config.clocked.atOnce = config.strategy :=
  config.algorithm.clocked_atOnce

end RateLimiter
