/-
The strategies of the rate limiter, and their runs.

A strategy has a state, and three queries that may update it: `try_acquire`,
`seconds_until_available` and `permits`.  All of them are called while the rate limiter holds its
lock, so they take effect one after the other.  A query is modelled as a function of the state and
of the reading of the clock at which it is evaluated; the readings of a run never decrease, as
`time.monotonic` guarantees.

Main definitions:

* `RateLimiter.RateLimitStrategy` — the interface of the strategies;
* `RateLimiter.History` — the state of a run: that of the strategy, and a record of the readings
  of the clock and of the grants;
* `RateLimiter.runs` — the machine that evaluates queries in any order.
-/

import Pysilience.Lib.Python
import Pysilience.Lib.Transition
import Mathlib.Algebra.Order.Ring.Unbundled.Rat

set_option relaxedAutoImplicit false
set_option autoImplicit false

namespace RateLimiter

open Transition

universe u

/-- The interface `_RateLimitStrategy`: the three queries, each evaluated at a reading of the
clock. -/
structure RateLimitStrategy (S : Type u) where
  tryAcquire : S → ℚ → Bool × S
  secondsUntilAvailable : S → ℚ → ℚ × S
  permits : S → ℚ → ℤ × S

/-- The names of the three queries. -/
inductive Query
  | tryAcquire | secondsUntilAvailable | permits
  deriving DecidableEq, Repr

/-- One query: whether it granted a permit, and the state it left. -/
def RateLimitStrategy.ask {S : Type u} (σ : RateLimitStrategy S) (strategy : S) (now : ℚ) :
    Query → Bool × S
  | .tryAcquire => σ.tryAcquire strategy now
  | .secondsUntilAvailable => (false, (σ.secondsUntilAvailable strategy now).2)
  | .permits => (false, (σ.permits strategy now).2)

/-- The state of a run: the strategy, the last reading of the clock, all readings so far
(construction included), and those at which `try_acquire` succeeded. -/
structure History (S : Type u) where
  strategy : S
  clock : ℚ
  readings : List ℚ
  grants : List ℚ

namespace History

variable {S : Type u}

/-- The run of a strategy that was constructed at the reading `now`. -/
def start (strategy : S) (now : ℚ) : History S := ⟨strategy, now, [now], []⟩

/-- One query at a reading of the clock, which does not run backwards. -/
def step (σ : RateLimitStrategy S) (h : History S) (a : Query × ℚ) : Option (History S) :=
  if a.2 < h.clock then none
  else
    let (granted, strategy) := σ.ask h.strategy a.2 a.1
    some ⟨strategy, a.2, a.2 :: h.readings, if granted then a.2 :: h.grants else h.grants⟩

/-- A query is evaluated no earlier than the one before it, and leaves what it asked for. -/
theorem step_eq_some {σ : RateLimitStrategy S} {h h' : History S} {query : Query} {now : ℚ}
    (hstep : h.step σ (query, now) = some h') :
    h.clock ≤ now ∧
      h' = ⟨(σ.ask h.strategy now query).2, now, now :: h.readings,
        if (σ.ask h.strategy now query).1 then now :: h.grants else h.grants⟩ := by
  unfold step at hstep
  split at hstep
  · cases hstep
  · next hnow => exact ⟨not_lt.1 hnow, (Option.some_inj.1 hstep).symm⟩

end History

/-- The runs of a strategy: its queries in any order, at readings that never decrease. -/
def runs {S : Type u} (σ : RateLimitStrategy S) (strategy : S) (now : ℚ) :
    Machine (History S) (Query × ℚ) where
  init := History.start strategy now
  step := History.step σ

end RateLimiter
