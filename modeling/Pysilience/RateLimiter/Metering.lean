/-
Strategies that are meters.

Each strategy of the rate limiter catches up with the clock whenever it is queried, and then answers
from what it keeps.  It is a lazy meter, with exact rationals for the readings of the clock: its
`try_acquire` is the attempt of the meter, its `seconds_until_available` the estimate and its
`permits` the report.  What holds of lawful meters therefore holds of it.

Main definitions:

* `RateLimiter.ofMeter` — the strategy of a meter;
* `RateLimiter.KeptByMeter` — a property of runs that the operations of a meter keep.

Main results:

* `RateLimiter.KeptByMeter.reachable` — **what settling and taking a permit keep holds in every
  run**;
* `RateLimiter.valid_of_reachable` — the state of a lawful meter is valid in every run;
* `RateLimiter.ask_snd_of_not_granted` — a query that grants nothing only settles the state.
-/

import Pysilience.Lib.LazyMeter
import Pysilience.RateLimiter.Strategy
import Mathlib.Algebra.Order.Ring.Rat

set_option relaxedAutoImplicit false
set_option autoImplicit false

namespace RateLimiter

open LazyMeter Transition

universe u

variable {S : Type u}

/-- The strategy whose queries are the operations of a meter. -/
def ofMeter (m : Meter S ℚ) : RateLimitStrategy S where
  tryAcquire := m.attempt
  secondsUntilAvailable := m.estimate
  permits := m.report

/-- A strategy whose queries do what the operations of a meter do is the strategy of the meter. -/
theorem eq_ofMeter {σ : RateLimitStrategy S} {m : Meter S ℚ}
    (htry : ∀ s now, σ.tryAcquire s now = m.attempt s now)
    (hwait : ∀ s now, σ.secondsUntilAvailable s now = m.estimate s now)
    (hpermits : ∀ s now, σ.permits s now = m.report s now) : σ = ofMeter m := by
  obtain ⟨tryAcquire, secondsUntilAvailable, permits⟩ := σ
  rw [ofMeter, RateLimitStrategy.mk.injEq]
  exact ⟨funext₂ htry, funext₂ hwait, funext₂ hpermits⟩

variable {m : Meter S ℚ} {Valid : S → ℚ → Prop} {init s : S} {start t now : ℚ}

/-- A query that grants nothing only settles the state. -/
theorem ask_snd_of_not_granted {query : Query}
    (h : ((ofMeter m).ask s now query).1 = false) :
    ((ofMeter m).ask s now query).2 = m.settle s now := by
  cases query with
  | tryAcquire => exact Meter.attempt_snd_of_refused h
  | secondsUntilAvailable => rfl
  | permits => rfl

/-- Every query of a lawful meter keeps its state valid. -/
theorem ask_valid (law : m.Lawful Valid) (hs : Valid s t) (ht : t ≤ now) (query : Query) :
    Valid ((ofMeter m).ask s now query).2 now := by
  cases query with
  | tryAcquire => exact law.attempt_valid hs ht
  | secondsUntilAvailable => exact law.settle_valid hs ht
  | permits => exact law.settle_valid hs ht

/-- A property of the run that is kept when time passes and the state is settled, and when a permit
is taken from a settled state. -/
structure KeptByMeter (m : Meter S ℚ) (I : History S → Prop) : Prop where
  settle : ∀ {h now}, I h → h.clock ≤ now →
    I ⟨m.settle h.strategy now, now, now :: h.readings, h.grants⟩
  take : ∀ {h}, I h → 1 ≤ m.room h.strategy h.clock →
    I ⟨m.take h.strategy h.clock, h.clock, h.readings, h.clock :: h.grants⟩

variable {I : History S → Prop}

/-- A query settles the state, and takes a permit at most. -/
theorem KeptByMeter.step (hk : KeptByMeter m I) {h h' : History S} {a : Query × ℚ} (hi : I h)
    (hstep : h.step (ofMeter m) a = some h') : I h' := by
  obtain ⟨query, now⟩ := a
  obtain ⟨hnow, rfl⟩ := History.step_eq_some hstep
  have hsettled := hk.settle hi hnow
  cases query with
  | tryAcquire =>
      by_cases hroom : 1 ≤ m.avail h.strategy now
      · simp only [RateLimitStrategy.ask, ofMeter, Meter.attempt_of_le hroom, if_true]
        exact hk.take hsettled hroom
      · simp only [RateLimitStrategy.ask, ofMeter, Meter.attempt_of_lt (not_le.1 hroom),
          Bool.false_eq_true, if_false]
        exact hsettled
  | secondsUntilAvailable => exact hsettled
  | permits => exact hsettled

/-- **What settling and taking a permit keep holds in every run.** -/
theorem KeptByMeter.reachable (hk : KeptByMeter m I) (h0 : I (History.start init start))
    {h : History S} (hr : (runs (ofMeter m) init start).Reachable h) : I h :=
  hr.invariant (I := I) h0 fun _ _ _ hi hstep => hk.step hi hstep

/-- **The state of a lawful meter is valid in every run.** -/
theorem valid_of_reachable (law : m.Lawful Valid) (h0 : Valid init start) {h : History S}
    (hr : (runs (ofMeter m) init start).Reachable h) : Valid h.strategy h.clock := by
  have hk : KeptByMeter m fun h : History S => Valid h.strategy h.clock :=
    ⟨fun hs hnow => law.settle_valid hs hnow, fun hs hroom => law.take_valid hs hroom⟩
  exact hk.reachable h0 hr

end RateLimiter
