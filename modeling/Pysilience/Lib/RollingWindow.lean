/-
States that keep the window of the present instant and are moved along lazily.

Such a state remembers where its window begins.  When it is used, and the window has ended in the
meantime, it is *rolled* by as many whole windows as have passed; otherwise it is left alone.  How
often the state is used on the way makes no difference, because rolling twice is rolling once.

Main definitions:

* `RollingWindow.Rolling` — how the states are rolled, and how they are advanced to the present.

Main results:

* `RollingWindow.Rolling.advance_cases` — what advancing does;
* `RollingWindow.Rolling.advance_advance` — **advancing in two steps is advancing in one**;
* `RollingWindow.Rolling.exists_start_advance` — advancing keeps to the grid of the windows.
-/

import Mathlib.Algebra.Order.Floor.Ring
import Mathlib.Tactic.Linarith
import Mathlib.Tactic.Ring

set_option relaxedAutoImplicit false
set_option autoImplicit false

namespace RollingWindow

universe u v

variable {S : Type u} {K : Type v} [Field K] [LinearOrder K] [IsStrictOrderedRing K] [FloorRing K]

/-- States with a window that begins at `start s` and is `period s` long: `roll s n` is the state
`n` windows later, and `advance s now` the state at the instant `now`. -/
structure Rolling (start period : S → K) (roll : S → ℕ → S) (advance : S → K → S) : Prop where
  start_roll : ∀ s n, start (roll s n) = start s + n * period s
  period_roll : ∀ s n, period (roll s n) = period s
  roll_roll : ∀ s {m n}, 1 ≤ m → 1 ≤ n → roll (roll s m) n = roll s (m + n)
  advance_eq : ∀ s now, 0 < period s → advance s now =
    if period s ≤ now - start s then roll s ⌊(now - start s) / period s⌋₊ else s

namespace Rolling

variable {start period : S → K} {roll : S → ℕ → S} {advance : S → K → S} {s : S} {now later : K}

/-- Within its window the state is left alone. -/
theorem advance_of_lt (h : Rolling start period roll advance) (hp : 0 < period s)
    (hlt : now < start s + period s) : advance s now = s := by
  rw [h.advance_eq s now hp, if_neg]
  linarith

/-- The state is rolled to the window that contains the present instant. -/
theorem advance_eq_roll (h : Rolling start period roll advance) (hp : 0 < period s) {n : ℕ}
    (hn : 1 ≤ n) (hle : start s + n * period s ≤ now)
    (hlt : now < start s + n * period s + period s) : advance s now = roll s n := by
  have hn' : (1 : K) ≤ n := by exact_mod_cast hn
  have hone : period s ≤ n * period s := le_mul_of_one_le_left hp.le hn'
  have hfloor : ⌊(now - start s) / period s⌋₊ = n := by
    rw [Nat.floor_eq_iff (div_nonneg (by linarith) hp.le), le_div_iff₀ hp, div_lt_iff₀ hp,
      add_mul, one_mul]
    exact ⟨by linarith, by linarith⟩
  rw [h.advance_eq s now hp, if_pos (by linarith), hfloor]

/-- At the end of its window the state is rolled by one window. -/
theorem advance_end (h : Rolling start period roll advance) (hp : 0 < period s) :
    advance s (start s + period s) = roll s 1 := by
  refine h.advance_eq_roll hp le_rfl ?_ ?_
  · rw [Nat.cast_one, one_mul]
  · rw [Nat.cast_one, one_mul]
    linarith

/-- **What advancing does**: nothing within the window of the state, and otherwise the state is
rolled by the number of windows that have passed. -/
theorem advance_cases (h : Rolling start period roll advance) (hp : 0 < period s) (now : K) :
    (now < start s + period s ∧ advance s now = s) ∨
    ∃ n : ℕ, 1 ≤ n ∧ start s + n * period s ≤ now ∧ now < start s + n * period s + period s ∧
      advance s now = roll s n := by
  rcases lt_or_ge now (start s + period s) with hlt | hge
  · exact Or.inl ⟨hlt, h.advance_of_lt hp hlt⟩
  · have hone : 1 ≤ (now - start s) / period s := (one_le_div hp).2 (by linarith)
    have hn : 1 ≤ ⌊(now - start s) / period s⌋₊ := Nat.one_le_floor_iff _ |>.2 hone
    have hle := (le_div_iff₀ hp).1 (Nat.floor_le (zero_le_one.trans hone))
    have hlt := (div_lt_iff₀ hp).1 (Nat.lt_floor_add_one ((now - start s) / period s))
    rw [add_mul, one_mul] at hlt
    refine Or.inr ⟨_, hn, by linarith, by linarith, ?_⟩
    exact h.advance_eq_roll hp hn (by linarith) (by linarith)

/-- **Advancing in two steps is advancing in one.** -/
theorem advance_advance (h : Rolling start period roll advance) (hp : 0 < period s)
    (hnow : now ≤ later) : advance (advance s now) later = advance s later := by
  rcases h.advance_cases hp now with ⟨_, heq⟩ | ⟨m, hm, hmle, hmlt, heq⟩
  · rw [heq]
  · rw [heq]
    have hp' : 0 < period (roll s m) := by rwa [h.period_roll]
    rcases h.advance_cases hp' later with ⟨hlt, heq'⟩ | ⟨n, hn, hnle, hnlt, heq'⟩
    · -- the later instant lies in the window of the earlier one
      rw [h.start_roll, h.period_roll] at hlt
      rw [heq', h.advance_eq_roll hp hm (hmle.trans hnow) hlt]
    · rw [h.start_roll, h.period_roll] at hnle hnlt
      rw [heq', h.roll_roll s hm hn]
      refine (h.advance_eq_roll hp (by omega) ?_ ?_).symm
      · rw [Nat.cast_add, add_mul]
        linarith
      · rw [Nat.cast_add, add_mul]
        linarith

/-- The present instant lies in the window of the advanced state. -/
theorem start_advance_le (h : Rolling start period roll advance) (hp : 0 < period s)
    (hnow : start s ≤ now) : start (advance s now) ≤ now := by
  rcases h.advance_cases hp now with ⟨_, heq⟩ | ⟨n, _, hle, _, heq⟩
  · rwa [heq]
  · rwa [heq, h.start_roll]

/-- The present instant lies before the end of the window of the advanced state. -/
theorem lt_start_advance (h : Rolling start period roll advance) (hp : 0 < period s) (now : K) :
    now < start (advance s now) + period s := by
  rcases h.advance_cases hp now with ⟨hlt, heq⟩ | ⟨n, _, _, hlt, heq⟩
  · rwa [heq]
  · rwa [heq, h.start_roll]

/-- **Advancing keeps to the grid of the windows.** -/
theorem exists_start_advance (h : Rolling start period roll advance) (hp : 0 < period s) {w0 : K}
    (hs : ∃ k : ℤ, start s = w0 + k * period s) (now : K) :
    ∃ k : ℤ, start (advance s now) = w0 + k * period s := by
  obtain ⟨k, hk⟩ := hs
  rcases h.advance_cases hp now with ⟨_, heq⟩ | ⟨n, _, _, _, heq⟩
  · exact ⟨k, by rw [heq, hk]⟩
  · refine ⟨k + n, ?_⟩
    rw [heq, h.start_roll, hk, Int.cast_add, Int.cast_natCast]
    ring

end Rolling

end RollingWindow
