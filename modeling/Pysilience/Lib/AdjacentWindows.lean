/-
Counting grants in two adjacent windows.

Time is divided into windows of one length.  A meter that keeps two numbers only, the grants made
in the window that contains the present instant and those made in the window before it, bounds the
grants of every interval that is no longer than a window and reaches up to the present: such an
interval meets no window but these two.

```
        start - P            start       last    start + P
  --------|--------------------|----------|--------|------
               `previous`           `current`
```

The numbers are kept by three updates: time passes within the current window, time passes into a
later window, and a grant is made.

Main definitions:

* `AdjacentWindows.Counted` — the two numbers count the grants of the two windows.

Main results:

* `AdjacentWindows.Counted.pass`, `AdjacentWindows.Counted.advance`, `AdjacentWindows.Counted.grant`
  — the three updates;
* `AdjacentWindows.Counted.grantsIn_le` — the two numbers bound the grants of an interval;
* `AdjacentWindows.Counted.smooth` — **a meter that weighs the previous window by what is left of it
  conforms to the arrival curve `limit * (1 + x / P)`** over intervals no longer than a window.
-/

import Pysilience.Lib.ArrivalCurve

set_option relaxedAutoImplicit false
set_option autoImplicit false

namespace AdjacentWindows

open ArrivalCurve

universe u

variable {K : Type u} [Field K] [LinearOrder K] [IsStrictOrderedRing K]

/-- Of the grants `g` made up to the instant `last`, `current` were made in the window of length `P`
that begins at `start` and contains `last`, and `previous` in the window before it. -/
structure Counted (P : K) (g : List K) (start last : K) (previous current : ℕ) : Prop where
  start_le : start ≤ last
  last_lt : last < start + P
  grants_le : ∀ x ∈ g, x ≤ last
  previous_eq : (g.countP fun x => start - P ≤ x ∧ x < start) = previous
  current_eq : (g.countP fun x => start ≤ x) = current

namespace Counted

variable {P : K} {g : List K} {start last now : K} {previous current : ℕ}

/-- A new meter. -/
theorem new (hP : 0 < P) (now : K) : Counted P [] now now 0 0 where
  start_le := le_rfl
  last_lt := lt_add_of_pos_right now hP
  grants_le := by simp
  previous_eq := rfl
  current_eq := rfl

omit [IsStrictOrderedRing K] in
/-- **Time passes** within the current window. -/
theorem pass (h : Counted P g start last previous current) (hnow : last ≤ now)
    (hlt : now < start + P) : Counted P g start now previous current where
  start_le := h.start_le.trans hnow
  last_lt := hlt
  grants_le x hx := (h.grants_le x hx).trans hnow
  previous_eq := h.previous_eq
  current_eq := h.current_eq

/-- **Time passes** into a later window: the next one, or one after it. -/
theorem advance (h : Counted P g start last previous current) (hP : 0 < P) {n : ℕ} (hn : 1 ≤ n)
    (hle : start + n * P ≤ now) (hlt : now < start + n * P + P) :
    Counted P g (start + n * P) now (if n = 1 then current else 0) 0 := by
  have hn' : (1 : K) ≤ n := by exact_mod_cast hn
  have hone : start + P ≤ start + n * P := by
    have := mul_le_mul_of_nonneg_right hn' hP.le
    linarith
  have hgrants : ∀ x ∈ g, x < start + P := fun x hx => (h.grants_le x hx).trans_lt h.last_lt
  refine ⟨hle, hlt, fun x hx => ((hgrants x hx).le.trans hone).trans hle, ?_, ?_⟩
  · by_cases h1 : n = 1
    · -- the next window: the current one becomes the previous one
      subst h1
      rw [if_pos rfl, ← h.current_eq]
      refine List.countP_congr fun x hx => ?_
      have := hgrants x hx
      simp only [Nat.cast_one, one_mul, add_sub_cancel_right, decide_eq_true_eq, this, and_true]
    · -- a whole window has passed without a grant
      have hn2 : (2 : K) ≤ n := by
        have : 2 ≤ n := by omega
        exact_mod_cast this
      rw [if_neg h1, List.countP_eq_zero]
      intro x hx
      have h1 := hgrants x hx
      have h2 := mul_le_mul_of_nonneg_right hn2 hP.le
      simp only [decide_eq_true_eq, not_and, not_lt]
      intro hge
      linarith
  · rw [List.countP_eq_zero]
    intro x hx
    have := hgrants x hx
    simp only [decide_eq_true_eq, not_le]
    linarith

/-- **A grant** at the present instant. -/
theorem grant (h : Counted P g start last previous current) :
    Counted P (last :: g) start last previous (current + 1) where
  start_le := h.start_le
  last_lt := h.last_lt
  grants_le := List.forall_mem_cons.2 ⟨le_rfl, h.grants_le⟩
  previous_eq := by
    have : ¬ (start - P ≤ last ∧ last < start) := fun hlast => not_lt.2 h.start_le hlast.2
    rw [List.countP_cons_of_neg (by simpa using this), h.previous_eq]
  current_eq := by
    rw [List.countP_cons_of_pos (by simpa using h.start_le), h.current_eq]

omit [IsStrictOrderedRing K] in
/-- An interval that begins within the current window has no more grants than the window. -/
theorem grantsIn_le_current (h : Counted P g start last previous current) {s : K}
    (hs : start ≤ s) (t : K) : grantsIn g s t ≤ current := by
  rw [← h.current_eq]
  refine List.countP_mono_left fun x _ hx => ?_
  simp only [decide_eq_true_eq] at hx ⊢
  exact hs.trans hx.1

omit [IsStrictOrderedRing K] in
/-- An interval that begins no earlier than the previous window has no more grants than the two
windows together. -/
theorem grantsIn_le (h : Counted P g start last previous current) {s : K}
    (hs : start - P ≤ s) (t : K) : grantsIn g s t ≤ previous + current := by
  rw [← h.previous_eq, ← h.current_eq, grantsIn]
  refine countP_le_countP_add_countP fun x _ hx => ?_
  simp only [decide_eq_true_eq] at hx ⊢
  rcases lt_or_ge x start with hlt | hge
  · exact Or.inl ⟨hs.trans hx.1, hlt⟩
  · exact Or.inr hge

/-! ### Weighing the previous window -/

/-- **Weighing the previous window smooths bursts.**  Grants are made only while the grants of the
previous window, weighted by the part of it that is still within one window of the present, and
those of the current one leave room for one more.  If the grants so far conform to the curve
`limit * (1 + x / P)` over intervals no longer than a window, so do those with the new one. -/
theorem smooth (h : Counted P g start last previous current) (hP : 0 < P) {limit : K}
    (hprev : (previous : K) ≤ limit)
    (hroom : previous * (1 - (last - start) / P) + current + 1 ≤ limit)
    (hg : ∀ s t, s ≤ t → t - s ≤ P → (grantsIn g s t : K) ≤ limit * (1 + (t - s) / P)) :
    ∀ s t, s ≤ t → t - s ≤ P →
      (grantsIn (last :: g) s t : K) ≤ limit * (1 + (t - s) / P) := by
  intro s t hst hlen
  rw [grantsIn_cons]
  split
  · next hmem =>
    -- the interval contains the new grant, hence begins within the two windows
    obtain ⟨hs, ht⟩ := hmem
    have hlimit : 0 ≤ limit := le_trans (Nat.cast_nonneg previous) hprev
    have hweight : 0 ≤ 1 - (last - start) / P := by
      have : (last - start) / P ≤ 1 := (div_le_one hP).2 (by linarith [h.last_lt])
      linarith
    have hgrow : 0 ≤ limit * ((t - s) / P) :=
      mul_nonneg hlimit (div_nonneg (sub_nonneg.2 hst) hP.le)
    rw [Nat.cast_add, Nat.cast_one, mul_add, mul_one]
    rcases le_or_gt start s with hin | hout
    · have hcount : (grantsIn g s t : K) ≤ current := by
        exact_mod_cast h.grantsIn_le_current hin t
      have := mul_nonneg (Nat.cast_nonneg (α := K) previous) hweight
      linarith
    · have hcount : (grantsIn g s t : K) ≤ previous + current := by
        exact_mod_cast h.grantsIn_le (s := s) (by linarith [h.start_le]) t
      -- what the weight leaves out of the previous window is paid by the length of the interval
      have hpaid : previous * ((last - start) / P) ≤ limit * ((t - s) / P) := by
        refine mul_le_mul hprev ?_ (div_nonneg (sub_nonneg.2 h.start_le) hP.le) hlimit
        exact div_le_div_of_nonneg_right (by linarith) hP.le
      rw [mul_sub, mul_one] at hroom
      linarith
  · rw [add_zero]
    exact hg s t hst hlen

end Counted

end AdjacentWindows
