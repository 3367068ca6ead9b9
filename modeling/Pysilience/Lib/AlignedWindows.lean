/-
Counting grants in the windows of a grid.

Time is divided into windows of one length `P` that are aligned to an instant `w0`.  A meter that
keeps one number only, the grants made in the window that contains the present instant, knows
whether this window is full.  If no window is, every interval no longer than a window contains at
most twice as many grants as one may: it meets two windows at most.

```
         k               k + 1            k + 2
  |---------------|---------------|---------------|
              [---- P ----]
```

Main definitions:

* `AlignedWindows.InWindow` — the instants of the window with a given number;
* `AlignedWindows.grantsInWindow` — the number of grants made in it;
* `AlignedWindows.Counted` — a number counts the grants of the window that contains the present.

Main results:

* `AlignedWindows.InWindow.unique` — an instant lies in one window only;
* `AlignedWindows.Counted.pass`, `AlignedWindows.Counted.advance`, `AlignedWindows.Counted.grant` —
  the three updates;
* `AlignedWindows.grantsIn_le_two_mul` — **an interval no longer than a window has at most twice the
  grants of a window**.
-/

import Pysilience.Lib.ArrivalCurve
import Mathlib.Algebra.Order.Floor.Ring

set_option relaxedAutoImplicit false
set_option autoImplicit false

namespace AlignedWindows

open ArrivalCurve

universe u

variable {K : Type u} [Field K] [LinearOrder K]

/-- The instant `x` lies in the window number `k` of the grid. -/
def InWindow (w0 P : K) (k : ℤ) (x : K) : Prop := w0 + k * P ≤ x ∧ x < w0 + (k + 1) * P

instance (w0 P : K) (k : ℤ) (x : K) : Decidable (InWindow w0 P k x) :=
  inferInstanceAs (Decidable (_ ∧ _))

/-- The number of the grants `g` made in the window number `k`. -/
def grantsInWindow (w0 P : K) (k : ℤ) (g : List K) : ℕ := g.countP fun x => InWindow w0 P k x

theorem grantsInWindow_cons (w0 P : K) (k : ℤ) (x : K) (g : List K) :
    grantsInWindow w0 P k (x :: g) =
      grantsInWindow w0 P k g + if InWindow w0 P k x then 1 else 0 := by
  simp [grantsInWindow, List.countP_cons]

variable [IsStrictOrderedRing K] {w0 P last now : K} {g : List K} {j k : ℤ} {count : ℕ}

/-! ### The grid -/

/-- A window ends no later than a window with a greater number begins. -/
theorem window_end_le (hP : 0 < P) (h : j < k) : w0 + (j + 1) * P ≤ w0 + k * P := by
  have hjk : ((j : K) + 1) ≤ k := by exact_mod_cast h
  linarith [mul_le_mul_of_nonneg_right hjk hP.le]

/-- Windows are numbered in the order of time. -/
theorem InWindow.le_of_le (hP : 0 < P) {x y : K} (hx : InWindow w0 P j x) (hy : InWindow w0 P k y)
    (hxy : x ≤ y) : j ≤ k := by
  by_contra hlt
  rw [not_le] at hlt
  have hend : w0 + (k + 1) * P ≤ w0 + j * P := window_end_le hP hlt
  linarith [hx.1, hy.2]

/-- **An instant lies in one window only.** -/
theorem InWindow.unique (hP : 0 < P) {x : K} (hj : InWindow w0 P j x) (hk : InWindow w0 P k x) :
    j = k :=
  le_antisymm (hj.le_of_le hP hk le_rfl) (hk.le_of_le hP hj le_rfl)

/-- Every instant lies in some window. -/
theorem exists_inWindow [FloorRing K] (hP : 0 < P) (w0 x : K) : ∃ k : ℤ, InWindow w0 P k x := by
  refine ⟨⌊(x - w0) / P⌋, ?_, ?_⟩
  · linarith [(le_div_iff₀ hP).1 (Int.floor_le ((x - w0) / P))]
  · linarith [(div_lt_iff₀ hP).1 (Int.lt_floor_add_one ((x - w0) / P))]

/-- **An interval no longer than a window has at most twice the grants of a window.** -/
theorem grantsIn_le_two_mul [FloorRing K] (hP : 0 < P) {limit : ℕ}
    (hg : ∀ k, grantsInWindow w0 P k g ≤ limit) {s t : K} (hlen : t - s ≤ P) :
    grantsIn g s t ≤ 2 * limit := by
  obtain ⟨k, hs⟩ := exists_inWindow hP w0 s
  have hsplit : grantsIn g s t ≤ grantsInWindow w0 P k g + grantsInWindow w0 P (k + 1) g := by
    refine countP_le_countP_add_countP fun x _ hx => ?_
    obtain ⟨hsx, hxt⟩ := of_decide_eq_true hx
    rcases lt_or_ge x (w0 + (k + 1) * P) with hlt | hge
    · exact Or.inl (decide_eq_true ⟨hs.1.trans hsx, hlt⟩)
    · refine Or.inr (decide_eq_true ?_)
      rw [InWindow, Int.cast_add, Int.cast_one]
      exact ⟨hge, by linarith [hs.2]⟩
  have h1 := hg k
  have h2 := hg (k + 1)
  omega

/-! ### Counting the current window -/

/-- The number `count` counts those of the grants `g` that were made in the window number `k`, which
contains the present instant `last`. -/
structure Counted (w0 P : K) (g : List K) (k : ℤ) (last : K) (count : ℕ) : Prop where
  last_mem : InWindow w0 P k last
  grants_le : ∀ x ∈ g, x ≤ last
  count_eq : grantsInWindow w0 P k g = count

namespace Counted

/-- A meter begins with no grant in the first window. -/
theorem new (hP : 0 < P) (now : K) : Counted now P [] 0 now 0 where
  last_mem := by
    rw [InWindow, Int.cast_zero]
    constructor <;> linarith
  grants_le := by simp
  count_eq := rfl

omit [IsStrictOrderedRing K] in
/-- **Time passes** within the current window. -/
theorem pass (h : Counted w0 P g k last count) (hnow : last ≤ now) (hk : InWindow w0 P k now) :
    Counted w0 P g k now count where
  last_mem := hk
  grants_le x hx := (h.grants_le x hx).trans hnow
  count_eq := h.count_eq

/-- **Time passes** into a later window. -/
theorem advance (h : Counted w0 P g j last count) (hP : 0 < P) (hjk : j < k)
    (hk : InWindow w0 P k now) : Counted w0 P g k now 0 := by
  have hbegin : ∀ x ∈ g, x < w0 + k * P := fun x hx =>
    ((h.grants_le x hx).trans_lt h.last_mem.2).trans_le (window_end_le hP hjk)
  refine ⟨hk, fun x hx => (hbegin x hx).le.trans hk.1, List.countP_eq_zero.2 fun x hx hmem => ?_⟩
  exact absurd (hbegin x hx) (not_lt.2 (of_decide_eq_true hmem).1)

omit [IsStrictOrderedRing K] in
/-- **A grant** at the present instant. -/
theorem grant (h : Counted w0 P g k last count) :
    Counted w0 P (last :: g) k last (count + 1) where
  last_mem := h.last_mem
  grants_le := List.forall_mem_cons.2 ⟨le_rfl, h.grants_le⟩
  count_eq := by rw [grantsInWindow_cons, if_pos h.last_mem, h.count_eq]

/-- A grant that leaves the current window within a bound leaves every window within it. -/
theorem grantsInWindow_grant_le (h : Counted w0 P g k last count) (hP : 0 < P) {limit : ℕ}
    (hroom : count + 1 ≤ limit) (hg : ∀ j, grantsInWindow w0 P j g ≤ limit) (j : ℤ) :
    grantsInWindow w0 P j (last :: g) ≤ limit := by
  rw [grantsInWindow_cons]
  split
  · next hj =>
    rw [hj.unique hP h.last_mem, h.count_eq]
    exact hroom
  · exact hg j

end Counted

end AlignedWindows
