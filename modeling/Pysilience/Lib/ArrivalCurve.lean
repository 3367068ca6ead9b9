/-
Arrival curves: how many grants a meter with a burst allowance and a rate admits.

Given a burst `b`, a rate `r`, the instants at which a process was *read* and those at which it
made a *grant*, the grants conform to the curve `b + r·x` if no interval that begins at a reading
contains more of them than `b` plus `r` times its length.  A meter that keeps a single number, its
*level*, can enforce this exactly, if the level is at all times the least of the allowances that
the readings so far leave:

```
level = min over readings s of  b + (last - s) * r - grants in [s, last]
```

The number is kept exact by two updates: letting time pass adds `r` per unit of time and clamps the
level to `b`, and a grant takes one from it.

Main definitions:

* `ArrivalCurve.grantsIn` — the number of grants in an interval;
* `ArrivalCurve.Metered` — the level is the least allowance, and the grants conform;
* `ArrivalCurve.Spaced` — every grant is an interval after the one before it.

Main results:

* `ArrivalCurve.Metered.start`, `ArrivalCurve.Metered.pass`, `ArrivalCurve.Metered.take` — the level
  of a new meter, and the two updates;
* `ArrivalCurve.Metered.exhausted` — **where the level is below one, a grant would exceed the
  curve**;
* `ArrivalCurve.grantsIn_le_of_readings` — grants that conform from every reading conform from every
  instant;
* `ArrivalCurve.Spaced.grantsIn_mul_le` — **spaced grants conform to the curve with a burst of
  one**;
* `ArrivalCurve.countP_batches_le` — **grants that come in spaced batches**.
-/

import Mathlib.Algebra.Order.Field.Basic
import Mathlib.Algebra.Order.Floor.Ring
import Mathlib.Data.Finset.Max
import Mathlib.Data.List.Basic
import Mathlib.Tactic.Linarith
import Mathlib.Tactic.Ring

set_option relaxedAutoImplicit false
set_option autoImplicit false

namespace ArrivalCurve

universe u

section Grants

variable {K : Type u} [LinearOrder K]

/-- The number of the grants `g` made at instants in `[s, t]`. -/
def grantsIn (g : List K) (s t : K) : ℕ := g.countP fun x => s ≤ x ∧ x ≤ t

theorem grantsIn_nil (s t : K) : grantsIn [] s t = 0 := rfl

theorem grantsIn_cons (x : K) (g : List K) (s t : K) :
    grantsIn (x :: g) s t = grantsIn g s t + if s ≤ x ∧ x ≤ t then 1 else 0 := by
  simp [grantsIn, List.countP_cons]

/-- Extending an interval beyond the last grant adds none. -/
theorem grantsIn_of_le {g : List K} {last t : K} (hg : ∀ x ∈ g, x ≤ last) (ht : last ≤ t) (s : K) :
    grantsIn g s t = grantsIn g s last := by
  refine List.countP_congr fun x hx => ?_
  have hlast := hg x hx
  simp only [decide_eq_true_eq, hlast, hlast.trans ht]

/-- There are no grants after the last one. -/
theorem grantsIn_of_lt {g : List K} {last s : K} (hg : ∀ x ∈ g, x ≤ last) (hs : last < s) (t : K) :
    grantsIn g s t = 0 := by
  refine List.countP_eq_zero.2 fun x hx => ?_
  have hlast := hg x hx
  simp only [decide_eq_true_eq, not_and]
  intro hsx
  exact absurd (hsx.trans hlast) (not_le.2 hs)

/-- Where every element that is counted is counted in one of two ways, so many are counted in the
two ways together. -/
theorem countP_le_countP_add_countP {α : Type u} {p q r : α → Bool} {l : List α}
    (h : ∀ x ∈ l, p x = true → q x = true ∨ r x = true) :
    l.countP p ≤ l.countP q + l.countP r := by
  induction l with
  | nil => simp
  | cons x l ih =>
      have ih := ih fun y hy => h y (List.mem_cons_of_mem x hy)
      simp only [List.countP_cons]
      by_cases hp : p x = true
      · rcases h x List.mem_cons_self hp with hq | hr
        · rw [if_pos hp, if_pos hq]
          omega
        · rw [if_pos hp, if_pos hr]
          omega
      · rw [if_neg hp]
        omega

end Grants

variable {K : Type u} [Field K] [LinearOrder K] [IsStrictOrderedRing K]

/-- The state of a meter with burst `b` and rate `r` that was read at the instants `R`, the last of
them `last`, granted at the instants `g`, and stands at `level`: the level is the least allowance
left by a reading, and no interval that begins at a reading contains more grants than the curve. -/
structure Metered (b r : K) (R g : List K) (last level : K) : Prop where
  last_mem : last ∈ R
  readings_le : ∀ s ∈ R, s ≤ last
  grants_le : ∀ x ∈ g, x ≤ last
  nonneg : 0 ≤ level
  allowance : ∀ s ∈ R, level + grantsIn g s last ≤ b + (last - s) * r
  tight : ∃ s ∈ R, level + grantsIn g s last = b + (last - s) * r
  conforms : ∀ s ∈ R, ∀ t, s ≤ t → (grantsIn g s t : K) ≤ b + (t - s) * r

namespace Metered

variable {b r : K} {R g : List K} {last level : K}

/-- The level never exceeds the burst. -/
theorem level_le (h : Metered b r R g last level) : level ≤ b := by
  have hlast := h.allowance last h.last_mem
  have hpos : (0 : K) ≤ grantsIn g last last := Nat.cast_nonneg _
  rw [sub_self, zero_mul, add_zero] at hlast
  linarith

/-- A meter is full when it is new. -/
theorem start (hb : 0 ≤ b) (hr : 0 ≤ r) (now : K) : Metered b r [now] [] now b where
  last_mem := List.mem_singleton_self now
  readings_le := by simp
  grants_le := by simp
  nonneg := hb
  allowance := by simp [grantsIn_nil]
  tight := ⟨now, by simp, by simp [grantsIn_nil]⟩
  conforms s hs t hst := by
    have : 0 ≤ (t - s) * r := mul_nonneg (sub_nonneg.2 hst) hr
    rw [grantsIn_nil, Nat.cast_zero]
    linarith

omit [IsStrictOrderedRing K] in
/-- The allowance that an earlier reading leaves after time has passed. -/
theorem allowance_pass (h : Metered b r R g last level) {now : K} (hnow : last ≤ now) (s : K) :
    b + (now - s) * r - grantsIn g s now =
      b + (last - s) * r - grantsIn g s last + (now - last) * r := by
  rw [grantsIn_of_le h.grants_le hnow]
  ring

/-- While the level is below the burst, some reading other than the present one leaves it. -/
theorem tight_of_lt (h : Metered b r R g last level) {now : K} (hnow : last ≤ now)
    (hlt : level + (now - last) * r ≤ b) :
    ∃ s ∈ R, min b (level + (now - last) * r) + grantsIn g s now = b + (now - s) * r := by
  obtain ⟨s, hs, heq⟩ := h.tight
  have := h.allowance_pass hnow s
  refine ⟨s, hs, ?_⟩
  rw [min_eq_right hlt]
  linarith

/-- **Time passes**: the meter is read at the instant `now`. -/
theorem pass (h : Metered b r R g last level) (hr : 0 ≤ r) {now : K} (hnow : last ≤ now) :
    Metered b r (now :: R) g now (min b (level + (now - last) * r)) where
  last_mem := List.mem_cons_self
  readings_le s hs := by
    rcases List.mem_cons.1 hs with rfl | hs
    · exact le_rfl
    · exact (h.readings_le s hs).trans hnow
  grants_le x hx := (h.grants_le x hx).trans hnow
  nonneg := by
    have hb : 0 ≤ b := h.nonneg.trans h.level_le
    have : 0 ≤ (now - last) * r := mul_nonneg (sub_nonneg.2 hnow) hr
    exact le_min hb (add_nonneg h.nonneg this)
  allowance s hs := by
    have hmin := min_le_right b (level + (now - last) * r)
    have hold : ∀ s ∈ R, min b (level + (now - last) * r) + grantsIn g s now ≤
        b + (now - s) * r := by
      intro s hs
      have h1 := h.allowance s hs
      have h2 := h.allowance_pass hnow s
      linarith
    rcases List.mem_cons.1 hs with rfl | hs
    · rcases eq_or_lt_of_le hnow with rfl | hlt
      · exact hold last h.last_mem
      · -- a new reading: nothing was granted yet, and the level is clamped
        have hle := min_le_left b (level + (s - last) * r)
        rw [grantsIn_of_lt h.grants_le hlt, sub_self, Nat.cast_zero]
        linarith
    · exact hold s hs
  tight := by
    by_cases hlt : level + (now - last) * r ≤ b
    · obtain ⟨s, hs, heq⟩ := h.tight_of_lt hnow hlt
      exact ⟨s, List.mem_cons_of_mem _ hs, heq⟩
    · rw [not_le] at hlt
      have hne : last < now := by
        refine lt_of_le_of_ne hnow ?_
        rintro rfl
        rw [sub_self, zero_mul, add_zero] at hlt
        exact absurd h.level_le (not_le.2 hlt)
      refine ⟨now, List.mem_cons_self, ?_⟩
      rw [min_eq_left hlt.le, grantsIn_of_lt h.grants_le hne, sub_self, Nat.cast_zero]
      ring
  conforms s hs t hst := by
    rcases List.mem_cons.1 hs with rfl | hs
    · rcases eq_or_lt_of_le hnow with rfl | hlt
      · exact h.conforms last h.last_mem t hst
      · have hb : 0 ≤ b := h.nonneg.trans h.level_le
        have : 0 ≤ (t - s) * r := mul_nonneg (sub_nonneg.2 hst) hr
        rw [grantsIn_of_lt h.grants_le hlt, Nat.cast_zero]
        linarith
    · exact h.conforms s hs t hst

/-- **A grant** takes one from the level. -/
theorem take (h : Metered b r R g last level) (hr : 0 ≤ r) (hlevel : 1 ≤ level) :
    Metered b r R (last :: g) last (level - 1) where
  last_mem := h.last_mem
  readings_le := h.readings_le
  grants_le := List.forall_mem_cons.2 ⟨le_rfl, h.grants_le⟩
  nonneg := sub_nonneg.2 hlevel
  allowance s hs := by
    have := h.allowance s hs
    rw [grantsIn_cons, if_pos ⟨h.readings_le s hs, le_rfl⟩, Nat.cast_add, Nat.cast_one]
    linarith
  tight := by
    obtain ⟨s, hs, heq⟩ := h.tight
    refine ⟨s, hs, ?_⟩
    rw [grantsIn_cons, if_pos ⟨h.readings_le s hs, le_rfl⟩, Nat.cast_add, Nat.cast_one]
    linarith
  conforms s hs t hst := by
    by_cases ht : last ≤ t
    · have h1 := h.allowance s hs
      have h2 : 0 ≤ (t - last) * r := mul_nonneg (sub_nonneg.2 ht) hr
      rw [grantsIn_cons, if_pos ⟨h.readings_le s hs, ht⟩, grantsIn_of_le h.grants_le ht,
        Nat.cast_add, Nat.cast_one]
      linarith
    · rw [grantsIn_cons, if_neg fun hmem => ht hmem.2, add_zero]
      exact h.conforms s hs t hst

/-- **Where the level is below one a grant would exceed the curve**, seen from a reading that is
earlier than the present one. -/
theorem exhausted (h : Metered b r R g last level) (hb : 1 ≤ b) {now : K} (hnow : last ≤ now)
    (hlevel : min b (level + (now - last) * r) < 1) :
    ∃ s ∈ R, b + (now - s) * r < grantsIn g s now + 1 := by
  have hlt : level + (now - last) * r ≤ b := by
    rcases min_lt_iff.1 hlevel with hlt | hlt
    · exact absurd hb (not_le.2 hlt)
    · exact hlt.le.trans hb
  obtain ⟨s, hs, heq⟩ := h.tight_of_lt hnow hlt
  refine ⟨s, hs, ?_⟩
  linarith

end Metered

/-- **Grants that conform to a curve from every reading conform to it from every instant**, if each
was made at a reading: an interval may as well begin at its first grant. -/
theorem grantsIn_le_of_readings {b r : K} {R g : List K} (hb : 0 ≤ b) (hr : 0 ≤ r)
    (hg : ∀ x ∈ g, x ∈ R)
    (hconforms : ∀ s ∈ R, ∀ t, s ≤ t → (grantsIn g s t : K) ≤ b + (t - s) * r) {s t : K}
    (hst : s ≤ t) : (grantsIn g s t : K) ≤ b + (t - s) * r := by
  by_cases hnone : ∃ x ∈ g.toFinset, s ≤ x ∧ x ≤ t
  · obtain ⟨x, hx, hfirst⟩ := Finset.exists_min_image (g.toFinset.filter fun x => s ≤ x ∧ x ≤ t) id
      (by simpa [Finset.Nonempty] using hnone)
    simp only [Finset.mem_filter, List.mem_toFinset, id_eq] at hx hfirst
    have hcount : grantsIn g s t = grantsIn g x t := by
      refine List.countP_congr fun y hy => ?_
      simp only [decide_eq_true_eq]
      exact ⟨fun hin => ⟨hfirst y ⟨hy, hin⟩, hin.2⟩, fun hin => ⟨hx.2.1.trans hin.1, hin.2⟩⟩
    have hlen : (t - x) * r ≤ (t - s) * r :=
      mul_le_mul_of_nonneg_right (sub_le_sub_left hx.2.1 t) hr
    rw [hcount]
    linarith [hconforms x (hg x hx.1) t hx.2.2]
  · have hzero : grantsIn g s t = 0 := by
      refine List.countP_eq_zero.2 fun x hx hin => hnone ⟨x, ?_, of_decide_eq_true hin⟩
      exact List.mem_toFinset.2 hx
    rw [hzero, Nat.cast_zero]
    exact add_nonneg hb (mul_nonneg (sub_nonneg.2 hst) hr)

/-! ### Spaced grants -/

/-- The grants `g`, newest first, are at least `d` apart. -/
def Spaced (d : K) (g : List K) : Prop := g.Pairwise fun later earlier => earlier + d ≤ later

namespace Spaced

variable {d : K} {g : List K}

omit [IsStrictOrderedRing K] in
theorem nil : Spaced d [] := List.Pairwise.nil

/-- A grant that is far enough from the last one is far enough from all of them. -/
theorem cons (h : Spaced d g) (hd : 0 ≤ d) {now : K} (hnow : ∀ last ∈ g.head?, last + d ≤ now) :
    Spaced d (now :: g) := by
  refine List.pairwise_cons.2 ⟨?_, h⟩
  cases g with
  | nil => simp
  | cons last g =>
      have hlast : last + d ≤ now := hnow last rfl
      refine List.forall_mem_cons.2 ⟨hlast, fun earlier hearlier => ?_⟩
      have := (List.pairwise_cons.1 h).1 earlier hearlier
      linarith

/-- The last of some spaced grants is far from where they begin. -/
theorem length_mul_le {s : K} : ∀ {g : List K} {last : K}, Spaced d (last :: g) →
    (∀ x ∈ last :: g, s ≤ x) → ((last :: g).length : K) * d ≤ last - s + d := by
  intro g
  induction g with
  | nil =>
      intro last _ hs
      have := hs last List.mem_cons_self
      rw [List.length_singleton, Nat.cast_one, one_mul]
      linarith
  | cons x g ih =>
      intro last h hs
      obtain ⟨hlast, h⟩ := List.pairwise_cons.1 h
      have hx := hlast x List.mem_cons_self
      have hrest := ih h (List.forall_mem_cons.1 hs).2
      rw [List.length_cons, Nat.cast_add, Nat.cast_one, add_mul, one_mul]
      linarith

/-- **Spaced grants conform to the curve with a burst of one**: an interval contains no more of them
than fit into it. -/
theorem grantsIn_mul_le (h : Spaced d g) (hd : 0 ≤ d) {s t : K} (hst : s ≤ t) :
    (grantsIn g s t : K) * d ≤ t - s + d := by
  rw [grantsIn, List.countP_eq_length_filter]
  have hspaced : Spaced d (g.filter fun x => s ≤ x ∧ x ≤ t) := List.Pairwise.filter _ h
  have hin : ∀ x ∈ g.filter fun x => s ≤ x ∧ x ≤ t, s ≤ x ∧ x ≤ t :=
    fun x hx => of_decide_eq_true (List.mem_filter.1 hx).2
  revert hspaced hin
  generalize g.filter (fun x => decide (s ≤ x ∧ x ≤ t)) = g'
  intro hspaced hin
  cases g' with
  | nil =>
      rw [List.length_nil, Nat.cast_zero, zero_mul]
      linarith
  | cons last g' =>
      have hlen := hspaced.length_mul_le fun x hx => (hin x hx).1
      have hlast := (hin last List.mem_cons_self).2
      linarith

end Spaced

/-! ### Grants in batches -/

/-- Elements that are numbered from zero on, at most `n` of them with the same number, are at most
`n` times as many as there are numbers. -/
theorem countP_lt_le_mul {α : Type u} (f : α → ℕ) {n : ℕ} {l : List α}
    (hn : ∀ i, l.countP (f · = i) ≤ n) (k : ℕ) : l.countP (f · < k) ≤ n * k := by
  induction k with
  | zero => simp
  | succ k ih =>
      have hsplit : l.countP (f · < k + 1) ≤ l.countP (f · < k) + l.countP (f · = k) := by
        refine countP_le_countP_add_countP fun x _ hx => ?_
        have hx : f x < k + 1 := of_decide_eq_true hx
        rcases Nat.lt_succ_iff_lt_or_eq.1 hx with hlt | heq
        · exact Or.inl (decide_eq_true hlt)
        · exact Or.inr (decide_eq_true heq)
      have hk := hn k
      rw [Nat.mul_succ]
      omega

/-- **Grants that come in batches**, at most `n` in a batch and those of different batches at least
`d` apart: an interval contains no more than `n` of them, and `n` for every time that `d` fits into
it. -/
theorem countP_batches_le [FloorRing K] {α : Type u} (time : α → K) (batch : α → ℕ) {l : List α}
    {n : ℕ} {d : K} (hd : 0 < d) (hbatch : ∀ i, l.countP (batch · = i) ≤ n)
    (hapart : ∀ x ∈ l, ∀ y ∈ l, batch x ≠ batch y → time x + d ≤ time y ∨ time y + d ≤ time x)
    (s len : K) :
    l.countP (fun x => s ≤ time x ∧ time x ≤ s + len) ≤ n * (⌊len / d⌋₊ + 1) := by
  -- the events of the interval, numbered by how often `d` fits between its beginning and them
  have hle : ∀ i, (l.filter fun x => s ≤ time x ∧ time x ≤ s + len).countP
      (fun x => ⌊(time x - s) / d⌋₊ = i) ≤ n := by
    intro i
    rw [List.countP_filter]
    by_cases hex : ∃ x ∈ l, (s ≤ time x ∧ time x ≤ s + len) ∧ ⌊(time x - s) / d⌋₊ = i
    · obtain ⟨x, hx, ⟨hsx, _⟩, hfloor⟩ := hex
      refine le_trans (List.countP_mono_left fun y hy hcount => ?_) (hbatch (batch x))
      simp only [Bool.and_eq_true, decide_eq_true_eq] at hcount ⊢
      by_contra hne
      have hxfloor := (Nat.floor_eq_iff (div_nonneg (sub_nonneg.2 hsx) hd.le)).1 hfloor
      have hyfloor := (Nat.floor_eq_iff (div_nonneg (sub_nonneg.2 hcount.2.1) hd.le)).1 hcount.1
      rw [le_div_iff₀ hd, div_lt_iff₀ hd] at hxfloor hyfloor
      rcases hapart y hy x hx hne with hle | hle <;> linarith
    · have hzero : l.countP (fun x => decide (⌊(time x - s) / d⌋₊ = i) &&
          decide (s ≤ time x ∧ time x ≤ s + len)) = 0 := by
        refine List.countP_eq_zero.2 fun x hx hcount => hex ⟨x, hx, ?_⟩
        simp only [Bool.and_eq_true, decide_eq_true_eq] at hcount
        exact hcount.symm
      exact hzero.le.trans (Nat.zero_le n)
  have hcount := countP_lt_le_mul (fun x => ⌊(time x - s) / d⌋₊) hle (⌊len / d⌋₊ + 1)
  rw [List.countP_filter] at hcount
  refine le_trans (List.countP_mono_left fun x hx hin => ?_) hcount
  have hin' : s ≤ time x ∧ time x ≤ s + len := of_decide_eq_true hin
  rw [Bool.and_eq_true]
  refine ⟨decide_eq_true (Nat.lt_succ_of_le (Nat.floor_le_floor ?_)), hin⟩
  exact div_le_div_of_nonneg_right (by linarith) hd.le

end ArrivalCurve
