/-
Two words joined by a separator.

Joining two words by a separator forgets where the first one ends, if the separator may occur in
them.  What can be confused is described by what the two readings share: the first word of the one
goes on where the first word of the other ends, with a part of the second word of the other.

Main definitions:

* `Joined.Shifted` — two pairs of words of which the second one is split further to the right.

Main results:

* `Joined.join_eq_iff` — **which pairs of words are joined to the same word**;
* `Joined.Shifted.mem_left`, `Joined.Shifted.mem_right` — the separator occurs in them.
-/

import Mathlib.Data.List.Basic

set_option relaxedAutoImplicit false
set_option autoImplicit false

namespace Joined

universe u

variable {α : Type u} {a : α} {x y x' y' : List α}

/-- The words `x'` and `y'` are `x` and `y` with a part of `y` moved to the end of `x`. -/
def Shifted (a : α) (x y x' y' : List α) : Prop := ∃ s, x' = x ++ a :: s ∧ y = s ++ a :: y'

theorem Shifted.mem_left (h : Shifted a x y x' y') : a ∈ x' := by
  obtain ⟨s, rfl, -⟩ := h
  exact List.mem_append_right x (List.mem_cons_self ..)

theorem Shifted.mem_right (h : Shifted a x y x' y') : a ∈ y := by
  obtain ⟨s, -, rfl⟩ := h
  exact List.mem_append_right s (List.mem_cons_self ..)

/-- Words with a part moved over are joined to the same word. -/
theorem Shifted.join_eq (h : Shifted a x y x' y') : x ++ a :: y = x' ++ a :: y' := by
  obtain ⟨s, rfl, rfl⟩ := h
  rw [List.append_assoc, List.cons_append]

/-- A part was moved over: the words are not the same. -/
theorem Shifted.ne (h : Shifted a x y x' y') : x ≠ x' := by
  obtain ⟨s, rfl, -⟩ := h
  intro heq
  have := congrArg List.length heq
  rw [List.length_append, List.length_cons] at this
  omega

/-- **Which pairs of words are joined to the same word**: the same words, and those that differ by a
part that was moved over. -/
theorem join_eq_iff : x ++ a :: y = x' ++ a :: y' ↔
    (x = x' ∧ y = y') ∨ Shifted a x y x' y' ∨ Shifted a x' y' x y := by
  constructor
  · intro h
    -- one of the first words is an initial segment of the other
    rcases List.append_eq_append_iff.1 h with ⟨s, hx, hy⟩ | ⟨s, hx, hy⟩
    · cases s with
      | nil =>
          rw [List.nil_append, List.cons.injEq] at hy
          exact .inl ⟨by rw [hx, List.append_nil], hy.2⟩
      | cons b s =>
          rw [List.cons_append, List.cons.injEq] at hy
          obtain ⟨rfl, hy⟩ := hy
          exact .inr (.inl ⟨s, hx, hy⟩)
    · cases s with
      | nil =>
          rw [List.nil_append, List.cons.injEq] at hy
          exact .inl ⟨by rw [hx, List.append_nil], hy.2.symm⟩
      | cons b s =>
          rw [List.cons_append, List.cons.injEq] at hy
          obtain ⟨rfl, hy⟩ := hy
          exact .inr (.inr ⟨s, hx, hy⟩)
  · rintro (⟨rfl, rfl⟩ | h | h)
    · rfl
    · exact h.join_eq
    · exact h.join_eq.symm

end Joined
