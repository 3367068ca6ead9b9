/-
Bounded double-ended queues, appended to on the right.

A deque with a maximal length silently discards its oldest item when an item is appended to a full
one.  Two ways of describing such a deque are related here: by the history of everything that was
ever appended to it, of which it holds the last items, and by a count kept incrementally, which has
to be corrected for the item that is about to be discarded.

* `Collections.Deque`, `Collections.Deque.append` — the deque and its only mutation;
* `Collections.Deque.items_append_eq_rtake` — **a deque holds the end of its history**;
* `Collections.Deque.countP_append_of_lt`, `Collections.Deque.countP_append_of_full` — the change of
  a count of its items.
-/

import Mathlib.Data.List.DropRight

set_option relaxedAutoImplicit false
set_option autoImplicit false

namespace Collections

universe u

/-- A deque of maximal length `maxlen`, oldest item first. -/
structure Deque (α : Type u) (maxlen : ℕ) where
  /-- The items, oldest first. -/
  items : List α
  /-- The bound is never exceeded. -/
  length_le : items.length ≤ maxlen
  deriving DecidableEq

namespace Deque

variable {α : Type u} {n : ℕ}

/-- The empty deque. -/
def empty : Deque α n := ⟨[], Nat.zero_le n⟩

@[simp] theorem items_empty : (empty : Deque α n).items = [] := rfl

/-- Appending on the right; a full deque loses its oldest item. -/
def append (d : Deque α n) (x : α) : Deque α n :=
  if h : d.items.length = n then
    ⟨(d.items ++ [x]).tail, by simp [h]⟩
  else
    ⟨d.items ++ [x], by have := d.length_le; simp; omega⟩

/-- Appending below the bound keeps every item. -/
theorem items_append_of_lt {d : Deque α n} (h : d.items.length < n) (x : α) :
    (d.append x).items = d.items ++ [x] := by
  rw [append, dif_neg (by omega)]

/-- Appending at the bound drops the oldest item. -/
theorem items_append_of_full {d : Deque α n} (h : d.items.length = n) (x : α) :
    (d.append x).items = (d.items ++ [x]).tail := by
  rw [append, dif_pos h]

/-! ### The history of a deque -/

/-- The end of a history, extended by one item and cut again, is the end of the longer history. -/
theorem rtake_rtake_concat (l : List α) (x : α) (n : ℕ) :
    (l.rtake n ++ [x]).rtake n = (l ++ [x]).rtake n := by
  cases n with
  | zero => simp
  | succ n =>
      rw [List.rtake_concat_succ, List.rtake_concat_succ]
      congr 1
      simp only [List.rtake_eq_reverse_take_reverse, List.reverse_reverse, List.take_take]
      rw [Nat.min_eq_left (Nat.le_succ n)]

/-- An append cuts the extended list at the bound, full or not. -/
theorem items_append (d : Deque α n) (x : α) : (d.append x).items = (d.items ++ [x]).rtake n := by
  have hle := d.length_le
  rcases Nat.lt_or_eq_of_le hle with hlt | hfull
  · rw [items_append_of_lt hlt, List.rtake, List.length_append, List.length_singleton,
      show d.items.length + 1 - n = 0 by omega, List.drop_zero]
  · rw [items_append_of_full hfull, List.rtake, List.length_append, List.length_singleton,
      show d.items.length + 1 - n = 1 by omega, List.drop_one]

/-- **A deque holds the end of its history**, and keeps doing so when it is appended to. -/
theorem items_append_eq_rtake {d : Deque α n} {history : List α} (h : d.items = history.rtake n)
    (x : α) : (d.append x).items = (history ++ [x]).rtake n := by
  rw [items_append, h, rtake_rtake_concat]

/-! ### Counting the items -/

theorem countP_append_of_lt (p : α → Bool) {d : Deque α n} (h : d.items.length < n) (x : α) :
    (d.append x).items.countP p = d.items.countP p + if p x then 1 else 0 := by
  rw [items_append_of_lt h, List.countP_append, List.countP_singleton]

/-- In a full deque the discarded item leaves the count. -/
theorem countP_append_of_full (p : α → Bool) {d : Deque α n} (h : d.items.length = n) {y : α}
    {ys : List α} (hd : d.items = y :: ys) (x : α) :
    (d.append x).items.countP p + (if p y then 1 else 0) =
      d.items.countP p + if p x then 1 else 0 := by
  rw [items_append_of_full h, hd, List.cons_append, List.tail_cons, List.countP_append,
    List.countP_singleton, List.countP_cons]
  omega

end Deque

end Collections
