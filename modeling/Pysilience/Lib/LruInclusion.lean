/-
Two stores with least-recently-used eviction, side by side.

What such a store does is determined by its keys, the least recently used first.  A request for a
key moves it to the end if it is there; if not, its value is fetched, and unless that fails the key
is admitted at the end, at the expense of the first key if the store is full.  Keys can also be
removed, one or all.

A larger store serves every request that a smaller one serves.  That its keys include those of the
smaller one is not by itself kept by the requests: the key that the larger store drops might be one
that the smaller one keeps.  What is kept is that the smaller store lists its keys in the same order
as the larger one and has no more room left.

Main definitions:

* `Lru.touch`, `Lru.enter`, `Lru.Request.apply` — what a request does to the keys of a store;
* `Lru.Included` — the relation between the keys of two stores.

Main results:

* `Lru.Included.apply` — **every request keeps the relation**.
-/

import Mathlib.Data.List.Basic
import Mathlib.Data.List.Nodup

set_option relaxedAutoImplicit false
set_option autoImplicit false

namespace Lru

universe u

variable {K : Type u} [DecidableEq K]

/-! ### Requests -/

/-- What is asked of a store: the value of a key, which is fetched if the key is not there, or that
keys be removed. -/
inductive Request (K : Type u)
  | access (key : K) (fetched : Bool)
  | remove (key : K)
  | clear

/-- The key has been used last. -/
def touch (key : K) (keys : List K) : List K := keys.filter (· ≠ key) ++ [key]

omit [DecidableEq K] in
/-- A new key enters a store with room for `capacity` keys. -/
def enter (capacity : ℕ) (key : K) (keys : List K) : List K :=
  (if keys.length < capacity then keys else keys.tail) ++ [key]

/-- The keys after a request. -/
def Request.apply (capacity : ℕ) : Request K → List K → List K
  | .access key fetched, keys =>
      if key ∈ keys then touch key keys
      else if fetched then enter capacity key keys
      else keys
  | .remove key, keys => keys.filter (· ≠ key)
  | .clear, _ => []

/-- Removing a key that is there leaves one key less. -/
theorem length_filter_ne {key : K} {keys : List K} (hnodup : keys.Nodup) (h : key ∈ keys) :
    (keys.filter (· ≠ key)).length + 1 = keys.length := by
  rw [← List.length_erase_add_one h, hnodup.erase_eq_filter]
  congr 2
  refine List.filter_congr fun k _ => ?_
  by_cases hk : k = key <;> simp [hk]

theorem touch_length {key : K} {keys : List K} (hnodup : keys.Nodup) (h : key ∈ keys) :
    (touch key keys).length = keys.length := by
  rw [touch, List.length_append, List.length_singleton, length_filter_ne hnodup h]

theorem nodup_touch {key : K} {keys : List K} (hnodup : keys.Nodup) : (touch key keys).Nodup := by
  rw [touch, ← List.concat_eq_append]
  exact (hnodup.filter _).concat (by simp)

omit [DecidableEq K] in
/-- Admitting a key fills a store up to its capacity. -/
theorem enter_length {capacity : ℕ} (hc : 1 ≤ capacity) (key : K) {keys : List K}
    (h : keys.length ≤ capacity) :
    (enter capacity key keys).length = min (keys.length + 1) capacity := by
  rw [enter, List.length_append, List.length_singleton]
  split
  · omega
  · rw [List.length_tail]
    omega

omit [DecidableEq K] in
theorem enter_fits {capacity : ℕ} (hc : 1 ≤ capacity) (key : K) {keys : List K}
    (h : keys.length ≤ capacity) : (enter capacity key keys).length ≤ capacity := by
  rw [enter_length hc key h]
  exact Nat.min_le_right ..

omit [DecidableEq K] in
theorem nodup_enter {capacity : ℕ} {key : K} {keys : List K} (hnodup : keys.Nodup)
    (h : key ∉ keys) : (enter capacity key keys).Nodup := by
  rw [enter, ← List.concat_eq_append]
  split
  · exact hnodup.concat h
  · exact (hnodup.sublist (List.tail_sublist _)).concat fun hmem => h (List.mem_of_mem_tail hmem)

/-! ### A smaller and a larger store -/

/-- The keys of a store with room for `n` keys against those of one with room for `m`: they are
among them, in the same order, and no more room is left. -/
structure Included (n m : ℕ) (small large : List K) : Prop where
  sublist : small.Sublist large
  nodup : large.Nodup
  fits : small.length ≤ n
  slack : large.length + n ≤ m + small.length

namespace Included

variable {n m : ℕ} {small large : List K}

omit [DecidableEq K] in
theorem empty (h : n ≤ m) : Included n m ([] : List K) [] where
  sublist := .slnil
  nodup := .nil
  fits := Nat.zero_le n
  slack := by simpa using h

omit [DecidableEq K] in
/-- What is in the smaller store is in the larger one. -/
theorem mem (h : Included n m small large) {key : K} (hk : key ∈ small) : key ∈ large :=
  h.sublist.subset hk

omit [DecidableEq K] in
theorem nodup_small (h : Included n m small large) : small.Nodup := h.nodup.sublist h.sublist

omit [DecidableEq K] in
theorem fits_large (h : Included n m small large) : large.length ≤ m := by
  have := h.fits
  have := h.slack
  omega

omit [DecidableEq K] in
theorem le (h : Included n m small large) : n ≤ m := by
  have := h.sublist.length_le
  have := h.slack
  omega

/-- Both stores have the key. -/
theorem touch_touch (h : Included n m small large) {key : K} (hk : key ∈ small) :
    Included n m (touch key small) (touch key large) where
  sublist := (h.sublist.filter _).append_right _
  nodup := nodup_touch h.nodup
  fits := by
    rw [touch_length h.nodup_small hk]
    exact h.fits
  slack := by
    rw [touch_length h.nodup_small hk, touch_length h.nodup (h.mem hk)]
    exact h.slack

/-- The smaller store does not notice that a key it does not have leaves the larger one. -/
theorem sublist_filter (h : Included n m small large) {key : K} (hk : key ∉ small) :
    small.Sublist (large.filter (· ≠ key)) := by
  have := h.sublist.filter (fun k => decide (k ≠ key))
  rwa [List.filter_eq_self.2 fun k hmem => decide_eq_true (ne_of_mem_of_not_mem hmem hk)] at this

/-- Only the larger store has the key, and the smaller one failed to fetch it. -/
theorem keep_touch (h : Included n m small large) {key : K} (hs : key ∉ small)
    (hl : key ∈ large) : Included n m small (touch key large) where
  sublist := (h.sublist_filter hs).trans (List.sublist_append_left _ _)
  nodup := nodup_touch h.nodup
  fits := h.fits
  slack := by
    rw [touch_length h.nodup hl]
    exact h.slack

/-- Only the larger store has the key, and the smaller one has fetched it. -/
theorem enter_touch (hn : 1 ≤ n) (h : Included n m small large) {key : K} (hs : key ∉ small)
    (hl : key ∈ large) : Included n m (enter n key small) (touch key large) where
  sublist := by
    refine List.Sublist.append_right ?_ _
    split
    · exact h.sublist_filter hs
    · exact (List.tail_sublist _).trans (h.sublist_filter hs)
  nodup := nodup_touch h.nodup
  fits := enter_fits hn key h.fits
  slack := by
    have := h.fits
    have := h.slack
    rw [touch_length h.nodup hl, enter_length hn key h.fits]
    omega

omit [DecidableEq K] in
/-- Neither store has the key, and both have fetched it.  A larger store that is full faces a
smaller one that is full, and the first key of the former is the first of the latter or not in it.
-/
theorem enter_enter (hn : 1 ≤ n) (h : Included n m small large) {key : K} (hl : key ∉ large) :
    Included n m (enter n key small) (enter m key large) where
  sublist := by
    have := h.fits
    have := h.slack
    refine List.Sublist.append_right ?_ _
    split <;> split
    · exact h.sublist
    · omega
    · exact (List.tail_sublist _).trans h.sublist
    · exact h.sublist.tail
  nodup := nodup_enter h.nodup hl
  fits := enter_fits hn key h.fits
  slack := by
    have := h.fits
    have := h.slack
    rw [enter_length (Nat.le_trans hn h.le) key h.fits_large, enter_length hn key h.fits]
    omega

/-- A key is removed from both stores. -/
theorem remove (h : Included n m small large) (key : K) :
    Included n m (small.filter (· ≠ key)) (large.filter (· ≠ key)) where
  sublist := h.sublist.filter _
  nodup := h.nodup.filter _
  fits := Nat.le_trans (List.length_filter_le _ _) h.fits
  slack := by
    have hslack := h.slack
    by_cases hs : key ∈ small
    · have := length_filter_ne h.nodup_small hs
      have := length_filter_ne h.nodup (h.mem hs)
      omega
    · have := List.length_filter_le (fun k => decide (k ≠ key)) large
      rw [List.filter_eq_self.2 fun k hmem => decide_eq_true (ne_of_mem_of_not_mem hmem hs)]
      omega

/-- **Every request keeps the relation.** -/
theorem apply (hn : 1 ≤ n) (h : Included n m small large) (request : Request K) :
    Included n m (request.apply n small) (request.apply m large) := by
  cases request with
  | access key fetched =>
      simp only [Request.apply]
      by_cases hs : key ∈ small
      · rw [if_pos hs, if_pos (h.mem hs)]
        exact h.touch_touch hs
      · rw [if_neg hs]
        by_cases hl : key ∈ large
        · rw [if_pos hl]
          cases fetched with
          | true => exact h.enter_touch hn hs hl
          | false => exact h.keep_touch hs hl
        · rw [if_neg hl]
          cases fetched with
          | true => exact h.enter_enter hn hl
          | false => exact h
  | remove key => exact h.remove key
  | clear => exact empty h.le

end Included

end Lru
