/-
Ordered dictionaries.

An `OrderedDict` is a list of items, oldest first, no two of which have the same key.  Setting the
value of a key that is present keeps its place; a new key goes to the end.  The order can be
changed by moving a key to the end, and the oldest item can be popped.

What an operation leaves is described by the items that are still there afterwards, so that a
caller can argue by membership and never look at the order.

Main definitions:

* `Collections.OrderedDict` — the dictionaries;
* `Collections.OrderedDict.get?`, `Collections.OrderedDict.setItem`,
  `Collections.OrderedDict.delItem`, `Collections.OrderedDict.moveToEnd`,
  `Collections.OrderedDict.popWhile` — the operations;
* `Collections.OrderedDict.keys` — the keys, oldest first;
* `Collections.OrderedDict.sortedItems` — the items in the order of their keys.

Main results:

* `Collections.OrderedDict.get?_eq_some` — looking up a key finds the item with that key;
* `Collections.OrderedDict.mem_setItem`, `Collections.OrderedDict.mem_delItem`,
  `Collections.OrderedDict.mem_moveToEnd`, `Collections.OrderedDict.mem_popWhile` — the items left;
* `Collections.OrderedDict.sortedItems_eq_iff` — **equal as mappings**.
-/

import Mathlib.Data.List.Basic
import Mathlib.Data.List.Nodup
import Mathlib.Order.Lattice

set_option relaxedAutoImplicit false
set_option autoImplicit false

namespace Collections

universe u v

/-- A dictionary that remembers the order of its items, oldest first. -/
structure OrderedDict (K : Type u) (α : Type v) where
  items : List (K × α)
  nodup : (items.map Prod.fst).Nodup

namespace OrderedDict

variable {K : Type u} {α : Type v}

/-- The dictionary without items. -/
def empty : OrderedDict K α := ⟨[], List.nodup_nil⟩

/-- Two items with the same key are the same. -/
theorem item_eq {d : OrderedDict K α} {k : K} {a b : α} (ha : (k, a) ∈ d.items)
    (hb : (k, b) ∈ d.items) : a = b := by
  have := List.inj_on_of_nodup_map d.nodup ha hb rfl
  exact (Prod.ext_iff.1 this).2

/-- A new key at the end. -/
theorem nodup_concat {l : List (K × α)} (hl : (l.map Prod.fst).Nodup) {k : K}
    (hk : ∀ p ∈ l, p.1 ≠ k) (a : α) : ((l ++ [(k, a)]).map Prod.fst).Nodup := by
  rw [List.map_append, List.nodup_append]
  refine ⟨hl, List.nodup_singleton k, ?_⟩
  intro x hx y hy
  obtain ⟨p, hp, rfl⟩ := List.mem_map.1 hx
  rw [List.mem_singleton.1 hy]
  exact hk p hp

/-! ### Popping the oldest items -/

/-- `while full(len(d)): d.popitem(last=False)` on a list of items; `none` is the `KeyError` that
popping an item from an empty dictionary raises. -/
def popItems (full : ℕ → Bool) : List (K × α) → Option (List (K × α))
  | [] => if full 0 then none else some []
  | p :: rest => if full (rest.length + 1) then popItems full rest else some (p :: rest)

theorem popItems_suffix {full : ℕ → Bool} {l l' : List (K × α)} (h : popItems full l = some l') :
    l' <:+ l := by
  induction l with
  | nil =>
      rw [popItems] at h
      split at h
      · cases h
      · exact Option.some_inj.1 h ▸ List.suffix_rfl
  | cons p rest ih =>
      rw [popItems] at h
      split at h
      · exact (ih h).trans (List.suffix_cons p rest)
      · exact Option.some_inj.1 h ▸ List.suffix_rfl

/-- Popping while the dictionary is not empty raises nothing. -/
theorem popItems_isSome {full : ℕ → Bool} (h : full 0 = false) (l : List (K × α)) :
    (popItems full l).isSome = true := by
  induction l with
  | nil => simp [popItems, h]
  | cons p rest ih =>
      rw [popItems]
      split
      · exact ih
      · rfl

/-- Where there is room nothing is popped. -/
theorem popItems_of_room {full : ℕ → Bool} {l : List (K × α)} (h : full l.length = false) :
    popItems full l = some l := by
  cases l with
  | nil =>
      rw [List.length_nil] at h
      simp [popItems, h]
  | cons p rest =>
      rw [List.length_cons] at h
      simp [popItems, h]

/-- Where one item is too many the oldest one is popped. -/
theorem popItems_of_full {full : ℕ → Bool} {p : K × α} {rest : List (K × α)}
    (h : full (rest.length + 1) = true) (hroom : full rest.length = false) :
    popItems full (p :: rest) = some rest := by
  rw [popItems, if_pos h, popItems_of_room hroom]

/-- `while full(len(d)): d.popitem(last=False)`. -/
def popWhile (d : OrderedDict K α) (full : ℕ → Bool) : Option (OrderedDict K α) :=
  match h : popItems full d.items with
  | none => none
  | some l => some ⟨l, d.nodup.sublist ((popItems_suffix h).sublist.map _)⟩

theorem popWhile_items {d d' : OrderedDict K α} {full : ℕ → Bool} (h : d.popWhile full = some d') :
    popItems full d.items = some d'.items := by
  unfold popWhile at h
  split at h
  · cases h
  · next l hl => rw [hl, ← Option.some_inj.1 h]

/-- Popping leaves some of the items. -/
theorem mem_popWhile {d d' : OrderedDict K α} {full : ℕ → Bool} (h : d.popWhile full = some d')
    {p : K × α} (hp : p ∈ d'.items) : p ∈ d.items :=
  (popItems_suffix (popWhile_items h)).sublist.subset hp

theorem popWhile_isSome (d : OrderedDict K α) {full : ℕ → Bool} (h : full 0 = false) :
    (d.popWhile full).isSome = true := by
  have := popItems_isSome h d.items
  unfold popWhile
  split
  · next hn => rw [hn] at this; cases this
  · rfl

variable [DecidableEq K]

/-! ### Looking up, setting and deleting keys -/

/-- `d.get(k)`. -/
def get? (d : OrderedDict K α) (k : K) : Option α := (d.items.find? (·.1 = k)).map Prod.snd

/-- Looking up a key finds the item with that key. -/
theorem get?_eq_some {d : OrderedDict K α} {k : K} {a : α} :
    d.get? k = some a ↔ (k, a) ∈ d.items := by
  constructor
  · intro h
    obtain ⟨⟨l, b⟩, hp, rfl⟩ := Option.map_eq_some_iff.1 h
    obtain rfl : l = k := by simpa using List.find?_some hp
    exact List.mem_of_find?_eq_some hp
  · intro h
    cases hf : d.items.find? (·.1 = k) with
    | none =>
        have := List.find?_eq_none.1 hf _ h
        simp at this
    | some p =>
        obtain ⟨l, b⟩ := p
        obtain rfl : l = k := by simpa using List.find?_some hf
        rw [get?, hf, Option.map_some, item_eq h (List.mem_of_find?_eq_some hf)]

theorem get?_eq_none {d : OrderedDict K α} {k : K} :
    d.get? k = none ↔ ∀ p ∈ d.items, p.1 ≠ k := by
  simp [get?]

/-- `del d[k]`, where `k` is present; where it is not, nothing changes. -/
def delItem (d : OrderedDict K α) (k : K) : OrderedDict K α :=
  ⟨d.items.filter (·.1 ≠ k), d.nodup.sublist (List.filter_sublist.map _)⟩

theorem mem_delItem {d : OrderedDict K α} {k : K} {p : K × α} :
    p ∈ (d.delItem k).items ↔ p ∈ d.items ∧ p.1 ≠ k := by
  simp [delItem]

/-- `d.move_to_end(k)`, where `k` is present. -/
def moveToEnd (d : OrderedDict K α) (k : K) : OrderedDict K α :=
  match d.get? k with
  | none => d
  | some a =>
      ⟨(d.delItem k).items ++ [(k, a)],
        nodup_concat (d.delItem k).nodup (fun _ hp => (mem_delItem.1 hp).2) a⟩

theorem moveToEnd_items {d : OrderedDict K α} {k : K} {a : α} (h : d.get? k = some a) :
    (d.moveToEnd k).items = (d.delItem k).items ++ [(k, a)] := by
  unfold moveToEnd
  split
  · next hn => rw [h] at hn; cases hn
  · next b hb => rw [Option.some_inj.1 (h.symm.trans hb)]

/-- Moving a key changes the order only. -/
theorem mem_moveToEnd {d : OrderedDict K α} {k : K} {p : K × α} :
    p ∈ (d.moveToEnd k).items ↔ p ∈ d.items := by
  unfold moveToEnd
  split
  · exact Iff.rfl
  · next a ha =>
    have hka := get?_eq_some.1 ha
    rw [List.mem_append, List.mem_singleton, mem_delItem]
    constructor
    · rintro (⟨hp, -⟩ | rfl)
      · exact hp
      · exact hka
    · intro hp
      obtain ⟨l, b⟩ := p
      by_cases hl : l = k
      · subst hl
        exact .inr (by rw [item_eq hp hka])
      · exact .inl ⟨hp, hl⟩

theorem moveToEnd_perm (d : OrderedDict K α) (k : K) : (d.moveToEnd k).items.Perm d.items :=
  (List.perm_ext_iff_of_nodup (d.moveToEnd k).nodup.of_map d.nodup.of_map).2 fun _ => mem_moveToEnd

/-- A key that is present has one item. -/
theorem delItem_length {d : OrderedDict K α} {k : K} {a : α} (h : d.get? k = some a) :
    (d.delItem k).items.length + 1 = d.items.length := by
  rw [← (d.moveToEnd_perm k).length_eq, moveToEnd_items h, List.length_append,
    List.length_singleton]

/-- `d[k] = a`: a key that is present keeps its place, a new one goes to the end. -/
def setItem (d : OrderedDict K α) (k : K) (a : α) : OrderedDict K α :=
  if h : ∀ p ∈ d.items, p.1 ≠ k then ⟨d.items ++ [(k, a)], nodup_concat d.nodup h a⟩
  else
    ⟨d.items.map fun p => (p.1, if p.1 = k then a else p.2), by
      rw [List.map_map]
      exact d.nodup⟩

theorem setItem_items_of_not_mem {d : OrderedDict K α} {k : K} (h : ∀ p ∈ d.items, p.1 ≠ k)
    (a : α) : (d.setItem k a).items = d.items ++ [(k, a)] := by
  rw [setItem, dif_pos h]

/-- Moving a key to the end and setting it puts its new item at the end. -/
theorem setItem_moveToEnd_items {d : OrderedDict K α} {k : K} {b : α} (h : d.get? k = some b)
    (a : α) : ((d.moveToEnd k).setItem k a).items = (d.delItem k).items ++ [(k, a)] := by
  have hmem : ¬ ∀ p ∈ (d.moveToEnd k).items, p.1 ≠ k := by
    intro hall
    exact hall _ (mem_moveToEnd.2 (get?_eq_some.1 h)) rfl
  rw [setItem, dif_neg hmem]
  change (d.moveToEnd k).items.map _ = _
  rw [moveToEnd_items h, List.map_append, List.map_singleton, if_pos rfl]
  congr 1
  -- the items of the other keys stay as they are
  refine (List.map_congr_left fun p hp => ?_).trans (List.map_id _)
  rw [if_neg (mem_delItem.1 hp).2]
  rfl

/-- Setting a key leaves the items of the other keys, and one item of this key. -/
theorem mem_setItem {d : OrderedDict K α} {k l : K} {a b : α} :
    (l, b) ∈ (d.setItem k a).items ↔ l ≠ k ∧ (l, b) ∈ d.items ∨ l = k ∧ b = a := by
  unfold setItem
  split
  · next h =>
    rw [List.mem_append, List.mem_singleton, Prod.mk.injEq]
    refine or_congr_left ?_
    constructor
    · exact fun hmem => ⟨h _ hmem, hmem⟩
    · exact fun hmem => hmem.2
  · next h =>
    simp only [ne_eq, not_forall, Classical.not_not] at h
    obtain ⟨⟨k', c⟩, hmem, rfl⟩ := h
    simp only [List.mem_map, Prod.mk.injEq]
    constructor
    · rintro ⟨p, hp, rfl, rfl⟩
      by_cases hk : p.1 = k'
      · exact .inr ⟨hk, if_pos hk⟩
      · rw [if_neg hk]
        exact .inl ⟨hk, hp⟩
    · rintro (⟨hk, hp⟩ | ⟨rfl, rfl⟩)
      · exact ⟨(l, b), hp, rfl, if_neg hk⟩
      · exact ⟨_, hmem, rfl, if_pos rfl⟩

theorem get?_setItem (d : OrderedDict K α) (k l : K) (a : α) :
    (d.setItem k a).get? l = if l = k then some a else d.get? l := by
  refine Option.ext fun b => ?_
  rw [get?_eq_some, mem_setItem]
  by_cases h : l = k
  · simp [h, eq_comm]
  · simp [h, get?_eq_some]

theorem get?_delItem (d : OrderedDict K α) (k l : K) :
    (d.delItem k).get? l = if l = k then none else d.get? l := by
  refine Option.ext fun b => ?_
  rw [get?_eq_some, mem_delItem]
  by_cases h : l = k
  · simp [h]
  · simp [h, get?_eq_some]

/-! ### The keys, oldest first -/

omit [DecidableEq K] in
/-- `list(d)`. -/
def keys (d : OrderedDict K α) : List K := d.items.map Prod.fst

theorem mem_keys {d : OrderedDict K α} {k : K} : k ∈ d.keys ↔ ∃ a, d.get? k = some a := by
  simp only [keys, List.mem_map, get?_eq_some]
  constructor
  · rintro ⟨⟨l, a⟩, hp, rfl⟩
    exact ⟨a, hp⟩
  · rintro ⟨a, hp⟩
    exact ⟨(k, a), hp, rfl⟩

theorem get?_eq_none_of_not_mem_keys {d : OrderedDict K α} {k : K} (h : k ∉ d.keys) :
    d.get? k = none := by
  rw [mem_keys, not_exists] at h
  exact Option.eq_none_iff_forall_ne_some.2 h

theorem keys_delItem (d : OrderedDict K α) (k : K) :
    (d.delItem k).keys = d.keys.filter (· ≠ k) := by
  rw [keys, keys, List.filter_map]
  rfl

theorem keys_moveToEnd {d : OrderedDict K α} {k : K} (h : k ∈ d.keys) :
    (d.moveToEnd k).keys = d.keys.filter (· ≠ k) ++ [k] := by
  obtain ⟨a, ha⟩ := mem_keys.1 h
  rw [keys, moveToEnd_items ha, List.map_append, List.map_singleton, ← keys_delItem, keys]

theorem keys_setItem_of_not_mem {d : OrderedDict K α} {k : K} (h : k ∉ d.keys) (a : α) :
    (d.setItem k a).keys = d.keys ++ [k] := by
  have hk : ∀ p ∈ d.items, p.1 ≠ k := get?_eq_none.1 (get?_eq_none_of_not_mem_keys h)
  rw [keys, setItem_items_of_not_mem hk, List.map_append, List.map_singleton, keys]

/-- The keys that are present, with their values, determine the items up to their order. -/
theorem perm_iff_get? {d d' : OrderedDict K α} :
    d.items.Perm d'.items ↔ ∀ k, d.get? k = d'.get? k := by
  rw [List.perm_ext_iff_of_nodup d.nodup.of_map d'.nodup.of_map]
  constructor
  · intro h k
    refine Option.ext fun a => ?_
    rw [get?_eq_some, get?_eq_some, h]
  · rintro h ⟨k, a⟩
    rw [← get?_eq_some, ← get?_eq_some, h]

/-! ### Sorting the items -/

omit [DecidableEq K] in
/-- `sorted(d.items())`.  No two items have the same key, so their values are never compared. -/
def sortedItems [LinearOrder K] (d : OrderedDict K α) : List (K × α) :=
  d.items.mergeSort fun p q => decide (p.1 ≤ q.1)

omit [DecidableEq K] in
theorem sortedItems_perm [LinearOrder K] (d : OrderedDict K α) : d.sortedItems.Perm d.items :=
  List.mergeSort_perm _ _

omit [DecidableEq K] in
theorem sortedItems_pairwise [LinearOrder K] (d : OrderedDict K α) :
    d.sortedItems.Pairwise fun p q => p.1 ≤ q.1 := by
  have hsorted : d.sortedItems.Pairwise fun p q => decide (p.1 ≤ q.1) = true := by
    refine List.pairwise_mergeSort (fun p q r hpq hqr => ?_) (fun p q => ?_) d.items
    · have hle : p.1 ≤ q.1 := of_decide_eq_true hpq
      exact decide_eq_true (le_trans hle (of_decide_eq_true hqr))
    · rw [Bool.or_eq_true, decide_eq_true_eq, decide_eq_true_eq]
      exact le_total p.1 q.1
  exact hsorted.imp of_decide_eq_true

/-- **Sorting forgets the order of the items and nothing else.** -/
theorem sortedItems_eq_iff [LinearOrder K] {d d' : OrderedDict K α} :
    d.sortedItems = d'.sortedItems ↔ ∀ k, d.get? k = d'.get? k := by
  rw [← perm_iff_get?]
  constructor
  · intro h
    exact d.sortedItems_perm.symm.trans (h ▸ d'.sortedItems_perm)
  · intro h
    have hperm : d.sortedItems.Perm d'.sortedItems :=
      (d.sortedItems_perm.trans h).trans d'.sortedItems_perm.symm
    refine hperm.eq_of_pairwise ?_ d.sortedItems_pairwise d'.sortedItems_pairwise
    -- items with the same key are the same, as both come from one dictionary
    rintro ⟨k, a⟩ ⟨l, b⟩ ha hb hkl hlk
    obtain rfl : k = l := le_antisymm hkl hlk
    have hb' := h.mem_iff.2 (d'.sortedItems_perm.mem_iff.1 hb)
    rw [item_eq (d.sortedItems_perm.mem_iff.1 ha) hb']

end OrderedDict

end Collections
