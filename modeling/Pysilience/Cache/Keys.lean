/-
The keys of a decorated function.

A function that is decorated with a cache is called with positional and keyword arguments, and
`_make_key` turns these into the key of the entry.  The keywords, sorted by name, are appended to
the positional arguments as one more tuple.  A positional argument that is such a tuple itself
cannot be told from them.

Main definitions:

* `Caching.Value` — strings, numbers and nested tuples;
* `Caching.makeKey` — the key of a call;
* `Caching.Imitates` — the last positional argument of one call is what the keywords of the other
  are folded into.

Main results:

* `Caching.makeKey_eq_iff` — which calls have the same key;
* `Caching.make_key_identifies_iff` — **the keys of two calls tell them apart exactly if neither
  imitates the other**.
-/

import Pysilience.Lib.OrderedDict
import Mathlib.Data.Rat.Defs
import Mathlib.Data.String.Basic

set_option relaxedAutoImplicit false
set_option autoImplicit false

namespace Caching

open Collections

/-- The values of arguments and of keys. -/
inductive Value
  | str (s : String)
  | num (q : ℚ)
  | tuple (items : List Value)

/-- The keyword arguments of a call, in the order in which they were given. -/
abbrev Kwargs := OrderedDict String Value

/-- An item of a dictionary as a value. -/
def itemValue (item : String × Value) : Value := .tuple [.str item.1, item.2]

/-- `tuple(sorted(kwargs.items()))`. -/
def sortedKwargs (kwargs : Kwargs) : Value := .tuple (kwargs.sortedItems.map itemValue)

/-- `_make_key`. -/
def makeKey (args : List Value) (kwargs : Kwargs) : Value :=
  if kwargs.items.isEmpty then .tuple args else .tuple (args ++ [sortedKwargs kwargs])

theorem itemValue_injective : Function.Injective itemValue := by
  rintro ⟨name, value⟩ ⟨name', value'⟩ h
  simpa [itemValue] using h

/-- The folded keywords determine the keywords, up to their order. -/
theorem sortedKwargs_eq_iff {kwargs kwargs' : Kwargs} :
    sortedKwargs kwargs = sortedKwargs kwargs' ↔
      ∀ name, kwargs.get? name = kwargs'.get? name := by
  rw [sortedKwargs, sortedKwargs, Value.tuple.injEq, itemValue_injective.list_map.eq_iff,
    OrderedDict.sortedItems_eq_iff]

/-! ### Calls with the same key -/

/-- A call without keywords whose positional arguments are those of another call, followed by what
the keywords of the other are folded into. -/
def Imitates (args : List Value) (kwargs : Kwargs) (args' : List Value) (kwargs' : Kwargs) : Prop :=
  kwargs.items = [] ∧ kwargs'.items ≠ [] ∧ args = args' ++ [sortedKwargs kwargs']

/-- The calls are the same: the same positional arguments, and the same keywords in any order. -/
def SameCall (args : List Value) (kwargs : Kwargs) (args' : List Value) (kwargs' : Kwargs) : Prop :=
  args = args' ∧ ∀ name, kwargs.get? name = kwargs'.get? name

variable {args args' : List Value} {kwargs kwargs' : Kwargs}

theorem makeKey_of_nil (h : kwargs.items = []) : makeKey args kwargs = .tuple args := by
  rw [makeKey, h]
  rfl

theorem makeKey_of_ne_nil (h : kwargs.items ≠ []) :
    makeKey args kwargs = .tuple (args ++ [sortedKwargs kwargs]) := by
  rw [makeKey, if_neg]
  rwa [List.isEmpty_iff]

/-- Mappings that are equal are both empty or both not. -/
theorem SameCall.items_eq_nil_iff (h : SameCall args kwargs args' kwargs') :
    kwargs.items = [] ↔ kwargs'.items = [] := by
  have hperm := OrderedDict.perm_iff_get?.2 h.2
  exact ⟨fun hnil => (hnil ▸ hperm).nil_eq.symm, fun hnil => (hnil ▸ hperm).eq_nil⟩

/-- **Which calls have the same key**: the same calls, and those of which one imitates the other. -/
theorem makeKey_eq_iff : makeKey args kwargs = makeKey args' kwargs' ↔
    SameCall args kwargs args' kwargs' ∨
      Imitates args kwargs args' kwargs' ∨ Imitates args' kwargs' args kwargs := by
  by_cases h : kwargs.items = []
  · by_cases h' : kwargs'.items = []
    · have hsame : ∀ name, kwargs.get? name = kwargs'.get? name :=
        OrderedDict.perm_iff_get?.1 (by rw [h, h'])
      simp [makeKey_of_nil, h, h', SameCall, Imitates, hsame]
    · have hnot : ¬ SameCall args kwargs args' kwargs' := fun hs => h' (hs.items_eq_nil_iff.1 h)
      simp [makeKey_of_nil, makeKey_of_ne_nil, h, h', hnot, Imitates]
  · by_cases h' : kwargs'.items = []
    · have hnot : ¬ SameCall args kwargs args' kwargs' := fun hs => h (hs.items_eq_nil_iff.2 h')
      simp [makeKey_of_nil, makeKey_of_ne_nil, h, h', hnot, Imitates, eq_comm]
    · -- both keys end with the folded keywords
      have hkeys : makeKey args kwargs = makeKey args' kwargs' ↔
          args = args' ∧ sortedKwargs kwargs = sortedKwargs kwargs' := by
        rw [makeKey_of_ne_nil h, makeKey_of_ne_nil h', Value.tuple.injEq]
        constructor
        · intro heq
          obtain ⟨hargs, hlast⟩ := List.append_inj' heq rfl
          exact ⟨hargs, List.singleton_inj.1 hlast⟩
        · rintro ⟨hargs, hlast⟩
          rw [hargs, hlast]
      rw [hkeys, sortedKwargs_eq_iff]
      simp [SameCall, Imitates, h, h']

/-- A call that imitates another one is not the same. -/
theorem Imitates.not_sameCall (h : Imitates args kwargs args' kwargs') :
    ¬ SameCall args kwargs args' kwargs' ∧ ¬ SameCall args' kwargs' args kwargs :=
  ⟨fun hsame => h.2.1 (hsame.items_eq_nil_iff.1 h.1),
    fun hsame => h.2.1 (hsame.items_eq_nil_iff.2 h.1)⟩

/-! ### Keys identify calls -/

/-- **When keys identify calls.**  For all positional arguments and keyword mappings, the statement
that the keys of two calls are equal if and only if the calls are the same holds exactly unless one
of the calls has no keywords, and its positional arguments are those of the other, followed by the
tuple of the sorted keyword items of the other. -/
theorem make_key_identifies_iff (args args' : List Value) (kwargs kwargs' : Kwargs) :
    ((makeKey args kwargs = makeKey args' kwargs' ↔
        args = args' ∧ ∀ name, kwargs.get? name = kwargs'.get? name) ↔
      ¬ Imitates args kwargs args' kwargs' ∧ ¬ Imitates args' kwargs' args kwargs) := by
  rw [makeKey_eq_iff]
  change (SameCall args kwargs args' kwargs' ∨ _ ↔ SameCall args kwargs args' kwargs') ↔ _
  constructor
  · intro hkeys
    exact ⟨fun h => h.not_sameCall.1 (hkeys.1 (Or.inr (Or.inl h))),
      fun h => h.not_sameCall.2 (hkeys.1 (Or.inr (Or.inr h)))⟩
  · rintro ⟨hnot, hnot'⟩
    rw [or_iff_left (not_or.2 ⟨hnot, hnot'⟩)]

/-- The keyword `b=2`. -/
def bIsTwo : Kwargs := OrderedDict.empty.setItem "b" (.num 2)

/-- **The calls `f((("b", 2),))` and `f(b=2)` have the same key** and are not the same. -/
theorem not_make_key_identifies :
    makeKey [.tuple [.tuple [.str "b", .num 2]]] OrderedDict.empty = makeKey [] bIsTwo ∧
    ¬ (makeKey [.tuple [.tuple [.str "b", .num 2]]] OrderedDict.empty = makeKey [] bIsTwo ↔
      [Value.tuple [.tuple [.str "b", .num 2]]] = [] ∧
        ∀ name, OrderedDict.empty.get? name = bIsTwo.get? name) := by
  have hkeys : makeKey [.tuple [.tuple [.str "b", .num 2]]] OrderedDict.empty =
      makeKey [] bIsTwo := by
    have hitems : bIsTwo.items = [("b", .num 2)] := rfl
    rw [makeKey_of_nil rfl, makeKey_of_ne_nil (by simp [hitems]), sortedKwargs,
      OrderedDict.sortedItems, hitems, List.mergeSort_singleton]
    rfl
  exact ⟨hkeys, fun h => absurd (h.1 hkeys).1 (List.cons_ne_nil _ _)⟩

end Caching
