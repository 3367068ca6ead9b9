/-
What is printed on behalf of a value, and that it is printed.

`json.dumps` prints a list after its elements, a dictionary after its values, and an object by
printing its envelope, whose data the handler returned.

Main definitions:

* `Serializers.Within` — what is printed on behalf of a value;
* `Serializers.Dumpable` — the values that can be printed.

Main results:

* `Serializers.toJson_list_eq_ok`, `Serializers.toJson_dict_eq_ok`,
  `Serializers.toJson_obj_eq_ok`, `Serializers.toJson_envelope_eq_ok` — what printing returns;
* `Serializers.Dumpable.dumps` — **every such value can be printed**.
-/

import Pysilience.Serializer.Envelope

set_option relaxedAutoImplicit false
set_option autoImplicit false

namespace Serializers

universe u v w x

variable {F : Type u} {O : Type v} [HasClass O]

/-! ### The values -/

/-- `Within registry w v`: the value `w` is printed on behalf of `v`, because it is `v`, occurs in
it, or occurs in what a handler returns for an object in it. -/
inductive Within (registry : Registry F O) (w : PyValue F O) : PyValue F O → Prop
  | refl : Within registry w w
  | list {items : List (PyValue F O)} {v : PyValue F O} : v ∈ items → Within registry w v →
      Within registry w (.list items)
  | dict {items : List (String × PyValue F O)} {item : String × PyValue F O} : item ∈ items →
      Within registry w item.2 → Within registry w (.dict items)
  | obj {o : O} {handler : TypeHandler F O} {data : PyValue F O} :
      registry (typeKey (HasClass.classOf o)) = some handler → handler.encode o = .ok data →
      Within registry w data → Within registry w (.obj o)

/-- The objects in the value have a handler that returns, and so have those in what it returns. -/
inductive Dumpable (registry : Registry F O) : PyValue F O → Prop
  | none : Dumpable registry .none
  | bool (b : Bool) : Dumpable registry (.bool b)
  | int (n : ℤ) : Dumpable registry (.int n)
  | float (x : F) : Dumpable registry (.float x)
  | str (s : String) : Dumpable registry (.str s)
  | list {items : List (PyValue F O)} : (∀ v ∈ items, Dumpable registry v) →
      Dumpable registry (.list items)
  | dict {items : List (String × PyValue F O)} : (∀ item ∈ items, Dumpable registry item.2) →
      Dumpable registry (.dict items)
  | obj {o : O} {handler : TypeHandler F O} {data : PyValue F O} :
      registry (typeKey (HasClass.classOf o)) = some handler → handler.encode o = .ok data →
      Dumpable registry data → Dumpable registry (.obj o)

variable {registry : Registry F O}

/-! ### What printing returns -/

theorem toJson_list_eq_ok {n : ℕ} {items : List (PyValue F O)} {j : Json F} :
    toJson registry (n + 1) (.list items) = .ok j ↔
      ∃ js, j = .arr js ∧ List.Forall₂ (fun v j => toJson registry n v = .ok j) items js := by
  rw [toJson]
  simp only [← mapM_eq_ok]
  cases items.mapM (toJson registry n) with
  | error e => simp [Except.map]
  | ok js => simp [Except.map, eq_comm]

theorem toJson_dict_eq_ok {n : ℕ} {items : List (String × PyValue F O)} {j : Json F} :
    toJson registry (n + 1) (.dict items) = .ok j ↔
      ∃ members, j = .obj members ∧ List.Forall₂
        (fun item m => item.1 = m.1 ∧ toJson registry n item.2 = .ok m.2) items members := by
  have hitem : ∀ (item : String × PyValue F O) (m : String × Json F),
      (toJson registry n item.2).map (item.1, ·) = .ok m ↔
        item.1 = m.1 ∧ toJson registry n item.2 = .ok m.2 := by
    intro item m
    cases toJson registry n item.2 with
    | error e => simp [Except.map]
    | ok j => simp [Except.map, Prod.ext_iff]
  rw [toJson]
  simp only [← hitem, ← mapM_eq_ok]
  cases items.mapM fun item => (toJson registry n item.2).map (item.1, ·) with
  | error e => simp [Except.map]
  | ok members => simp [Except.map, eq_comm]

theorem toJson_obj_eq_ok {n : ℕ} {o : O} {j : Json F} :
    toJson registry (n + 1) (.obj o) = .ok j ↔
      ∃ handler data, registry (typeKey (HasClass.classOf o)) = some handler ∧
        handler.encode o = .ok data ∧ toJson registry n (.dict (envelope o data)) = .ok j := by
  rw [toJson, envelopeEncode]
  cases registry (typeKey (HasClass.classOf o)) with
  | none => simp [Except.bind]
  | some handler =>
      cases he : handler.encode o with
      | error e => simp [he, Except.map, Except.bind]
      | ok data => simp [he, Except.map, Except.bind, envelope]

/-- An envelope is printed when its data are. -/
theorem toJson_envelope_eq_ok {n : ℕ} {o : O} {data : PyValue F O} {j : Json F} :
    toJson registry n (.dict (envelope o data)) = .ok j ↔
      ∃ m j', n = m + 2 ∧ j = .obj [(envelopeTypeKey, .str (typeKey (HasClass.classOf o))),
        (envelopeDataKey, j')] ∧ toJson registry (m + 1) data = .ok j' := by
  constructor
  · intro h
    cases n with
    | zero => cases h
    | succ n =>
        obtain ⟨members, rfl, hmembers⟩ := toJson_dict_eq_ok.1 h
        rw [envelope] at hmembers
        cases hmembers with
        | @cons _ m _ _ hm hrest =>
          cases hrest with
          | @cons _ m' _ _ hm' hnil =>
            cases hnil
            obtain ⟨k, t⟩ := m
            obtain ⟨k', j'⟩ := m'
            obtain ⟨rfl, ht⟩ := hm
            obtain ⟨rfl, hj'⟩ := hm'
            cases n with
            | zero => cases ht
            | succ n =>
                rw [toJson, Except.ok.injEq] at ht
                obtain rfl : Json.str (typeKey (HasClass.classOf o)) = t := ht
                exact ⟨n, j', rfl, rfl, hj'⟩
  · rintro ⟨m, j', rfl, rfl, hj'⟩
    exact toJson_dict_eq_ok.2 ⟨_, rfl, .cons ⟨rfl, by rw [toJson]⟩ (.cons ⟨rfl, hj'⟩ .nil)⟩

/-! ### Printing returns -/

omit [HasClass O] in
/-- One bound for all elements of a list. -/
theorem exists_bound {α : Type w} {P : α → ℕ → Prop} {as : List α}
    (h : ∀ a ∈ as, ∃ limit, ∀ n ≥ limit, P a n) : ∃ limit, ∀ n ≥ limit, ∀ a ∈ as, P a n := by
  induction as with
  | nil => exact ⟨0, by simp⟩
  | cons a as ih =>
      obtain ⟨ha, has⟩ := List.forall_mem_cons.1 h
      obtain ⟨limit, hlimit⟩ := ha
      obtain ⟨limit', hlimit'⟩ := ih has
      refine ⟨max limit limit', fun n hn => List.forall_mem_cons.2 ⟨?_, ?_⟩⟩
      · exact hlimit n ((le_max_left _ _).trans hn)
      · exact hlimit' n ((le_max_right _ _).trans hn)

omit [HasClass O] in
/-- What every element is related to makes a list. -/
theorem exists_forall₂ {α : Type w} {β : Type x} {R : α → β → Prop} {as : List α}
    (h : ∀ a ∈ as, ∃ b, R a b) : ∃ bs, List.Forall₂ R as bs := by
  induction as with
  | nil => exact ⟨[], .nil⟩
  | cons a as ih =>
      obtain ⟨⟨b, hb⟩, has⟩ := List.forall_mem_cons.1 h
      obtain ⟨bs, hbs⟩ := ih has
      exact ⟨b :: bs, .cons hb hbs⟩

/-- **Every such value can be printed**, unless the recursion limit is too low. -/
theorem Dumpable.dumps {v : PyValue F O} (h : Dumpable registry v) :
    ∃ limit, ∀ n ≥ limit, ∃ j, toJson registry n v = .ok j := by
  -- a bound for the parts gives one for the whole
  have hsucc : ∀ {P : ℕ → Prop} (limit : ℕ), (∀ n ≥ limit, P (n + 1)) →
      ∃ limit, ∀ n ≥ limit, P n := by
    intro P limit hP
    refine ⟨limit + 1, fun n hn => ?_⟩
    obtain ⟨n, rfl⟩ := Nat.exists_eq_succ_of_ne_zero (by omega : n ≠ 0)
    exact hP n (by omega)
  induction h with
  | none | bool | int | float | str => exact hsucc 0 fun n _ => ⟨_, by rw [toJson]⟩
  | list _ ih =>
      obtain ⟨limit, hlimit⟩ := exists_bound ih
      refine hsucc limit fun n hn => ?_
      obtain ⟨js, hjs⟩ := exists_forall₂ (hlimit n hn)
      exact ⟨_, toJson_list_eq_ok.2 ⟨js, rfl, hjs⟩⟩
  | dict _ ih =>
      obtain ⟨limit, hlimit⟩ := exists_bound ih
      refine hsucc limit fun n hn => ?_
      obtain ⟨members, hmembers⟩ := exists_forall₂
        (R := fun (item : String × PyValue F O) (m : String × Json F) =>
          item.1 = m.1 ∧ toJson registry n item.2 = .ok m.2) fun item hi => by
            obtain ⟨j, hj⟩ := hlimit n hn item hi
            exact ⟨(item.1, j), rfl, hj⟩
      exact ⟨_, toJson_dict_eq_ok.2 ⟨members, rfl, hmembers⟩⟩
  | obj hr he _ ih =>
      obtain ⟨limit, hlimit⟩ := ih
      refine hsucc (limit + 2) fun n hn => ?_
      obtain ⟨n, rfl⟩ : ∃ m, n = m + 2 := ⟨n - 2, by omega⟩
      obtain ⟨j, hj⟩ := hlimit (n + 1) (by omega)
      exact ⟨_, toJson_obj_eq_ok.2 ⟨_, _, hr, he, toJson_envelope_eq_ok.2 ⟨n, j, rfl, rfl, hj⟩⟩⟩

end Serializers
