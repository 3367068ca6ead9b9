/-
Single flight: at most one computation of a key at a time, and no waiter without one.

A set of participants share a table of reserved keys.  A participant that finds its key free
reserves it and computes; one that finds it reserved waits.  The computation ends by a release,
which frees the key and wakes all that wait for it.  If instead a participant leaves without
releasing its key, the reservation is *leaked*.

Three facts hold whatever happens: a key that is computed is reserved, by one participant only, and
whoever waits does so on a reserved key.  Unless a reservation is leaked, every reserved key is
being computed, so whoever waits will be woken.

Main definitions:

* `SingleFlight.Table` — the reserved keys, and what every participant computes or waits for;
* `SingleFlight.Table.Step`, `SingleFlight.Table.Leak`, `SingleFlight.Table.Next` — what can
  happen;
* `SingleFlight.Table.Orderly`, `SingleFlight.Table.Owned` — the invariants;
* `SingleFlight.Effect` — what one participant does, seen from its own key.

Main results:

* `SingleFlight.Table.orderly_of_reaches`, `SingleFlight.Table.owned_of_reaches` — **what holds of
  every table reached from the empty one**;
* `SingleFlight.Table.Orderly.awaited` — whoever waits, waits for somebody;
* `SingleFlight.Table.Leak.orphan` — a leaked key is reserved and computed by nobody;
* `SingleFlight.Effect.step`, `SingleFlight.Effect.leak_of` — from what one participant does to what
  happens to the table.
-/

import Mathlib.Data.Set.Insert
import Mathlib.Logic.Function.Basic
import Mathlib.Logic.Relation

set_option relaxedAutoImplicit false
set_option autoImplicit false

namespace SingleFlight

universe u v

/-- The reserved keys, the key each participant is computing, and the key each is waiting for. -/
structure Table (K : Type u) (T : Type v) where
  reserved : Set K
  computing : T → Option K
  waiting : T → Option K

namespace Table

variable {K : Type u} {T : Type v}

/-- Nothing is reserved, and nobody computes or waits. -/
def empty : Table K T := ⟨∅, fun _ => none, fun _ => none⟩

/-- From one table to the next, nobody has begun to wait. -/
def NoNewWaiter (x y : Table K T) : Prop := ∀ t k, y.waiting t = some k → x.waiting t = some k

/-- What holds whatever happens. -/
structure Orderly (x : Table K T) : Prop where
  reserved : ∀ t k, x.computing t = some k → k ∈ x.reserved
  unique : ∀ t u k, x.computing t = some k → x.computing u = some k → t = u
  waiting : ∀ t k, x.waiting t = some k → k ∈ x.reserved

/-- Every reserved key is being computed. -/
def Owned (x : Table K T) : Prop := ∀ k ∈ x.reserved, ∃ t, x.computing t = some k

/-- Whoever waits, waits for a key that somebody is computing. -/
theorem Orderly.awaited {x : Table K T} (h : Orderly x) (ho : Owned x) {t : T} {k : K}
    (ht : x.waiting t = some k) : ∃ u, x.computing u = some k :=
  ho k (h.waiting t k ht)

variable [DecidableEq T]

/-- What a participant can do to the table, other than leak its reservation. -/
inductive Step (x y : Table K T) : Prop
  /-- Nothing changes, except that some may stop waiting. -/
  | stay : y.reserved = x.reserved → y.computing = x.computing → NoNewWaiter x y → Step x y
  /-- The participant begins to wait for a reserved key. -/
  | wait (t : T) (k : K) : k ∈ x.reserved → y.reserved = x.reserved →
      y.computing = x.computing →
      (∀ u l, y.waiting u = some l → x.waiting u = some l ∨ u = t ∧ l = k) → Step x y
  /-- The participant reserves a free key. -/
  | reserve (t : T) (k : K) : k ∉ x.reserved → x.computing t = none →
      y.reserved = insert k x.reserved → y.computing = Function.update x.computing t (some k) →
      NoNewWaiter x y → Step x y
  /-- The participant frees its key and wakes all that wait for it. -/
  | release (t : T) (k : K) : x.computing t = some k → y.reserved = x.reserved \ {k} →
      y.computing = Function.update x.computing t none →
      (∀ u l, y.waiting u = some l → x.waiting u = some l ∧ l ≠ k) → Step x y

/-- A participant leaves without freeing its key. -/
inductive Leak (x y : Table K T) : Prop
  | leak (t : T) (k : K) : x.computing t = some k → y.reserved = x.reserved →
      y.computing = Function.update x.computing t none → NoNewWaiter x y → Leak x y

/-- The keys computed after a participant has stopped computing. -/
theorem computing_of_update_none {f : T → Option K} {t u : T} {k : K}
    (h : Function.update f t none u = some k) : u ≠ t ∧ f u = some k := by
  by_cases hut : u = t
  · subst hut
    rw [Function.update_self] at h
    cases h
  · rw [Function.update_of_ne hut] at h
    exact ⟨hut, h⟩

/-- The keys computed after a participant has begun to compute one. -/
theorem computing_of_update_some {f : T → Option K} {t u : T} {k l : K}
    (h : Function.update f t (some k) u = some l) : u = t ∧ l = k ∨ u ≠ t ∧ f u = some l := by
  by_cases hut : u = t
  · subst hut
    rw [Function.update_self] at h
    exact .inl ⟨rfl, (Option.some_inj.1 h).symm⟩
  · rw [Function.update_of_ne hut] at h
    exact .inr ⟨hut, h⟩

/-- Every step keeps the table orderly. -/
theorem Step.orderly {x y : Table K T} (hstep : Step x y) (h : Orderly x) : Orderly y := by
  cases hstep with
  | stay hr hc hw =>
      refine ⟨?_, ?_, ?_⟩
      · rw [hr, hc]
        exact h.reserved
      · rw [hc]
        exact h.unique
      · intro t k ht
        rw [hr]
        exact h.waiting t k (hw t k ht)
  | wait t k hk hr hc hw =>
      refine ⟨?_, ?_, ?_⟩
      · rw [hr, hc]
        exact h.reserved
      · rw [hc]
        exact h.unique
      · intro u l hu
        rw [hr]
        rcases hw u l hu with hu | ⟨-, rfl⟩
        · exact h.waiting u l hu
        · exact hk
  | reserve t k hk ht hr hc hw =>
      -- the key was free, so nobody was computing it
      have hnew : ∀ u, x.computing u ≠ some k := fun u hu => hk (h.reserved u k hu)
      refine ⟨?_, ?_, ?_⟩
      · intro u l hu
        rw [hc] at hu
        rw [hr]
        rcases computing_of_update_some hu with ⟨-, rfl⟩ | ⟨-, hu⟩
        · exact Set.mem_insert l x.reserved
        · exact Set.mem_insert_of_mem k (h.reserved u l hu)
      · intro u w l hu hw'
        rw [hc] at hu hw'
        rcases computing_of_update_some hu with ⟨hut, hl⟩ | ⟨-, hu⟩
        · rcases computing_of_update_some hw' with ⟨hwt, -⟩ | ⟨-, hw'⟩
          · rw [hut, hwt]
          · exact absurd (hl ▸ hw') (hnew w)
        · rcases computing_of_update_some hw' with ⟨-, hl⟩ | ⟨-, hw'⟩
          · exact absurd (hl ▸ hu) (hnew u)
          · exact h.unique u w l hu hw'
      · intro u l hu
        rw [hr]
        exact Set.mem_insert_of_mem k (h.waiting u l (hw u l hu))
  | release t k ht hr hc hw =>
      refine ⟨?_, ?_, ?_⟩
      · intro u l hu
        rw [hc] at hu
        obtain ⟨hut, hu⟩ := computing_of_update_none hu
        rw [hr]
        refine ⟨h.reserved u l hu, ?_⟩
        -- nobody but `t` was computing the key that is freed
        rintro rfl
        exact hut (h.unique u t l hu ht)
      · intro u w l hu hw'
        rw [hc] at hu hw'
        exact h.unique u w l (computing_of_update_none hu).2 (computing_of_update_none hw').2
      · intro u l hu
        obtain ⟨hu, hne⟩ := hw u l hu
        rw [hr]
        exact ⟨h.waiting u l hu, hne⟩

/-- A leak keeps the table orderly. -/
theorem Leak.orderly {x y : Table K T} (hleak : Leak x y) (h : Orderly x) : Orderly y := by
  obtain ⟨t, k, ht, hr, hc, hw⟩ := hleak
  refine ⟨?_, ?_, ?_⟩
  · intro u l hu
    rw [hc] at hu
    rw [hr]
    exact h.reserved u l (computing_of_update_none hu).2
  · intro u w l hu hw'
    rw [hc] at hu hw'
    exact h.unique u w l (computing_of_update_none hu).2 (computing_of_update_none hw').2
  · intro u l hu
    rw [hr]
    exact h.waiting u l (hw u l hu)

/-- Every step, but not a leak, keeps all reserved keys computed. -/
theorem Step.owned {x y : Table K T} (hstep : Step x y) (ho : Owned x) : Owned y := by
  cases hstep with
  | stay hr hc =>
      unfold Owned
      rw [hr, hc]
      exact ho
  | wait t k hk hr hc =>
      unfold Owned
      rw [hr, hc]
      exact ho
  | reserve t k hk ht hr hc =>
      intro l hl
      rw [hr] at hl
      rw [hc]
      rcases Set.mem_insert_iff.1 hl with rfl | hl
      · exact ⟨t, Function.update_self ..⟩
      · obtain ⟨u, hu⟩ := ho l hl
        refine ⟨u, ?_⟩
        rw [Function.update_of_ne, hu]
        rintro rfl
        rw [ht] at hu
        cases hu
  | release t k ht hr hc =>
      intro l hl
      rw [hr] at hl
      rw [hc]
      -- the other reserved keys are computed by participants other than `t`
      obtain ⟨u, hu⟩ := ho l hl.1
      refine ⟨u, ?_⟩
      rw [Function.update_of_ne, hu]
      rintro rfl
      exact hl.2 (Option.some_inj.1 (hu.symm.trans ht))

/-- What can happen to a table. -/
def Next (x y : Table K T) : Prop := Step x y ∨ Leak x y

/-- **Every table reached from the empty one is orderly.** -/
theorem orderly_of_reaches {x : Table K T} (h : Relation.ReflTransGen Next empty x) :
    Orderly x := by
  induction h with
  | refl =>
      refine ⟨?_, ?_, ?_⟩
      · intro t k ht
        cases ht
      · intro t u k ht
        cases ht
      · intro t k ht
        cases ht
  | tail _ hnext ih =>
      rcases hnext with hstep | hleak
      · exact hstep.orderly ih
      · exact hleak.orderly ih

/-- **Where nothing was leaked, every reserved key is being computed.** -/
theorem owned_of_reaches {x : Table K T} (h : Relation.ReflTransGen Step empty x) : Owned x := by
  induction h with
  | refl => exact fun k hk => absurd hk (Set.notMem_empty k)
  | tail _ hstep ih => exact hstep.owned ih

/-- A leaked key is reserved, and nobody computes it. -/
theorem Leak.orphan {x y : Table K T} (hleak : Leak x y) (h : Orderly x) :
    ∃ k ∈ y.reserved, ∀ u, y.computing u ≠ some k := by
  obtain ⟨t, k, ht, hr, hc, -⟩ := hleak
  refine ⟨k, hr ▸ h.reserved t k ht, ?_⟩
  intro u hu
  rw [hc] at hu
  obtain ⟨hut, hu⟩ := computing_of_update_none hu
  exact hut (h.unique u t k hu ht)

end Table

/-! ### From the participants to the table -/

/-- What a participant does, seen from its own key `k`: `R` and `R'` are the reserved keys before
and after, `owns` and `owns'` tell whether it computes its key, `waits'` whether it now waits for
it, and `leaks` whether it leaves without freeing it. -/
inductive Effect {K : Type u} (R R' : Set K) (k : K) : (owns owns' waits' leaks : Bool) → Prop
  | stay (o : Bool) : R' = R → Effect R R' k o o false false
  | wait : k ∈ R → R' = R → Effect R R' k false false true false
  | reserve : k ∉ R → R' = insert k R → Effect R R' k false true false false
  | release : R' = R \ {k} → Effect R R' k true false false false
  | leak : R' = R → Effect R R' k true false false true

namespace Effect

variable {K : Type u} {T : Type v} [DecidableEq T] {x y : Table K T} {t : T} {k : K}
  {owns owns' waits' leaks : Bool}

omit [DecidableEq T] in
/-- A participant that stops computing without a leak has freed its key. -/
theorem freed {R R' : Set K} (h : Effect R R' k true false waits' false) : k ∉ R' := by
  cases h with
  | release hR =>
      rw [hR]
      exact fun hk => hk.2 rfl

omit [DecidableEq T] in
/-- A leak frees no key. -/
theorem kept {R R' : Set K} (h : Effect R R' k owns owns' waits' true) : R' = R := by
  cases h with
  | leak hR => exact hR

/-- What the table says of the participant: it computes its key, or none. -/
def slot (owns : Bool) (k : K) : Option K := if owns then some k else none

/-- The participants other than `t` that wait, waited before; and so did `t` unless it has just
begun to. -/
theorem noNewWaiter (hothers : ∀ u, u ≠ t → ∀ l, y.waiting u = some l → x.waiting u = some l)
    (ht : y.waiting t = slot false k) : Table.NoNewWaiter x y := by
  intro u l hu
  by_cases hut : u = t
  · rw [hut, ht] at hu
    cases hu
  · exact hothers u hut l hu

/-- What a participant does without leaking its key is a step of the table. -/
theorem step (h : Effect x.reserved y.reserved k owns owns' waits' false)
    (hbefore : x.computing t = slot owns k)
    (hafter : y.computing = Function.update x.computing t (slot owns' k))
    (hothers : ∀ u, u ≠ t → ∀ l, y.waiting u = some l → x.waiting u = some l)
    (hwaits : y.waiting t = slot waits' k)
    (hwake : owns = true → owns' = false → ∀ u, u ≠ t → y.waiting u ≠ some k) :
    Table.Step x y := by
  cases h with
  | stay _ hR =>
      rw [← hbefore, Function.update_eq_self] at hafter
      exact .stay hR hafter (noNewWaiter hothers hwaits)
  | wait hk hR =>
      have hsame : slot false k = x.computing t := hbefore.symm
      rw [hsame, Function.update_eq_self] at hafter
      refine .wait t k hk hR hafter fun u l hu => ?_
      by_cases hut : u = t
      · rw [hut, hwaits] at hu
        exact .inr ⟨hut, (Option.some_inj.1 hu).symm⟩
      · exact .inl (hothers u hut l hu)
  | reserve hk hR =>
      exact .reserve t k hk hbefore hR hafter (noNewWaiter hothers hwaits)
  | release hR =>
      refine .release t k hbefore hR hafter fun u l hu => ?_
      refine ⟨noNewWaiter hothers hwaits u l hu, ?_⟩
      rintro rfl
      by_cases hut : u = t
      · rw [hut, hwaits] at hu
        cases hu
      · exact hwake rfl rfl u hut hu

/-- A participant that leaves without freeing its key leaks it. -/
theorem leak_of (h : Effect x.reserved y.reserved k owns owns' waits' true)
    (hbefore : x.computing t = slot owns k)
    (hafter : y.computing = Function.update x.computing t (slot owns' k))
    (hothers : ∀ u, u ≠ t → ∀ l, y.waiting u = some l → x.waiting u = some l)
    (hwaits : y.waiting t = slot waits' k) : Table.Leak x y := by
  cases h with
  | leak hR => exact .leak t k hbefore hR hafter (noNewWaiter hothers hwaits)

end Effect

end SingleFlight
