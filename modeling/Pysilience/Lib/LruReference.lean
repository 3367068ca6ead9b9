/-
What a store with least-recently-used eviction and expiring entries is for.

A store maps keys to entries.  An entry has two dates: the instant at which its value was put, from
which its age is measured, and the number of the operation that last used it, by which its recency
is measured.  Putting a value sets both; a lookup that finds a fresh entry sets the second only.
An entry leaves the store when it is deleted, when the store is cleared, when a lookup finds that it
is no longer fresh, or when a new key is put into a full store and no other entry was used longer
ago.

The store is described by a relation, with no commitment to how it is represented.  What its
entries have to do with the past is a theorem: an entry carries the value and the instant of the
latest put of its key, and the number of the latest use of its key.

Main definitions:

* `Lru.Store`, `Lru.Step`, `Lru.Run` — the store, one operation, and a sequence of operations with
  the replies it got;
* `Lru.latestPut`, `Lru.lastUse` — what a sequence of operations says about a key.

Main results:

* `Lru.Run.entry` — **an entry is the latest put of its key**, dated by the latest use of its key;
* `Lru.Step.removed` — the ways in which an entry can leave the store.
-/

import Mathlib.Data.Set.Card
import Mathlib.Logic.Function.Basic

set_option relaxedAutoImplicit false
set_option autoImplicit false

namespace Lru

universe u v w

/-! ### The store -/

inductive Op (K : Type u) (V : Type v)
  | get (key : K)
  | put (key : K) (value : V)
  | delete (key : K)
  | clear
  deriving DecidableEq

/-- What an operation replies: a lookup finds a value or none, and a deletion tells whether there
was something to delete. -/
inductive Reply (V : Type v)
  | value (found : Option V)
  | done
  | deleted (existed : Bool)
  /-- The operation raised an exception. -/
  | failed
  deriving DecidableEq

/-- An entry: its value, when it was put, and the number of the operation that last used it. -/
structure Entry (V : Type v) (τ : Type w) where
  value : V
  storedAt : τ
  usedAt : ℕ

/-- A store: its entries, and the number of operations so far. -/
structure Store (K : Type u) (V : Type v) (τ : Type w) where
  entries : K → Option (Entry V τ)
  ops : ℕ

variable {K : Type u} {V : Type v} {τ : Type w} [DecidableEq K]

namespace Store

def empty : Store K V τ := ⟨fun _ => none, 0⟩

/-- The keys that have an entry. -/
def keys (s : Store K V τ) : Set K := {k | ∃ e, s.entries k = some e}

/-- An operation that changes no entry. -/
def tick (s : Store K V τ) : Store K V τ := { s with ops := s.ops + 1 }

/-- The entry of a key is removed. -/
def remove (s : Store K V τ) (k : K) : Store K V τ :=
  { s with entries := Function.update s.entries k none }

/-- The key is used by the present operation: its entry holds the value `v`, put at `storedAt`. -/
def use (s : Store K V τ) (k : K) (v : V) (storedAt : τ) : Store K V τ :=
  { s with entries := Function.update s.entries k (some ⟨v, storedAt, s.ops⟩) }

theorem remove_self (s : Store K V τ) (k : K) : (s.remove k).entries k = none :=
  Function.update_self ..

theorem remove_ne (s : Store K V τ) {k l : K} (h : l ≠ k) :
    (s.remove k).entries l = s.entries l :=
  Function.update_of_ne h ..

theorem use_self (s : Store K V τ) (k : K) (v : V) (storedAt : τ) :
    (s.use k v storedAt).entries k = some ⟨v, storedAt, s.ops⟩ :=
  Function.update_self ..

theorem use_ne (s : Store K V τ) {k l : K} (h : l ≠ k) (v : V) (storedAt : τ) :
    (s.use k v storedAt).entries l = s.entries l :=
  Function.update_of_ne h ..

/-- A key that is used is there. -/
theorem use_remove (s : Store K V τ) (k : K) (v : V) (storedAt : τ) :
    (s.remove k).use k v storedAt = s.use k v storedAt := by
  simp only [use, remove, Function.update_idem]

end Store

/-! ### Operations -/

/-- The effect of an operation at the instant `now` on a store with room for `capacity` entries,
where `fresh storedAt now` says that an entry put at `storedAt` has not expired. -/
inductive Step (capacity : ℕ) (fresh : τ → τ → Prop) (s : Store K V τ) :
    Op K V → τ → Reply V → Store K V τ → Prop
  | hit {k : K} {e : Entry V τ} {now : τ} :
      s.entries k = some e → fresh e.storedAt now →
      Step capacity fresh s (.get k) now (.value (some e.value)) (s.use k e.value e.storedAt).tick
  | expired {k : K} {e : Entry V τ} {now : τ} :
      s.entries k = some e → ¬ fresh e.storedAt now →
      Step capacity fresh s (.get k) now (.value none) (s.remove k).tick
  | miss {k : K} {now : τ} :
      s.entries k = none → Step capacity fresh s (.get k) now (.value none) s.tick
  | replace {k : K} {v : V} {e : Entry V τ} {now : τ} :
      s.entries k = some e → Step capacity fresh s (.put k v) now .done (s.use k v now).tick
  | insert {k : K} {v : V} {now : τ} :
      s.entries k = none → s.keys.ncard < capacity →
      Step capacity fresh s (.put k v) now .done (s.use k v now).tick
  | evict {k oldest : K} {v : V} {e : Entry V τ} {now : τ} :
      s.entries k = none → s.keys.ncard = capacity → s.entries oldest = some e →
      (∀ l f, s.entries l = some f → e.usedAt ≤ f.usedAt) →
      Step capacity fresh s (.put k v) now .done ((s.remove oldest).use k v now).tick
  | delete {k : K} {existed : Bool} {now : τ} :
      (existed = true ↔ k ∈ s.keys) →
      Step capacity fresh s (.delete k) now (.deleted existed) (s.remove k).tick
  | clear {now : τ} :
      Step capacity fresh s .clear now .done ⟨fun _ => none, s.ops + 1⟩

/-- The operations so far with their instants and replies, the latest first. -/
abbrev Log (K : Type u) (V : Type v) (τ : Type w) := List (Op K V × τ × Reply V)

/-- The stores that a sequence of operations with these replies leads to. -/
inductive Run (capacity : ℕ) (fresh : τ → τ → Prop) : Log K V τ → Store K V τ → Prop
  | nil : Run capacity fresh [] Store.empty
  | snoc {log : Log K V τ} {s s' : Store K V τ} {op : Op K V} {now : τ} {reply : Reply V} :
      Run capacity fresh log s → Step capacity fresh s op now reply s' →
      Run capacity fresh ((op, now, reply) :: log) s'

/-! ### What the past says about a key -/

/-- The value of the latest put of a key, and its instant. -/
def latestPut : Log K V τ → K → Option (V × τ)
  | [], _ => none
  | (.put k v, now, _) :: log, l => if l = k then some (v, now) else latestPut log l
  | _ :: log, l => latestPut log l

/-- The number of the latest use of a key: a put, or a lookup that found a value. -/
def lastUse : Log K V τ → K → ℕ
  | [], _ => 0
  | (.put k _, _, _) :: log, l => if l = k then log.length else lastUse log l
  | (.get k, _, .value (some _)) :: log, l => if l = k then log.length else lastUse log l
  | _ :: log, l => lastUse log l

variable {capacity : ℕ} {fresh : τ → τ → Prop} {log : Log K V τ} {s s' : Store K V τ}

/-- Every operation counts. -/
theorem Step.ops {op : Op K V} {now : τ} {reply : Reply V}
    (h : Step capacity fresh s op now reply s') : s'.ops = s.ops + 1 := by
  cases h <;> rfl

theorem Run.ops (h : Run capacity fresh log s) : s.ops = log.length := by
  induction h with
  | nil => rfl
  | snoc _ hs ih => rw [hs.ops, ih, List.length_cons]

/-- **An entry carries the value and the instant of the latest put of its key**, and the number of
the latest use of its key. -/
theorem Run.entry (h : Run capacity fresh log s) {l : K} {e : Entry V τ}
    (he : s.entries l = some e) :
    latestPut log l = some (e.value, e.storedAt) ∧ lastUse log l = e.usedAt := by
  induction h generalizing l e with
  | nil => cases he
  | @snoc log s s' op now reply hr hs ih =>
      -- a put dates the entry of its key by the present operation
      have hput : ∀ {t : Store K V τ} {k : K} {v : V}, t.ops = s.ops →
          (∀ m, m ≠ k → ∀ f, t.entries m = some f → s.entries m = some f) →
          (t.use k v now).entries l = some e →
          latestPut ((.put k v, now, .done) :: log) l = some (e.value, e.storedAt) ∧
            lastUse ((.put k v, now, .done) :: log) l = e.usedAt := by
        intro t k v hops hold he
        rw [latestPut, lastUse]
        rcases eq_or_ne l k with rfl | hne
        · rw [Store.use_self] at he
          obtain rfl := Option.some_inj.1 he
          rw [if_pos rfl, if_pos rfl, hops, hr.ops]
          exact ⟨rfl, rfl⟩
        · rw [Store.use_ne _ hne] at he
          rw [if_neg hne, if_neg hne]
          exact ih (hold l hne e he)
      cases hs with
      | @hit k f now hf hfresh =>
          change latestPut log l = _ ∧ (if l = k then log.length else lastUse log l) = _
          rcases eq_or_ne l k with rfl | hne
          · obtain rfl := Option.some_inj.1 ((s.use_self l f.value f.storedAt).symm.trans he)
            rw [if_pos rfl, ← hr.ops]
            exact ⟨(ih hf).1, rfl⟩
          · rw [if_neg hne]
            exact ih ((s.use_ne hne _ _).symm.trans he)
      | @expired k f now hf hfresh =>
          rcases eq_or_ne l k with rfl | hne
          · rw [Store.tick, Store.remove_self] at he
            cases he
          · exact ih ((s.remove_ne hne).symm.trans he)
      | miss hk => exact ih he
      | replace hk => exact hput rfl (fun _ _ _ hm => hm) he
      | insert hk hroom => exact hput rfl (fun _ _ _ hm => hm) he
      | @evict k oldest v f now hk hfull hoid hmin =>
          refine hput (t := s.remove oldest) rfl (fun m _ g hm => ?_) he
          rcases eq_or_ne m oldest with rfl | hne
          · rw [Store.remove_self] at hm
            cases hm
          · exact (s.remove_ne hne).symm.trans hm
      | @delete k existed now hex =>
          rcases eq_or_ne l k with rfl | hne
          · rw [Store.tick, Store.remove_self] at he
            cases he
          · exact ih ((s.remove_ne hne).symm.trans he)
      | clear => cases he

/-- **The ways in which an entry can leave the store**: it is deleted, the store is cleared, a
lookup finds it expired, or a new key is put into a full store; then it was used longer ago than any
other, and no other entry leaves. -/
theorem Step.removed {op : Op K V} {now : τ} {reply : Reply V}
    (h : Step capacity fresh s op now reply s') {k : K} {e : Entry V τ}
    (he : s.entries k = some e) (hgone : s'.entries k = none) :
    op = .delete k ∨ op = .clear ∨ (op = .get k ∧ ¬ fresh e.storedAt now) ∨
    ∃ l v, op = .put l v ∧ s.entries l = none ∧ s.keys.ncard = capacity ∧
      (∀ m f, s.entries m = some f → e.usedAt ≤ f.usedAt) ∧
      ∀ m, m ≠ k → ∀ f, s.entries m = some f → s'.entries m = some f := by
  -- what a use leaves of the other entries
  have huse : ∀ {t : Store K V τ} {l : K} {v : V} {storedAt : τ},
      (t.use l v storedAt).tick.entries k = none → t.entries k = none := by
    intro t l v storedAt hk
    rcases eq_or_ne k l with rfl | hne
    · rw [Store.tick, Store.use_self] at hk
      cases hk
    · exact (t.use_ne hne v storedAt).symm.trans hk
  cases h with
  | hit _ _ => rw [huse hgone] at he; cases he
  | @expired l f now hf hfresh =>
      rcases eq_or_ne k l with rfl | hne
      · obtain rfl := Option.some_inj.1 (he.symm.trans hf)
        exact .inr (.inr (.inl ⟨rfl, hfresh⟩))
      · rw [Store.tick, Store.remove_ne _ hne, he] at hgone
        cases hgone
  | miss _ => rw [Store.tick, he] at hgone; cases hgone
  | replace _ => rw [huse hgone] at he; cases he
  | insert _ _ => rw [huse hgone] at he; cases he
  | @evict l oldest v f now hl hfull hold hmin =>
      have hk := huse hgone
      rcases eq_or_ne k oldest with rfl | hne
      · obtain rfl := Option.some_inj.1 (he.symm.trans hold)
        refine .inr (.inr (.inr ⟨l, v, rfl, hl, hfull, hmin, fun m hm g hg => ?_⟩))
        have hml : m ≠ l := by
          rintro rfl
          rw [hl] at hg
          cases hg
        rw [Store.tick, Store.use_ne _ hml, Store.remove_ne _ hm]
        exact hg
      · rw [Store.remove_ne _ hne, he] at hk
        cases hk
  | @delete l existed now hex =>
      rcases eq_or_ne k l with rfl | hne
      · exact .inl rfl
      · rw [Store.tick, Store.remove_ne _ hne, he] at hgone
        cases hgone
  | clear => exact .inr (.inl rfl)

end Lru
