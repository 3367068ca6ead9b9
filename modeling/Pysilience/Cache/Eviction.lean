/-
The backend in memory evicts the least recently used entry.

A run of a `MemoryBackend` is any sequence of `get`, `put`, `delete` and `clear` at readings of the
clock that never decrease.  Its store represents a store of the reference `Lru.Store`: the entries
are the same, and the order of the dictionary is that of the last use.  Every operation of the
backend is a step of the reference with the same reply.

Main definitions:

* `Caching.MemoryRun`, `Caching.memoryRuns` — the runs of a backend;
* `Caching.Represents` — the items of a dictionary represent a store of the reference;
* `Caching.RefinesLru` — what the reference says about the state of a run.

Main results:

* `Caching.MemoryBackend.perform_refines` — every operation is a step of the reference;
* `Caching.memory_backend_refines_lru` — **the backend refines the reference**.
-/

import Pysilience.Cache.MemoryBackend
import Pysilience.Lib.LruReference
import Pysilience.Lib.Transition

set_option relaxedAutoImplicit false
set_option autoImplicit false

namespace Caching

open Collections Transition

universe u v

variable {K : Type u} {V : Type v} [DecidableEq K]

/-! ### Runs -/

/-- An operation of the backend at the reading `now` of the clock: its reply, and the state it
leaves. -/
def MemoryBackend.perform (b : MemoryBackend K V) (now : ℚ) :
    Lru.Op K V → Lru.Reply V × MemoryBackend K V
  | .get key => (.value (b.get key now).1, (b.get key now).2)
  | .put key value =>
      (if (b.put key value now).1.isSome then .done else .failed, (b.put key value now).2)
  | .delete key => (.deleted (b.delete key).1, (b.delete key).2)
  | .clear => (.done, b.clear)

/-- The state of a run: the backend, the last reading of the clock, and the operations so far with
their readings and replies, the latest first. -/
structure MemoryRun (K : Type u) (V : Type v) where
  backend : MemoryBackend K V
  clock : ℚ
  log : Lru.Log K V ℚ

/-- One operation, at a reading of the clock that is no earlier than the last one. -/
def MemoryRun.step (s : MemoryRun K V) (a : Lru.Op K V × ℚ) : Option (MemoryRun K V) :=
  if a.2 < s.clock then none
  else
    let (reply, backend) := s.backend.perform a.2 a.1
    some ⟨backend, a.2, (a.1, a.2, reply) :: s.log⟩

/-- The runs of a backend that was constructed with these arguments at the reading `start`. -/
def memoryRuns (K : Type u) (V : Type v) [DecidableEq K] (maxSize : ℤ) (ttl : Option ℚ)
    (start : ℚ) : Machine (MemoryRun K V) (Lru.Op K V × ℚ) where
  init := ⟨MemoryBackend.init maxSize ttl, start, []⟩
  step := MemoryRun.step

/-! ### Representing a store of the reference -/

/-- An entry that was stored at `storedAt` has not reached the age `ttl` at the instant `now`. -/
def Fresh (ttl : Option ℚ) (storedAt now : ℚ) : Prop := ∀ u ∈ ttl, now - storedAt < u

omit [DecidableEq K] in
theorem MemoryBackend.isExpired_eq_false {b : MemoryBackend K V} {entry : CacheEntry V} {now : ℚ} :
    b.isExpired entry now = false ↔ Fresh b.ttl entry.cachedAt now := by
  unfold MemoryBackend.isExpired Fresh
  cases b.ttl <;> simp

/-- The items of a dictionary represent a store of the reference: they are its entries, in the order
of their last use. -/
structure Represents (items : List (K × CacheEntry V)) (r : Lru.Store K V ℚ) : Prop where
  entry : ∀ k entry, (k, entry) ∈ items ↔
    ∃ n, r.entries k = some ⟨entry.value, entry.cachedAt, n⟩
  order : items.Pairwise fun p q => ∀ e f, r.entries p.1 = some e → r.entries q.1 = some f →
    e.usedAt < f.usedAt
  used_lt : ∀ k e, r.entries k = some e → e.usedAt < r.ops

namespace Represents

variable {items : List (K × CacheEntry V)} {r : Lru.Store K V ℚ}

omit [DecidableEq K] in
theorem empty : Represents ([] : List (K × CacheEntry V)) Lru.Store.empty where
  entry k entry := by simp [Lru.Store.empty]
  order := List.Pairwise.nil
  used_lt k e he := by cases he

omit [DecidableEq K] in
theorem tick (h : Represents items r) : Represents items r.tick where
  entry := h.entry
  order := h.order
  used_lt k e he := Nat.lt_succ_of_lt (h.used_lt k e he)

omit [DecidableEq K] in
/-- An entry of the reference is an item. -/
theorem mem_of_entry (h : Represents items r) {k : K} {e : Lru.Entry V ℚ}
    (he : r.entries k = some e) : (k, ⟨e.value, e.storedAt⟩) ∈ items :=
  (h.entry k _).2 ⟨e.usedAt, he⟩

omit [DecidableEq K] in
/-- A key without an item has no entry. -/
theorem entries_eq_none (h : Represents items r) {k : K} (hk : ∀ p ∈ items, p.1 ≠ k) :
    r.entries k = none := by
  cases he : r.entries k with
  | none => rfl
  | some e => exact absurd rfl (hk _ (h.mem_of_entry he))

/-- Removing a key. -/
theorem remove (h : Represents items r) (k : K) :
    Represents (items.filter (·.1 ≠ k)) (r.remove k) where
  entry l entry := by
    rw [List.mem_filter, decide_eq_true_iff]
    change _ ∧ l ≠ k ↔ _
    rcases eq_or_ne l k with rfl | hne
    · rw [Lru.Store.remove_self]
      simp
    · rw [Lru.Store.remove_ne _ hne, ← h.entry]
      simp [hne]
  order := by
    refine (h.order.filter _).imp_of_mem fun {p q} hp hq hpq e f he hf => ?_
    have hp' : p.1 ≠ k := by simpa using (List.mem_filter.1 hp).2
    have hq' : q.1 ≠ k := by simpa using (List.mem_filter.1 hq).2
    rw [Lru.Store.remove_ne _ hp'] at he
    rw [Lru.Store.remove_ne _ hq'] at hf
    exact hpq e f he hf
  used_lt l e he := by
    rcases eq_or_ne l k with rfl | hne
    · rw [Lru.Store.remove_self] at he
      cases he
    · rw [Lru.Store.remove_ne _ hne] at he
      exact h.used_lt l e he

/-- Using a key that is not there puts it at the end. -/
theorem use (h : Represents items r) {k : K} (hk : ∀ p ∈ items, p.1 ≠ k) (v : V) (storedAt : ℚ) :
    Represents (items ++ [(k, ⟨v, storedAt⟩)]) (r.use k v storedAt).tick where
  entry l entry := by
    rw [List.mem_append, List.mem_singleton]
    change _ ↔ ∃ n, (r.use k v storedAt).entries l = _
    rcases eq_or_ne l k with rfl | hne
    · rw [Lru.Store.use_self]
      constructor
      · rintro (hmem | heq)
        · exact absurd rfl (hk _ hmem)
        · obtain ⟨-, rfl⟩ := Prod.mk.inj heq
          exact ⟨r.ops, rfl⟩
      · rintro ⟨n, heq⟩
        have := Option.some_inj.1 heq
        simp only [Lru.Entry.mk.injEq] at this
        obtain ⟨rfl, rfl, -⟩ := this
        exact .inr rfl
    · rw [Lru.Store.use_ne _ hne, ← h.entry]
      simp [hne]
  order := by
    rw [List.pairwise_append]
    refine ⟨h.order.imp_of_mem fun {p q} hp hq hpq e f he hf => ?_, List.pairwise_singleton .., ?_⟩
    · have he' : r.entries p.1 = some e := (r.use_ne (hk p hp) v storedAt).symm.trans he
      have hf' : r.entries q.1 = some f := (r.use_ne (hk q hq) v storedAt).symm.trans hf
      exact hpq e f he' hf'
    · -- every other entry was used earlier
      intro p hp q hq e f he hf
      obtain rfl := List.mem_singleton.1 hq
      have he' : r.entries p.1 = some e := (r.use_ne (hk p hp) v storedAt).symm.trans he
      obtain rfl := Option.some_inj.1 ((r.use_self k v storedAt).symm.trans hf)
      exact h.used_lt p.1 e he'
  used_lt l e he := by
    rcases eq_or_ne l k with rfl | hne
    · obtain rfl := Option.some_inj.1 ((r.use_self l v storedAt).symm.trans he)
      exact Nat.lt_succ_self _
    · have he' : r.entries l = some e := (r.use_ne hne v storedAt).symm.trans he
      exact Nat.lt_succ_of_lt (h.used_lt l e he')

/-- Using a key that is there moves it to the end. -/
theorem touch (h : Represents items r) (k : K) (v : V) (storedAt : ℚ) :
    Represents (items.filter (·.1 ≠ k) ++ [(k, ⟨v, storedAt⟩)]) (r.use k v storedAt).tick := by
  have hmiss : ∀ p ∈ items.filter (·.1 ≠ k), p.1 ≠ k := by
    intro p hp
    simpa using (List.mem_filter.1 hp).2
  have := (h.remove k).use hmiss v storedAt
  rwa [Lru.Store.use_remove] at this

/-- The number of entries. -/
theorem ncard_keys (h : Represents items r) (hnodup : (items.map Prod.fst).Nodup) :
    r.keys.ncard = items.length := by
  have hkeys : r.keys = ↑(items.map Prod.fst).toFinset := by
    ext k
    simp only [List.coe_toFinset, Set.mem_ofPred_eq, List.mem_map]
    constructor
    · rintro ⟨e, he⟩
      exact ⟨_, h.mem_of_entry he, rfl⟩
    · rintro ⟨⟨l, entry⟩, hp, rfl⟩
      obtain ⟨n, hn⟩ := (h.entry l entry).1 hp
      exact ⟨_, hn⟩
  rw [hkeys, Set.ncard_coe_finset, List.toFinset_card_of_nodup hnodup, List.length_map]

omit [DecidableEq K] in
/-- The head of the items was used before all others. -/
theorem head {oldest : K × CacheEntry V} (h : Represents (oldest :: items) r) :
    ∃ n, r.entries oldest.1 = some ⟨oldest.2.value, oldest.2.cachedAt, n⟩ ∧
      ∀ l f, r.entries l = some f → n ≤ f.usedAt := by
  obtain ⟨n, hn⟩ := (h.entry oldest.1 oldest.2).1 List.mem_cons_self
  refine ⟨n, hn, fun l f hf => ?_⟩
  rcases List.mem_cons.1 (h.mem_of_entry hf) with heq | hmem
  · rw [← heq] at hn
    rw [Option.some_inj.1 (hf.symm.trans hn)]
  · exact ((List.pairwise_cons.1 h.order).1 _ hmem _ f hn hf).le

/-- Removing the head leaves the other items. -/
theorem tail {oldest : K × CacheEntry V} (h : Represents (oldest :: items) r)
    (hnodup : ((oldest :: items).map Prod.fst).Nodup) :
    Represents items (r.remove oldest.1) := by
  have hrest : (oldest :: items).filter (·.1 ≠ oldest.1) = items := by
    rw [List.map_cons, List.nodup_cons] at hnodup
    rw [List.filter_cons_of_neg (by simp)]
    refine List.filter_eq_self.2 fun p hp => decide_eq_true ?_
    intro heq
    exact hnodup.1 (heq ▸ List.mem_map_of_mem hp)
  rw [← hrest]
  exact h.remove oldest.1

end Represents

/-! ### Every operation is a step of the reference -/

namespace MemoryBackend

variable {b : MemoryBackend K V} {r : Lru.Store K V ℚ}

/-- No operation changes the arguments of the constructor. -/
theorem perform_fields (b : MemoryBackend K V) (now : ℚ) (op : Lru.Op K V) :
    (b.perform now op).2.maxSize = b.maxSize ∧ (b.perform now op).2.ttl = b.ttl := by
  cases op with
  | get key =>
      simp only [perform, get]
      split
      · exact ⟨rfl, rfl⟩
      · split <;> exact ⟨rfl, rfl⟩
  | put key value =>
      simp only [perform, put]
      split
      · exact ⟨rfl, rfl⟩
      · split <;> exact ⟨rfl, rfl⟩
  | delete key =>
      simp only [perform, delete]
      split <;> exact ⟨rfl, rfl⟩
  | clear => exact ⟨rfl, rfl⟩

/-- What an operation does in terms of the reference: a step with the same reply, after which the
store still represents the reference and keeps to its size. -/
def Refined (b : MemoryBackend K V) (r : Lru.Store K V ℚ) (op : Lru.Op K V) (now : ℚ)
    (reply : Lru.Reply V) (b' : MemoryBackend K V) : Prop :=
  ∃ r', Lru.Step b.maxSize.toNat (Fresh b.ttl) r op now reply r' ∧
    Represents b'.store.items r' ∧ (b'.store.items.length : ℤ) ≤ b.maxSize

theorem get_refines (hlen : (b.store.items.length : ℤ) ≤ b.maxSize)
    (h : Represents b.store.items r) (now : ℚ) (key : K) :
    b.Refined r (.get key) now (.value (b.get key now).1) (b.get key now).2 := by
  cases hg : b.store.get? key with
  | none =>
      have hmiss := h.entries_eq_none (OrderedDict.get?_eq_none.1 hg)
      simp only [get, hg]
      exact ⟨_, .miss hmiss, h.tick, hlen⟩
  | some entry =>
      obtain ⟨n, hn⟩ := (h.entry key entry).1 (OrderedDict.get?_eq_some.1 hg)
      have hlength := OrderedDict.delItem_length hg
      cases hexp : b.isExpired entry now with
      | true =>
          have hstale : ¬ Fresh b.ttl entry.cachedAt now := by
            rw [← isExpired_eq_false, hexp]
            exact Bool.noConfusion
          simp only [get, hg, hexp, if_true]
          refine ⟨_, .expired hn hstale, (h.remove key).tick, ?_⟩
          change ((b.store.delItem key).items.length : ℤ) ≤ b.maxSize
          omega
      | false =>
          have hfresh := isExpired_eq_false.1 hexp
          have hitems := OrderedDict.moveToEnd_items hg
          simp only [get, hg, hexp, Bool.false_eq_true, if_false]
          refine ⟨_, .hit hn hfresh, hitems ▸ h.touch key entry.value entry.cachedAt, ?_⟩
          rwa [(b.store.moveToEnd_perm key).length_eq]

omit [DecidableEq K] in
/-- The loop of `put` pops nothing while there is room, and the oldest entry where there is none. -/
theorem popWhile_cases (hsize : 1 ≤ b.maxSize) (hlen : (b.store.items.length : ℤ) ≤ b.maxSize) :
    ∃ store, (b.store.popWhile fun size => decide (b.maxSize ≤ size)) = some store ∧
      (((b.store.items.length : ℤ) < b.maxSize ∧ store.items = b.store.items) ∨
      ∃ oldest, (b.store.items.length : ℤ) = b.maxSize ∧
        b.store.items = oldest :: store.items) := by
  have hsome : (b.store.popWhile fun size => decide (b.maxSize ≤ size)).isSome = true :=
    b.store.popWhile_isSome (decide_eq_false (by push_cast; omega))
  obtain ⟨store, hstore⟩ := Option.isSome_iff_exists.1 hsome
  refine ⟨store, hstore, ?_⟩
  have hitems := OrderedDict.popWhile_items hstore
  rcases hlen.lt_or_eq with hroom | hfull
  · rw [OrderedDict.popItems_of_room (decide_eq_false (by omega))] at hitems
    exact .inl ⟨hroom, (Option.some_inj.1 hitems).symm⟩
  · cases hcons : b.store.items with
    | nil =>
        rw [hcons, List.length_nil] at hfull
        omega
    | cons oldest rest =>
        rw [hcons, List.length_cons] at hfull
        rw [hcons, OrderedDict.popItems_of_full (decide_eq_true (by omega))
          (decide_eq_false (by omega))] at hitems
        exact .inr ⟨oldest, by rw [List.length_cons]; exact hfull, by
          rw [Option.some_inj.1 hitems]⟩

theorem put_refines (hsize : 1 ≤ b.maxSize) (hlen : (b.store.items.length : ℤ) ≤ b.maxSize)
    (h : Represents b.store.items r) (now : ℚ) (key : K) (value : V) :
    b.Refined r (.put key value) now .done (b.put key value now).2 := by
  cases hg : b.store.get? key with
  | some entry =>
      obtain ⟨n, hn⟩ := (h.entry key entry).1 (OrderedDict.get?_eq_some.1 hg)
      have hlength := OrderedDict.delItem_length hg
      have hitems := OrderedDict.setItem_moveToEnd_items hg (⟨value, now⟩ : CacheEntry V)
      simp only [put, hg, Option.isSome_some, if_true]
      refine ⟨_, .replace hn, hitems ▸ h.touch key value now, ?_⟩
      rw [hitems, List.length_append, List.length_singleton]
      push_cast
      omega
  | none =>
      have habsent := OrderedDict.get?_eq_none.1 hg
      have hmiss := h.entries_eq_none habsent
      have hcard := h.ncard_keys b.store.nodup
      obtain ⟨store, hpop, ⟨hroom, hsame⟩ | ⟨oldest, hfull, hcons⟩⟩ := popWhile_cases hsize hlen
      · have hitems := OrderedDict.setItem_items_of_not_mem (d := store) (by rwa [hsame])
          (⟨value, now⟩ : CacheEntry V)
        simp only [put, hg, Option.isSome_none, Bool.false_eq_true, if_false, hpop]
        refine ⟨_, .insert hmiss (by omega), ?_, ?_⟩
        · rw [hitems, hsame]
          exact h.use habsent value now
        · rw [hitems, hsame, List.length_append, List.length_singleton]
          push_cast
          omega
      · have hnodup := b.store.nodup
        rw [hcons] at h habsent hnodup
        obtain ⟨n, hn, hmin⟩ := h.head
        have habsent' : ∀ p ∈ store.items, p.1 ≠ key :=
          fun p hp => habsent p (List.mem_cons_of_mem _ hp)
        have hitems := OrderedDict.setItem_items_of_not_mem habsent' (⟨value, now⟩ : CacheEntry V)
        simp only [put, hg, Option.isSome_none, Bool.false_eq_true, if_false, hpop]
        refine ⟨_, .evict hmiss (by omega) hn hmin, ?_, ?_⟩
        · rw [hitems]
          exact (h.tail hnodup).use habsent' value now
        · rw [hcons, List.length_cons] at hfull
          rw [hitems, List.length_append, List.length_singleton]
          push_cast
          omega

theorem delete_refines (hlen : (b.store.items.length : ℤ) ≤ b.maxSize)
    (h : Represents b.store.items r) (now : ℚ) (key : K) :
    b.Refined r (.delete key) now (.deleted (b.delete key).1) (b.delete key).2 := by
  cases hg : b.store.get? key with
  | some entry =>
      obtain ⟨n, hn⟩ := (h.entry key entry).1 (OrderedDict.get?_eq_some.1 hg)
      have hlength := OrderedDict.delItem_length hg
      simp only [delete, hg, Option.isSome_some, if_true]
      refine ⟨_, .delete (iff_of_true rfl ⟨_, hn⟩), (h.remove key).tick, ?_⟩
      change ((b.store.delItem key).items.length : ℤ) ≤ b.maxSize
      omega
  | none =>
      have habsent := OrderedDict.get?_eq_none.1 hg
      have hmiss := h.entries_eq_none habsent
      simp only [delete, hg, Option.isSome_none, Bool.false_eq_true, if_false]
      refine ⟨_, .delete (iff_of_false Bool.noConfusion ?_), ?_, hlen⟩
      · rintro ⟨e, he⟩
        rw [hmiss] at he
        cases he
      · have hrem := (h.remove key).tick
        rwa [List.filter_eq_self.2 fun p hp => decide_eq_true (habsent p hp)] at hrem

theorem clear_refines (hsize : 1 ≤ b.maxSize) (now : ℚ) :
    b.Refined r .clear now .done b.clear := by
  refine ⟨_, .clear, ⟨fun k entry => ?_, List.Pairwise.nil, nofun⟩, ?_⟩
  · simp [clear, OrderedDict.empty]
  · change ((0 : ℕ) : ℤ) ≤ b.maxSize
    omega

/-- **Every operation is a step of the reference.** -/
theorem perform_refines (hsize : 1 ≤ b.maxSize) (hlen : (b.store.items.length : ℤ) ≤ b.maxSize)
    (h : Represents b.store.items r) (now : ℚ) (op : Lru.Op K V) :
    b.Refined r op now (b.perform now op).1 (b.perform now op).2 := by
  cases op with
  | get key => exact get_refines hlen h now key
  | put key value =>
      simp only [perform, put_fst hsize, Option.isSome_some, if_true]
      exact put_refines hsize hlen h now key value
  | delete key => exact delete_refines hlen h now key
  | clear => exact clear_refines hsize now

end MemoryBackend

/-! ### Runs refine the reference -/

namespace MemoryRun

/-- The keys that are stored, in the order of the dictionary. -/
def keys (s : MemoryRun K V) : List K := s.backend.store.items.map Prod.fst

/-- The invariant of a run: the arguments of the constructor are kept, the size is respected, and
the store represents what the operations so far lead to in the reference. -/
structure Inv (maxSize : ℤ) (ttl : Option ℚ) (s : MemoryRun K V) : Prop where
  maxSize_eq : s.backend.maxSize = maxSize
  ttl_eq : s.backend.ttl = ttl
  size_le : (s.backend.store.items.length : ℤ) ≤ maxSize
  reference : ∃ r, Lru.Run maxSize.toNat (Fresh ttl) s.log r ∧
    Represents s.backend.store.items r

variable {maxSize : ℤ} {ttl : Option ℚ} {start : ℚ}

theorem inv_init (hsize : 1 ≤ maxSize) :
    (memoryRuns K V maxSize ttl start).init.Inv maxSize ttl where
  maxSize_eq := rfl
  ttl_eq := rfl
  size_le := by
    change ((0 : ℕ) : ℤ) ≤ maxSize
    omega
  reference := ⟨_, .nil, Represents.empty⟩

/-- A step performs an operation, no earlier than the one before. -/
theorem step_eq_some {s s' : MemoryRun K V} {op : Lru.Op K V} {now : ℚ}
    (h : s.step (op, now) = some s') :
    s.clock ≤ now ∧ s' = ⟨(s.backend.perform now op).2, now,
      (op, now, (s.backend.perform now op).1) :: s.log⟩ := by
  unfold step at h
  split at h
  · cases h
  · next hnow => exact ⟨not_lt.1 hnow, (Option.some_inj.1 h).symm⟩

theorem inv_step (hsize : 1 ≤ maxSize) {s s' : MemoryRun K V} {a : Lru.Op K V × ℚ}
    (hi : s.Inv maxSize ttl) (h : s.step a = some s') : s'.Inv maxSize ttl := by
  obtain ⟨op, now⟩ := a
  obtain ⟨-, rfl⟩ := step_eq_some h
  obtain ⟨rfl, rfl, hlen, r, hrun, hr⟩ := hi
  obtain ⟨r', hstep, hr', hlen'⟩ := s.backend.perform_refines hsize hlen hr now op
  obtain ⟨hmax, httl⟩ := s.backend.perform_fields now op
  exact ⟨hmax, httl, hlen', r', hrun.snoc hstep, hr'⟩

theorem inv_of_reachable (hsize : 1 ≤ maxSize) {s : MemoryRun K V}
    (hr : (memoryRuns K V maxSize ttl start).Reachable s) : s.Inv maxSize ttl :=
  hr.invariant (I := Inv maxSize ttl) (inv_init hsize) fun _ _ _ hi hs => inv_step hsize hi hs

end MemoryRun

/-- What the reference says about the state of a run. -/
structure RefinesLru (maxSize : ℤ) (ttl : Option ℚ) (s : MemoryRun K V) : Prop where
  /-- The operations so far are a run of the reference with the same replies, and the store
  represents the store it leads to. -/
  reference : ∃ r, Lru.Run maxSize.toNat (Fresh ttl) s.log r ∧ Represents s.backend.store.items r
  size_le : (s.keys.length : ℤ) ≤ maxSize
  /-- The order of the dictionary is that of the last use. -/
  order : s.keys.Pairwise fun k l => Lru.lastUse s.log k < Lru.lastUse s.log l
  /-- A lookup returns the value of the latest put of a key that is still stored, if it is younger
  than `ttl`, and nothing else. -/
  get : ∀ k now v, (s.backend.get k now).1 = some v ↔
    k ∈ s.keys ∧ ∃ storedAt, Lru.latestPut s.log k = some (v, storedAt) ∧ Fresh ttl storedAt now
  /-- A key is removed only by being deleted, by clearing, by a lookup that finds it expired, or by
  the put of an absent key into a full store, which removes the key whose last use is oldest and no
  other. -/
  removed : ∀ op now s', s.step (op, now) = some s' → ∀ k ∈ s.keys, k ∉ s'.keys →
    op = .delete k ∨ op = .clear ∨
    (op = .get k ∧ ∃ v storedAt, Lru.latestPut s.log k = some (v, storedAt) ∧
      ¬ Fresh ttl storedAt now) ∨
    ∃ l v, op = .put l v ∧ l ∉ s.keys ∧ (s.keys.length : ℤ) = maxSize ∧
      (∀ m ∈ s.keys, Lru.lastUse s.log k ≤ Lru.lastUse s.log m) ∧
      ∀ m ∈ s.keys, m ≠ k → m ∈ s'.keys

omit [DecidableEq K] in
/-- The keys of a dictionary are those of the store it represents. -/
theorem Represents.mem_keys {s : MemoryRun K V} {r : Lru.Store K V ℚ}
    (h : Represents s.backend.store.items r) {k : K} :
    k ∈ s.keys ↔ ∃ e, r.entries k = some e := by
  rw [MemoryRun.keys, List.mem_map]
  constructor
  · rintro ⟨⟨l, entry⟩, hmem, rfl⟩
    obtain ⟨n, hn⟩ := (h.entry l entry).1 hmem
    exact ⟨_, hn⟩
  · rintro ⟨e, he⟩
    exact ⟨_, h.mem_of_entry he, rfl⟩

/-- **The backend in memory refines the reference**, in every run of a backend with room for one
entry or more. -/
theorem memory_backend_refines_lru (maxSize : ℤ) (ttl : Option ℚ) (hsize : 1 ≤ maxSize)
    (start : ℚ) (s : MemoryRun K V) (hreach : (memoryRuns K V maxSize ttl start).Reachable s) :
    RefinesLru maxSize ttl s := by
  obtain ⟨rfl, rfl, hlen, r, hrun, hr⟩ := MemoryRun.inv_of_reachable hsize hreach
  have hlength : s.keys.length = s.backend.store.items.length := List.length_map ..
  refine ⟨⟨r, hrun, hr⟩, by rwa [hlength], ?_, ?_, ?_⟩
  · rw [MemoryRun.keys, List.pairwise_map]
    refine hr.order.imp_of_mem fun {p q} hp hq hpq => ?_
    obtain ⟨n, hn⟩ := (hr.entry p.1 p.2).1 hp
    obtain ⟨m, hm⟩ := (hr.entry q.1 q.2).1 hq
    rw [(hrun.entry hn).2, (hrun.entry hm).2]
    exact hpq _ _ hn hm
  · intro k now v
    constructor
    · intro hget
      obtain ⟨entry, hmem, rfl, hlive⟩ := MemoryBackend.holds_of_get_some hget
      obtain ⟨n, hn⟩ := (hr.entry k entry).1 hmem
      exact ⟨hr.mem_keys.2 ⟨_, hn⟩, _, (hrun.entry hn).1, MemoryBackend.isExpired_eq_false.1 hlive⟩
    · rintro ⟨hk, storedAt, hlatest, hfresh⟩
      obtain ⟨e, he⟩ := hr.mem_keys.1 hk
      rw [(hrun.entry he).1, Option.some_inj, Prod.mk.injEq] at hlatest
      obtain ⟨rfl, rfl⟩ := hlatest
      have hlookup := OrderedDict.get?_eq_some.2 (hr.mem_of_entry he)
      have hlive : s.backend.isExpired ⟨e.value, e.storedAt⟩ now = false :=
        MemoryBackend.isExpired_eq_false.2 hfresh
      simp only [MemoryBackend.get, hlookup, hlive, Bool.false_eq_true, if_false]
  · intro op now s' hstep k hk hgone
    obtain ⟨-, rfl⟩ := MemoryRun.step_eq_some hstep
    obtain ⟨r', hstep', hr', -⟩ := s.backend.perform_refines hsize hlen hr now op
    obtain ⟨e, he⟩ := hr.mem_keys.1 hk
    have hnone : r'.entries k = none := by
      refine hr'.entries_eq_none fun p hp heq => hgone ?_
      exact heq ▸ List.mem_map_of_mem hp
    rcases hstep'.removed he hnone with
      hop | hop | ⟨hop, hstale⟩ | ⟨l, v, hop, hl, hfull, hmin, hothers⟩
    · exact .inl hop
    · exact .inr (.inl hop)
    · exact .inr (.inr (.inl ⟨hop, _, _, (hrun.entry he).1, hstale⟩))
    · refine .inr (.inr (.inr ⟨l, v, hop, ?_, ?_, ?_, ?_⟩))
      · intro hmem
        obtain ⟨f, hf⟩ := hr.mem_keys.1 hmem
        rw [hl] at hf
        cases hf
      · rw [hr.ncard_keys s.backend.store.nodup] at hfull
        omega
      · intro m hm
        obtain ⟨f, hf⟩ := hr.mem_keys.1 hm
        rw [(hrun.entry he).2, (hrun.entry hf).2]
        exact hmin m f hf
      · intro m hm hne
        obtain ⟨f, hf⟩ := hr.mem_keys.1 hm
        exact List.mem_map_of_mem (hr'.mem_of_entry (hothers m hne f hf))

/-- Room for two entries of a second: the entry that was looked up survives the eviction. -/
theorem memory_backend_refines_lru_after_hit : ∃ s : MemoryRun ℕ String,
    s.keys = [1, 3] ∧ RefinesLru 2 (some 1) s := by
  obtain ⟨s, hr, hs⟩ := Machine.exists_reachable_of_exec (memoryRuns ℕ String 2 (some 1) 0)
    [(.put 1 "a", 0), (.put 2 "b", 1 / 4), (.get 1, 1 / 2), (.put 3 "c", 1 / 2)]
    (fun s => decide (s.keys = [1, 3])) (by decide +kernel)
  exact ⟨s, of_decide_eq_true hs, memory_backend_refines_lru 2 (some 1) (by decide) 0 s hr⟩

end Caching
