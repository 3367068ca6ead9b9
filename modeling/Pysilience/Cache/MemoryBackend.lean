/-
The backend in memory.

`MemoryBackend` keeps its entries in an ordered dictionary, the least recently used first, and
stamps each entry with the time at which it was stored.  It never looks at the argument `ttl` of
`put`: whether an entry has expired is decided by the field `_ttl` of the backend alone.

Every operation reads the clock at most once and takes the reading as an argument.  As the backend
of a cache, the state is a `MemoryBackend` together with the present time, and the drift between
two operations is the passing of time.

Main definitions:

* `Caching.MemoryBackend` — the fields, with the methods `get`, `put`, `delete` and `clear`;
* `Caching.memoryBackend` — the backend;
* `Caching.MemoryBackend.Holds` — the live entries.

Main results:

* `Caching.memoryBackend_lawful` — **the backend is lawful**.
-/

import Pysilience.Cache.Backend
import Pysilience.Lib.OrderedDict
import Mathlib.Algebra.Order.Group.Defs
import Mathlib.Algebra.Order.Ring.Rat

set_option relaxedAutoImplicit false
set_option autoImplicit false

namespace Caching

open Collections

universe u v w

/-- `_CacheEntry`. -/
structure CacheEntry (V : Type v) where
  value : V
  cachedAt : ℚ

/-- The fields of `MemoryBackend`. -/
structure MemoryBackend (K : Type u) (V : Type v) where
  maxSize : ℤ
  ttl : Option ℚ
  store : OrderedDict K (CacheEntry V)

namespace MemoryBackend

variable {K : Type u} {V : Type v}

/-- `__init__`. -/
def init (maxSize : ℤ := 128) (ttl : Option ℚ := none) : MemoryBackend K V where
  maxSize := maxSize
  ttl := ttl
  store := OrderedDict.empty

/-- `_is_expired`, at the reading `now` of the clock. -/
def isExpired (b : MemoryBackend K V) (entry : CacheEntry V) (now : ℚ) : Bool :=
  match b.ttl with
  | none => false
  | some ttl => decide (ttl ≤ now - entry.cachedAt)

/-- An entry that has expired stays expired. -/
theorem isExpired_of_le {b : MemoryBackend K V} {entry : CacheEntry V} {now later : ℚ}
    (hle : now ≤ later) (h : b.isExpired entry later = false) : b.isExpired entry now = false := by
  unfold isExpired at h ⊢
  split at h
  · rfl
  · next ttl _ =>
    rw [decide_eq_false_iff_not, not_le] at h ⊢
    exact (sub_le_sub_right hle _).trans_lt h

/-- The live entries at the reading `now` of the clock. -/
def Holds (b : MemoryBackend K V) (now : ℚ) (k : K) (v : V) : Prop :=
  ∃ entry, (k, entry) ∈ b.store.items ∧ entry.value = v ∧ b.isExpired entry now = false

/-- Fewer entries hold fewer values. -/
theorem Holds.of_subset {b : MemoryBackend K V} {store : OrderedDict K (CacheEntry V)} {now : ℚ}
    {k : K} {v : V} (h : Holds { b with store := store } now k v)
    (hsub : ∀ p ∈ store.items, p ∈ b.store.items) : b.Holds now k v := by
  obtain ⟨entry, hmem, hval, hexp⟩ := h
  exact ⟨entry, hsub _ hmem, hval, hexp⟩

variable [DecidableEq K]

def get (b : MemoryBackend K V) (key : K) (now : ℚ) : Option V × MemoryBackend K V :=
  match b.store.get? key with
  | none => (none, b)
  | some entry =>
      if b.isExpired entry now then (none, { b with store := b.store.delItem key })
      else (some entry.value, { b with store := b.store.moveToEnd key })

/-- The loop of `put` pops entries until there is room; `none` is the `KeyError` it raises when
there is none in an empty store either. -/
def put (b : MemoryBackend K V) (key : K) (value : V) (now : ℚ) :
    Option Unit × MemoryBackend K V :=
  if (b.store.get? key).isSome then
    let store := b.store.moveToEnd key
    (some (), { b with store := store.setItem key ⟨value, now⟩ })
  else
    match b.store.popWhile fun size => decide (b.maxSize ≤ size) with
    | none => (none, { b with store := OrderedDict.empty })
    | some store => (some (), { b with store := store.setItem key ⟨value, now⟩ })

def delete (b : MemoryBackend K V) (key : K) : Bool × MemoryBackend K V :=
  if (b.store.get? key).isSome then (true, { b with store := b.store.delItem key })
  else (false, b)

def clear (b : MemoryBackend K V) : MemoryBackend K V := { b with store := OrderedDict.empty }

/-! ### What the operations do to the live entries -/

theorem holds_of_get_some {b : MemoryBackend K V} {key : K} {now : ℚ} {v : V}
    (h : (b.get key now).1 = some v) : b.Holds now key v := by
  unfold get at h
  split at h
  · cases h
  · next entry he =>
    split at h
    · cases h
    · next hexp =>
      exact ⟨entry, OrderedDict.get?_eq_some.1 he, Option.some_inj.1 h, by simpa using hexp⟩

theorem not_holds_of_get_none {b : MemoryBackend K V} {key : K} {now : ℚ}
    (h : (b.get key now).1 = none) (v : V) : ¬ b.Holds now key v := by
  rintro ⟨entry, hmem, -, hlive⟩
  rw [get, OrderedDict.get?_eq_some.2 hmem] at h
  simp [hlive] at h

theorem holds_of_holds_get {b : MemoryBackend K V} {key : K} {now : ℚ} {k : K} {v : V}
    (h : (b.get key now).2.Holds now k v) : b.Holds now k v := by
  unfold get at h
  split at h
  · exact h
  · split at h
    · exact h.of_subset fun _ hp => (OrderedDict.mem_delItem.1 hp).1
    · exact h.of_subset fun _ hp => OrderedDict.mem_moveToEnd.1 hp

/-- Setting a key adds at most the value it is set to. -/
theorem holds_of_setItem {b : MemoryBackend K V} {store : OrderedDict K (CacheEntry V)}
    (hsub : ∀ p ∈ store.items, p ∈ b.store.items) {key : K} {value : V} {now : ℚ} {k : K} {v : V}
    (h : Holds { b with store := store.setItem key ⟨value, now⟩ } now k v) :
    b.Holds now k v ∨ k = key ∧ v = value := by
  obtain ⟨entry, hmem, hval, hexp⟩ := h
  rcases OrderedDict.mem_setItem.1 hmem with ⟨-, hmem⟩ | ⟨rfl, rfl⟩
  · exact .inl ⟨entry, hsub _ hmem, hval, hexp⟩
  · exact .inr ⟨rfl, hval.symm⟩

theorem holds_of_holds_put {b : MemoryBackend K V} {key : K} {value : V} {now : ℚ} {k : K} {v : V}
    (h : (b.put key value now).2.Holds now k v) : b.Holds now k v ∨ k = key ∧ v = value := by
  unfold put at h
  split at h
  · exact holds_of_setItem (fun _ hp => OrderedDict.mem_moveToEnd.1 hp) h
  · split at h
    · obtain ⟨entry, hmem, -⟩ := h
      cases hmem
    · next store hpop => exact holds_of_setItem (fun _ hp => OrderedDict.mem_popWhile hpop hp) h

/-- A backend with room for one entry accepts every entry. -/
theorem put_fst {b : MemoryBackend K V} (hb : 1 ≤ b.maxSize) (key : K) (value : V) (now : ℚ) :
    (b.put key value now).1 = some () := by
  have hpop : (b.store.popWhile fun size => decide (b.maxSize ≤ size)).isSome = true :=
    b.store.popWhile_isSome (decide_eq_false (by push_cast; omega))
  unfold put
  split
  · rfl
  · split
    · next hn => rw [hn] at hpop; cases hpop
    · rfl

theorem not_holds_delete {b : MemoryBackend K V} {key : K} {now : ℚ} (v : V) :
    ¬ (b.delete key).2.Holds now key v := by
  rintro ⟨entry, hmem, -⟩
  unfold delete at hmem
  split at hmem
  · exact (OrderedDict.mem_delItem.1 hmem).2 rfl
  · next hn =>
    rw [OrderedDict.get?_eq_some.2 hmem] at hn
    exact hn rfl

theorem holds_of_holds_delete {b : MemoryBackend K V} {key : K} {now : ℚ} {k : K} {v : V}
    (h : (b.delete key).2.Holds now k v) : b.Holds now k v := by
  unfold delete at h
  split at h
  · exact h.of_subset fun _ hp => (OrderedDict.mem_delItem.1 hp).1
  · exact h

omit [DecidableEq K] in
theorem not_holds_clear {b : MemoryBackend K V} {now : ℚ} (k : K) (v : V) :
    ¬ b.clear.Holds now k v := by
  rintro ⟨entry, hmem, -⟩
  cases hmem

end MemoryBackend

/-! ### The backend of a cache -/

variable {K : Type u} {V : Type v} {Exc : Type w} [DecidableEq K]

/-- `MemoryBackend` as a backend: its state comes with the present time, which moves forward
between the operations.  The asynchronous methods do what the others do. -/
def memoryBackend (K : Type u) (V : Type v) (keyError : Exc) [DecidableEq K] :
    CacheBackend K V Exc (MemoryBackend K V × ℚ) {d : ℚ // 0 ≤ d} where
  get := fun (b, now) key => (.ok (b.get key now).1, (b.get key now).2, now)
  put := fun (b, now) key value _ =>
    ((b.put key value now).1.elim (.error keyError) .ok, (b.put key value now).2, now)
  delete := fun (b, now) key => (.ok (b.delete key).1, (b.delete key).2, now)
  clear := fun (b, now) => (.ok (), b.clear, now)
  aget := fun (b, now) key => (.ok (b.get key now).1, (b.get key now).2, now)
  aput := fun (b, now) key value _ =>
    ((b.put key value now).1.elim (.error keyError) .ok, (b.put key value now).2, now)
  drift := fun d (b, now) => (b, now + d)

/-- The live entries at the present time. -/
def MemoryBackend.HoldsNow (b : MemoryBackend K V × ℚ) (k : K) (v : V) : Prop :=
  b.1.Holds b.2 k v

/-- **The backend in memory is lawful.** -/
theorem memoryBackend_lawful (keyError : Exc) :
    LawfulBackend (memoryBackend K V keyError) MemoryBackend.HoldsNow := by
  have hget : LawfulLookup (memoryBackend K V keyError).get MemoryBackend.HoldsNow := by
    refine ⟨?_, ?_, ?_⟩
    · intro b k v h
      exact MemoryBackend.holds_of_get_some (Except.ok.inj h)
    · intro b k h v
      exact MemoryBackend.not_holds_of_get_none (Except.ok.inj h) v
    · intro b k l w h
      exact MemoryBackend.holds_of_holds_get h
  have hput : ∀ b k v ttl l w,
      MemoryBackend.HoldsNow ((memoryBackend K V keyError).put b k v ttl).2 l w →
        MemoryBackend.HoldsNow b l w ∨ l = k ∧ w = v := by
    intro b k v ttl l w h
    exact MemoryBackend.holds_of_holds_put h
  refine ⟨hget, hget, hput, hput, ?_, ?_, ?_, ?_, ?_⟩
  · intro b k r _ w
    exact MemoryBackend.not_holds_delete w
  · intro b k l w h
    exact MemoryBackend.holds_of_holds_delete h
  · intro b _ l w
    exact MemoryBackend.not_holds_clear l w
  · intro b l w h
    exact absurd h (MemoryBackend.not_holds_clear l w)
  · rintro ⟨d, hd⟩ ⟨b, now⟩ l w ⟨entry, hmem, hval, hlive⟩
    exact ⟨entry, hmem, hval, MemoryBackend.isExpired_of_le (le_add_of_nonneg_right hd) hlive⟩

end Caching
