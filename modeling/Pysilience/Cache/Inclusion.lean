/-
A larger cache stores what a smaller one stores.

Two caches of their own `MemoryBackend`s, without a time-to-live, are given the same calls, one
after the other.  Soon they are in different states: a call can find its key in one cache and not in
the other, and then the function is invoked for the latter only, and may fail.  All the same the
keys of the smaller cache are keys of the larger one after every call.

Between two calls no key is reserved, so what a call does to a cache is a request in the sense of
`Lru.Request`, and the relation `Lru.Included` carries the result.

Main definitions:

* `Caching.CacheCall.request` — what a call asks of the store;
* `Caching.Idle` — a cache between two calls;
* `Caching.pairedCalls` — the runs of two caches that are given the same calls.

Main results:

* `Caching.Idle.respond` — **every call comes to an end and is a request**;
* `Caching.sequential_of_paired` — the run of two caches is a sequential run of each;
* `Caching.lru_inclusion` — **the keys and the hits of the smaller cache are those of the larger**.
-/

import Pysilience.Cache.Sequential
import Pysilience.Cache.Expiry
import Pysilience.Lib.LruInclusion

set_option relaxedAutoImplicit false
set_option autoImplicit false

namespace Caching

open Python Transition Collections

universe u v w z

variable {K : Type u} {V : Type v} {Exc : Type w} [DecidableEq K]

/-! ### The keys of a backend without a time-to-live -/

namespace MemoryBackend

variable {b : MemoryBackend K V} {key : K} {n : ℕ}

/-- A key that is there is found, and used. -/
theorem get_of_mem (httl : b.ttl = none) (h : key ∈ b.store.keys) (now : ℚ) :
    (∃ value, (b.get key now).1 = some value) ∧
      (b.get key now).2 = { b with store := b.store.moveToEnd key } := by
  obtain ⟨entry, hentry⟩ := OrderedDict.mem_keys.1 h
  have hlive : b.isExpired entry now = false := by
    rw [isExpired, httl]
  simp [get, hentry, hlive]

/-- A key that is not there is not found. -/
theorem get_of_not_mem (h : key ∉ b.store.keys) (now : ℚ) : b.get key now = (none, b) := by
  rw [get, OrderedDict.get?_eq_none_of_not_mem_keys h]

/-- A new key is admitted. -/
theorem put_of_not_mem (hn : 1 ≤ n) (hsize : b.maxSize = n) (hfits : b.store.keys.length ≤ n)
    (h : key ∉ b.store.keys) (value : V) (now : ℚ) :
    ∃ store, b.put key value now = (some (), { b with store := store }) ∧
      store.keys = Lru.enter n key b.store.keys := by
  have hlength : b.store.keys.length = b.store.items.length := List.length_map ..
  obtain ⟨store, hpop, hcases⟩ := popWhile_cases (b := b) (by omega) (by omega)
  have hkeys : store.keys =
      if b.store.keys.length < n then b.store.keys else b.store.keys.tail := by
    rcases hcases with ⟨hroom, hsame⟩ | ⟨oldest, hfull, hcons⟩
    · rw [if_pos (by omega), OrderedDict.keys, hsame, OrderedDict.keys]
    · rw [if_neg (by omega)]
      simp only [OrderedDict.keys, hcons, List.map_cons, List.tail_cons]
  have habsent : key ∉ store.keys := by
    rw [hkeys]
    split
    · exact h
    · exact fun hmem => h (List.mem_of_mem_tail hmem)
  refine ⟨store.setItem key ⟨value, now⟩, ?_, ?_⟩
  · rw [put, OrderedDict.get?_eq_none_of_not_mem_keys h, hpop]
    rfl
  · rw [OrderedDict.keys_setItem_of_not_mem habsent, hkeys, Lru.enter]

theorem delete_keys (b : MemoryBackend K V) (key : K) :
    ∃ store, (b.delete key).2 = { b with store := store } ∧
      store.keys = b.store.keys.filter (· ≠ key) := by
  unfold delete
  split
  · exact ⟨_, rfl, b.store.keys_delItem key⟩
  · next hnone =>
    refine ⟨b.store, rfl, (List.filter_eq_self.2 fun k hk => decide_eq_true ?_).symm⟩
    rintro rfl
    obtain ⟨entry, hentry⟩ := OrderedDict.mem_keys.1 hk
    rw [hentry] at hnone
    exact hnone rfl

end MemoryBackend

/-! ### A call is a request -/

/-- What a call asks of the store. -/
def CacheCall.request : CacheCall K V Exc → Lru.Request K
  | .execute key func => .access key func.toBool
  | .invalidate key => .remove key
  | .invalidateAll => .clear

/-- The keys that a cache in memory stores, the least recently used first. -/
def CacheState.keys (cs : CacheState K (MemoryBackend K V × ℚ)) : List K :=
  cs.backend.1.store.keys

/-- A cache in memory between two calls, with room for `n` keys and without a time-to-live: no key
is reserved. -/
structure Idle (n : ℕ) (cs : CacheState K (MemoryBackend K V × ℚ)) : Prop where
  inflight : cs.inflight = ∅
  maxSize : cs.backend.1.maxSize = n
  ttl : cs.backend.1.ttl = none
  fits : cs.keys.length ≤ n

variable {Cls : Type z} [Exceptions Exc Cls]

/-- The outcome of the function, where the call has one, is a value or an `Exception`. -/
def CacheCall.Ordinary : CacheCall K V Exc → Prop
  | .execute _ (.error exc) => caught exc = true
  | _ => True

instance : (call : CacheCall K V Exc) → Decidable call.Ordinary
  | .execute _ (.error exc) => inferInstanceAs (Decidable (caught exc = true))
  | .execute _ (.ok _) => .isTrue trivial
  | .invalidate _ => .isTrue trivial
  | .invalidateAll => .isTrue trivial

namespace Idle

variable (config : CacheConfig) (keyError : Exc)
  {n : ℕ} {cs : CacheState K (MemoryBackend K V × ℚ)}

theorem drift (h : Idle n cs) (d : {d : ℚ // 0 ≤ d}) :
    Idle n ((Cache.onMemory V config keyError).drift d cs) :=
  ⟨h.inflight, h.maxSize, h.ttl, h.fits⟩

/-- A key that is there. -/
theorem execute_of_mem (h : Idle n cs) {key : K} (hk : key ∈ cs.keys) (func : Except Exc V)
    (during : {d : ℚ // 0 ≤ d}) :
    ∃ value cs', (Cache.onMemory V config keyError).execute cs key func during =
      some (.ok (value, true), cs') ∧ Idle n cs' ∧ cs'.keys = Lru.touch key cs.keys := by
  obtain ⟨⟨value, hvalue⟩, hstate⟩ := MemoryBackend.get_of_mem h.ttl hk cs.backend.2
  have hkeys : (cs.backend.1.store.moveToEnd key).keys = Lru.touch key cs.keys :=
    OrderedDict.keys_moveToEnd hk
  refine ⟨value, { cs with
    backend := ({ cs.backend.1 with store := cs.backend.1.store.moveToEnd key }, cs.backend.2) },
    ?_, ⟨h.inflight, h.maxSize, h.ttl, ?_⟩, hkeys⟩
  · simp [Cache.execute, Cache.syncCheckOrReserve, Cache.onMemory, memoryBackend, hvalue, hstate]
  · change (cs.backend.1.store.moveToEnd key).keys.length ≤ n
    rw [hkeys]
    exact (Lru.touch_length cs.backend.1.store.nodup hk).trans_le h.fits

/-- A key that is not there, and a function that fails. -/
theorem execute_of_error (h : Idle n cs) {key : K} (hk : key ∉ cs.keys) {exc : Exc}
    (hexc : caught exc = true) (during : {d : ℚ // 0 ≤ d}) :
    ∃ cs', (Cache.onMemory V config keyError).execute cs key (.error exc) during =
      some (.error exc, cs') ∧ Idle n cs' ∧ cs'.keys = cs.keys := by
  have hmiss := MemoryBackend.get_of_not_mem hk cs.backend.2
  refine ⟨{ cs with backend := (cs.backend.1, cs.backend.2 + during), inflight := ∅ }, ?_,
    ⟨rfl, h.maxSize, h.ttl, h.fits⟩, rfl⟩
  simp [Cache.execute, Cache.syncCheckOrReserve, Cache.drift, Cache.onMemory, memoryBackend, hmiss,
    h.inflight, hexc, CacheState.syncUnreserve]

/-- A key that is not there, and a function that returns. -/
theorem execute_of_ok (hn : 1 ≤ n) (h : Idle n cs) {key : K} (hk : key ∉ cs.keys) (value : V)
    (during : {d : ℚ // 0 ≤ d}) :
    ∃ cs', (Cache.onMemory V config keyError).execute cs key (.ok value) during =
      some (.ok (value, false), cs') ∧ Idle n cs' ∧ cs'.keys = Lru.enter n key cs.keys := by
  have hmiss := MemoryBackend.get_of_not_mem hk cs.backend.2
  obtain ⟨store, hput, hkeys⟩ := MemoryBackend.put_of_not_mem hn h.maxSize h.fits hk value
    (cs.backend.2 + during)
  refine ⟨{ cs with
    backend := ({ cs.backend.1 with store := store }, cs.backend.2 + during), inflight := ∅ }, ?_,
    ⟨rfl, h.maxSize, h.ttl, ?_⟩, hkeys⟩
  · simp [Cache.execute, Cache.syncCheckOrReserve, Cache.syncStoreAndUnreserve, Cache.drift,
      Cache.onMemory, memoryBackend, hmiss, h.inflight, hput, CacheState.syncUnreserve]
  · change store.keys.length ≤ n
    rw [hkeys]
    exact Lru.enter_fits hn key h.fits

/-- `execute` is a request, and finds its key where it is there. -/
theorem execute (hn : 1 ≤ n) (h : Idle n cs) (key : K) {func : Except Exc V}
    (hfunc : (CacheCall.execute key func).Ordinary) (during : {d : ℚ // 0 ≤ d}) :
    ∃ result cs', (Cache.onMemory V config keyError).execute cs key func during =
        some (result, cs') ∧ Idle n cs' ∧
      cs'.keys = (Lru.Request.access key func.toBool).apply n cs.keys ∧
      ((Response.executed result).isHit = true ↔ key ∈ cs.keys) := by
  simp only [Lru.Request.apply]
  by_cases hk : key ∈ cs.keys
  · obtain ⟨value, cs', hexec, hidle, hkeys⟩ :=
      execute_of_mem config keyError h hk func during
    rw [if_pos hk]
    exact ⟨_, cs', hexec, hidle, hkeys, by simp [Response.isHit, hk]⟩
  · rw [if_neg hk]
    cases func with
    | error exc =>
        obtain ⟨cs', hexec, hidle, hkeys⟩ :=
          execute_of_error config keyError h hk hfunc during
        exact ⟨_, cs', hexec, hidle, hkeys, by simp [Response.isHit, hk]⟩
    | ok value =>
        obtain ⟨cs', hexec, hidle, hkeys⟩ :=
          execute_of_ok config keyError hn h hk value during
        exact ⟨_, cs', hexec, hidle, hkeys, by simp [Response.isHit, hk]⟩

/-- **Every call comes to an end and is a request**; it is a hit where it asks for a key that is
there. -/
theorem respond (hn : 1 ≤ n) (h : Idle n cs) {call : CacheCall K V Exc} (hcall : call.Ordinary)
    (timing : Timing {d : ℚ // 0 ≤ d}) :
    ∃ response cs', (Cache.onMemory V config keyError).respond cs timing call =
        some (response, cs') ∧ Idle n cs' ∧ cs'.keys = call.request.apply n cs.keys ∧
      (response.isHit = true ↔ ∃ key func, call = .execute key func ∧ key ∈ cs.keys) := by
  have hdrift := drift config keyError h timing.before
  cases call with
  | execute key func =>
      obtain ⟨result, cs', hexec, hidle, hkeys, hhit⟩ :=
        execute config keyError hn hdrift key hcall timing.during
      refine ⟨.executed result, cs', ?_, hidle, hkeys,
        hhit.trans ⟨fun hk => ⟨key, func, rfl, hk⟩, ?_⟩⟩
      · rw [Cache.respond, hexec, Option.map_some]
      · rintro ⟨l, g, heq, hl⟩
        cases heq
        exact hl
  | invalidate key =>
      obtain ⟨store, hdelete, hkeys⟩ := cs.backend.1.delete_keys key
      refine ⟨_, _, rfl, ⟨h.inflight, ?_, ?_, ?_⟩, ?_, by simp [Response.isHit]⟩
      · change (cs.backend.1.delete key).2.maxSize = n
        rw [hdelete]
        exact h.maxSize
      · change (cs.backend.1.delete key).2.ttl = none
        rw [hdelete]
        exact h.ttl
      · change (cs.backend.1.delete key).2.store.keys.length ≤ n
        rw [hdelete]
        exact hkeys ▸ (List.length_filter_le _ _).trans h.fits
      · change (cs.backend.1.delete key).2.store.keys = _
        rw [hdelete]
        exact hkeys
  | invalidateAll =>
      exact ⟨_, _, rfl, ⟨h.inflight, h.maxSize, h.ttl, Nat.zero_le n⟩, rfl,
        by simp [Response.isHit]⟩

end Idle

/-! ### Two caches -/

/-- A call of two caches, with the time that passes at each of them. -/
abbrev PairedCall (K : Type u) (V : Type v) (Exc : Type w) :=
  CacheCall K V Exc × Timing {d : ℚ // 0 ≤ d} × Timing {d : ℚ // 0 ≤ d}

/-- Two caches in memory and their responses. -/
abbrev Paired (K : Type u) (V : Type v) (Exc : Type w) :=
  Sequential K V Exc (MemoryBackend K V × ℚ) × Sequential K V Exc (MemoryBackend K V × ℚ)

/-- The runs of two caches with these configurations that create their own backends, at the given
instants, and are given the same calls. -/
def pairedCalls (K : Type u) (V : Type v) [DecidableEq K] (small large : CacheConfig)
    (keyError : Exc) (start : ℚ × ℚ) : Machine (Paired K V Exc) (PairedCall K V Exc) where
  init := (⟨.init (small.createBackend, start.1), []⟩, ⟨.init (large.createBackend, start.2), []⟩)
  step s a := do
    let first ← s.1.step (Cache.onMemory V small keyError) (a.1, a.2.1)
    let second ← s.2.step (Cache.onMemory V large keyError) (a.1, a.2.2)
    return (first, second)

/-- The outcomes of the functions are values and `Exception`s. -/
def PairedCall.Ordinary (_ : Paired K V Exc) (a : PairedCall K V Exc) : Prop := a.1.Ordinary

/-- Each of the caches makes a sequential run, and so gets into no states but those of `callers`. -/
theorem sequential_of_paired {small large : CacheConfig} {keyError : Exc} {start : ℚ × ℚ}
    {ok : Paired K V Exc → PairedCall K V Exc → Prop} {calls : List (PairedCall K V Exc)}
    {s : Paired K V Exc} (hr : (pairedCalls K V small large keyError start).Run ok calls s) :
    (sequentialCalls (Cache.onMemory V small keyError) (small.createBackend, start.1)).Run
        Machine.anything (calls.map fun a => (a.1, a.2.1)) s.1 ∧
      (sequentialCalls (Cache.onMemory V large keyError) (large.createBackend, start.2)).Run
        Machine.anything (calls.map fun a => (a.1, a.2.2)) s.2 := by
  induction hr with
  | nil => exact ⟨.nil, .nil⟩
  | snoc _ _ hstep ih =>
      obtain ⟨first, hfirst, hrest⟩ := Option.bind_eq_some_iff.1 hstep
      obtain ⟨second, hsecond, heq⟩ := Option.bind_eq_some_iff.1 hrest
      obtain rfl := Option.some_inj.1 heq
      rw [List.map_append, List.map_append]
      exact ⟨ih.1.snoc trivial hfirst, ih.2.snoc trivial hsecond⟩

/-- What holds of the two caches between two calls. -/
structure PairedInv (n m : ℕ) (s : Paired K V Exc) : Prop where
  small : Idle n s.1.state
  large : Idle m s.2.state
  included : Lru.Included n m s.1.state.keys s.2.state.keys
  hits : List.Forall₂ (fun r r' => r.isHit = true → r'.isHit = true) s.1.log s.2.log

variable {n m : ℕ} {small large : CacheConfig} {keyError : Exc} {start : ℚ × ℚ} {s : Paired K V Exc}

/-- Every call is possible, and keeps the invariant. -/
theorem PairedInv.step (hn : 1 ≤ n) (h : PairedInv n m s) {a : PairedCall K V Exc}
    (ha : a.1.Ordinary) :
    ∃ s', (pairedCalls K V small large keyError start).step s a = some s' ∧ PairedInv n m s' := by
  obtain ⟨r, cs, hrespond, hidle, hkeys, hhit⟩ :=
    Idle.respond small keyError hn h.small ha a.2.1
  obtain ⟨r', cs', hrespond', hidle', hkeys', hhit'⟩ :=
    Idle.respond large keyError (hn.trans h.included.le) h.large ha a.2.2
  refine ⟨(⟨cs, r :: s.1.log⟩, ⟨cs', r' :: s.2.log⟩), ?_, hidle, hidle', ?_, .cons ?_ h.hits⟩
  · simp only [pairedCalls, Sequential.step, hrespond, hrespond', Option.map_some]
    rfl
  · change Lru.Included n m cs.keys cs'.keys
    rw [hkeys, hkeys']
    exact h.included.apply hn a.1.request
  · intro hr
    obtain ⟨key, func, heq, hk⟩ := hhit.1 hr
    exact hhit'.2 ⟨key, func, heq, h.included.mem hk⟩

/-- The invariant of every run. -/
theorem PairedInv.of_run (hn : 1 ≤ n) (hle : n ≤ m) (hsmall : small.ttl = none)
    (hlarge : large.ttl = none) (hsize : small.maxSize = n) (hsize' : large.maxSize = m)
    {calls : List (PairedCall K V Exc)}
    (hr : (pairedCalls K V small large keyError start).Run PairedCall.Ordinary calls s) :
    PairedInv n m s := by
  refine hr.invariant ⟨⟨rfl, hsize, hsmall, Nat.zero_le n⟩, ⟨rfl, hsize', hlarge, Nat.zero_le m⟩,
    Lru.Included.empty hle, .nil⟩ ?_
  intro _ s a s' _ hinv ha hstep
  obtain ⟨t, ht, hinv'⟩ := hinv.step hn ha
  obtain rfl := Option.some_inj.1 (hstep.symm.trans ht)
  exact hinv'

/-- An accepted configuration has room for a key. -/
theorem CacheConfig.one_le_maxSize (config : CacheConfig) : 1 ≤ config.maxSize := by
  have haccepted := config.accepted
  rw [ConfigFields.postInit, checks_eq_ok] at haccepted
  simp only [List.forall_mem_cons, decide_eq_false_iff_not, not_lt] at haccepted
  exact haccepted.1

/-- **The keys and the hits of the smaller cache are keys and hits of the larger one**, after any
sequence of calls whose functions return or raise an `Exception`; and every call comes to an end. -/
theorem lru_inclusion (small large : CacheConfig) (hsmall : small.ttl = none)
    (hlarge : large.ttl = none) (hle : small.maxSize ≤ large.maxSize) (keyError : Exc)
    (start : ℚ × ℚ) (calls : List (PairedCall K V Exc)) (s : Paired K V Exc)
    (hr : (pairedCalls K V small large keyError start).Run PairedCall.Ordinary calls s) :
    (∀ k ∈ s.1.state.keys, k ∈ s.2.state.keys) ∧
      List.Forall₂ (fun r r' => r.isHit = true → r'.isHit = true) s.1.log s.2.log ∧
      ∀ a : PairedCall K V Exc, a.1.Ordinary →
        ∃ s', (pairedCalls K V small large keyError start).step s a = some s' := by
  have hone := small.one_le_maxSize
  have hinv : PairedInv small.maxSize.toNat large.maxSize.toNat s :=
    .of_run (by omega) (by omega) hsmall hlarge (by omega) (by omega) hr
  refine ⟨fun k => hinv.included.mem, hinv.hits, fun a ha => ?_⟩
  obtain ⟨s', hs', -⟩ := hinv.step (by omega) ha
  exact ⟨s', hs'⟩

/-- Room for one key and for two: the function of the third call is invoked, and fails, for the
smaller cache only. -/
theorem lru_inclusion_of_failure : ∃ s : Paired ℕ ℕ Builtin,
    s.1.state.keys = [2] ∧ s.2.state.keys = [2, 1] ∧ (∀ k ∈ s.1.state.keys, k ∈ s.2.state.keys) ∧
      List.Forall₂ (fun r r' => r.isHit = true → r'.isHit = true) s.1.log s.2.log := by
  let timing : Timing {d : ℚ // 0 ≤ d} := ⟨⟨1, by decide +kernel⟩, ⟨1 / 2, by decide +kernel⟩⟩
  let small : CacheConfig := ⟨⟨1, none⟩, by decide +kernel⟩
  let large : CacheConfig := ⟨⟨2, none⟩, by decide +kernel⟩
  obtain ⟨s, hr, hs⟩ := Machine.exists_run_of_exec
    (pairedCalls ℕ ℕ small large Builtin.keyError (0, 0))
    (fun _ a => decide a.1.Ordinary) (fun _ _ ha => of_decide_eq_true ha)
    [(.execute 1 (.ok 10), timing, timing), (.execute 2 (.ok 20), timing, timing),
      (.execute 1 (.error .valueError), timing, timing)]
    (fun s => decide (s.1.state.keys = [2] ∧ s.2.state.keys = [2, 1])) (by decide +kernel)
  obtain ⟨hkeys, hkeys'⟩ := of_decide_eq_true hs
  obtain ⟨hincl, hhits, -⟩ := lru_inclusion small large rfl rfl (by decide) Builtin.keyError (0, 0)
    _ s hr
  exact ⟨s, hkeys, hkeys', hincl, hhits⟩

end Caching
