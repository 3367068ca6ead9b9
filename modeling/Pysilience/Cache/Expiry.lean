/-
The time-to-live of a cache on a `MemoryBackend`.

`CacheConfig.ttl` travels along two routes.  Where the cache creates its backend, it is the argument
`ttl` of the backend's constructor; and on every path it is the argument `ttl` of `put`.  A
`MemoryBackend` decides whether an entry has expired by the former alone and never looks at the
latter.  So a backend that was created by somebody else serves entries for as long as its own
argument says, whatever the configuration of the cache: for ever, by default.

The machine `timedCallers` is `callers` together with a record of what was handed to the backend,
and when.

Main definitions:

* `Caching.Cache.onMemory` — a cache on a `MemoryBackend`;
* `Caching.TimedSystem`, `Caching.timedCallers` — the callers, with the instants of the stores;
* `Caching.HonoursTtl` — no call ever returns a value from the cache that was stored `ttl` seconds
  ago or earlier.

Main results:

* `Caching.KeptByBackend.reachable` — what every operation of the backend keeps holds in every run;
* `Caching.dated_kept` — an entry carries the value and the instant of the latest store of its key;
* `Caching.ttl_honoured_iff` — **the configured time-to-live is honoured exactly where the backend
  stores nothing or has a time-to-live of its own that is no longer**;
* `Caching.not_ttl_honoured` — a default backend under a cache with a time-to-live.
-/

import Pysilience.Cache.Coalescing
import Pysilience.Cache.Eviction
import Mathlib.Tactic.Linarith
import Mathlib.Tactic.NormNum

set_option relaxedAutoImplicit false
set_option autoImplicit false

namespace Caching

open Python Transition Collections

universe u v w z t

variable {T : Type t} {K : Type u} {V : Type v} {Exc : Type w} [DecidableEq K]

/-! ### The callers of a cache in memory -/

/-- A cache with this configuration on a `MemoryBackend`. -/
def Cache.onMemory (V : Type v) (config : CacheConfig) (keyError : Exc) :
    Cache K V Exc (MemoryBackend K V × ℚ) {d : ℚ // 0 ≤ d} where
  config := config
  ops := memoryBackend K V keyError
  isMemory := true

/-- The backend that the cache creates when it is given none. -/
def CacheConfig.createBackend (config : CacheConfig) : MemoryBackend K V :=
  MemoryBackend.init config.maxSize config.ttl

/-- The values handed to the backend, with their keys and instants, the latest first. -/
abbrev Stores (K : Type u) (V : Type v) := List (K × V × ℚ)

/-- The value that was last handed to the backend for a key, and when. -/
def latestStore (stores : Stores K V) (k : K) : Option (V × ℚ) :=
  (stores.find? (·.1 = k)).map Prod.snd

theorem latestStore_cons (k l : K) (v : V) (now : ℚ) (stores : Stores K V) :
    latestStore ((k, v, now) :: stores) l =
      if k = l then some (v, now) else latestStore stores l := by
  unfold latestStore
  rw [List.find?_cons]
  by_cases hk : k = l
  · simp [hk]
  · simp [hk]

/-- What an entry of the log that was made at the instant `now` hands to the backend. -/
def Entry.store (now : ℚ) : Entry T K V → Option (K × V × ℚ)
  | .call _ key (.stored value) => some (key, value, now)
  | _ => none

/-- The state of `callers` and a record of the stores. -/
structure TimedSystem (T : Type t) (K : Type u) (V : Type v) (Exc : Type w) where
  system : System T K V Exc (MemoryBackend K V × ℚ)
  stores : Stores K V

variable [DecidableEq T] {Cls : Type z} [Exceptions Exc Cls]

/-- A step of `callers`; the stores it notes are dated by the present time. -/
def TimedSystem.step (cache : Cache K V Exc (MemoryBackend K V × ℚ) {d : ℚ // 0 ≤ d})
    (s : TimedSystem T K V Exc) (a : Action T K V Exc {d : ℚ // 0 ≤ d}) :
    Option (TimedSystem T K V Exc) :=
  (s.system.step cache a).map fun system =>
    ⟨system, ((system.log.drop s.system.log.length).filterMap
      (Entry.store system.state.backend.2)).reverse ++ s.stores⟩

/-- `callers` on a backend in memory, from the instant `start`. -/
def timedCallers (T : Type t) [DecidableEq T]
    (cache : Cache K V Exc (MemoryBackend K V × ℚ) {d : ℚ // 0 ≤ d}) (backend : MemoryBackend K V)
    (start : ℚ) : Machine (TimedSystem T K V Exc) (Action T K V Exc {d : ℚ // 0 ≤ d}) where
  init := ⟨System.init (backend, start), []⟩
  step := TimedSystem.step cache

/-- In every run of the cache, a call that returns without having invoked its function returns the
value that was last stored for its key, and that was less than `ttl` seconds ago. -/
def HonoursTtl (T : Type t) [DecidableEq T]
    (cache : Cache K V Exc (MemoryBackend K V × ℚ) {d : ℚ // 0 ≤ d}) (backend : MemoryBackend K V)
    (ttl : ℚ) : Prop :=
  ∀ start s, (timedCallers T cache backend start).Reachable s → ∀ a s', s.step cache a = some s' →
    ∀ caller c d v, System.Ends s.system s'.system caller c → s'.system.calls caller = some d →
      d.phase = .returned v true →
      ∃ storedAt, latestStore s.stores c.key = some (v, storedAt) ∧
        s.system.state.backend.2 - storedAt < ttl

/-! ### Invariants of the backend -/

/-- A property of the stores so far and of the backend that every operation of the backend keeps. -/
structure KeptByBackend (I : Stores K V → MemoryBackend K V → Prop) : Prop where
  get : ∀ stores b, I stores b → ∀ key now, I stores (b.get key now).2
  put : ∀ stores b, I stores b → ∀ key value now,
    I ((key, value, now) :: stores) (b.put key value now).2
  delete : ∀ stores b, I stores b → ∀ key, I stores (b.delete key).2
  clear : ∀ stores b, I stores b → I stores b.clear

/-- What the note of a call with the key `key` hands to the backend at the instant `now`. -/
def Note.store (key : K) (now : ℚ) : Note V → Option (K × V × ℚ)
  | .stored value => some (key, value, now)
  | .invoked => none

variable {config : CacheConfig} {keyError : Exc} {I : Stores K V → MemoryBackend K V → Prop}

omit [DecidableEq T] in
/-- A step of a call keeps the clock, and what every operation of the backend keeps. -/
theorem KeptByBackend.advance (hk : KeptByBackend I)
    {cs : CacheState K (MemoryBackend K V × ℚ)} {key : K} {ph : Phase V Exc}
    {ev : CallEvent V Exc} {m : Moved K V Exc (MemoryBackend K V × ℚ)}
    (h : (Cache.onMemory V config keyError).AdvanceCase cs key ph ev m) {stores : Stores K V}
    (hi : I stores cs.backend.1) :
    m.state.backend.2 = cs.backend.2 ∧
      I ((m.notes.filterMap (Note.store key cs.backend.2)).reverse ++ stores)
        m.state.backend.1 := by
  have hget : ∀ {r b}, (Cache.onMemory V config keyError).ops.get cs.backend key = (r, b) →
      b.2 = cs.backend.2 ∧ I stores b.1 := by
    intro r b hg
    obtain ⟨-, rfl⟩ := Prod.mk.inj hg
    exact ⟨rfl, hk.get _ _ hi key cs.backend.2⟩
  have hput : ∀ {v r b}, (Cache.onMemory V config keyError).ops.put cs.backend key v config.ttl =
      (r, b) → b.2 = cs.backend.2 ∧ I ((key, v, cs.backend.2) :: stores) b.1 := by
    intro v r b hp
    obtain ⟨-, rfl⟩ := Prod.mk.inj hp
    exact ⟨rfl, hk.put _ _ hi key v cs.backend.2⟩
  cases h with
  | hit v b hg | getRaises e b hg | reserve b hg | wait b hg => exact hget hg
  | stored v b hp | putRaises v e b hp | asyncPutRaises v e b hp => exact hput hp
  | asyncStored v b hp =>
      rw [CacheState.asyncUnreserve_backend]
      exact hput hp
  | asyncHit ph v b hl | asyncGetRaises ph e b hl | asyncReserve ph b hl
  | asyncWait ph b event hl =>
      cases hl with
      | first _ _ hg | again _ _ _ _ _ hg => exact hget hg
      | gotten => exact ⟨rfl, hi⟩
  | aget r b hg => exact hget hg
  | aput v r b hp => exact hput hp
  | asyncFailed | putDone =>
      rw [CacheState.asyncUnreserve_backend]
      exact ⟨rfl, hi⟩
  | finish | failed | escaped | unreserved | retry | asyncFinish | asyncEscaped | putFailed
  | cancelled | putCancelled => exact ⟨rfl, hi⟩

/-- Every step keeps what every operation of the backend keeps. -/
theorem KeptByBackend.step (hk : KeptByBackend I) {s s' : TimedSystem T K V Exc}
    {a : Action T K V Exc {d : ℚ // 0 ≤ d}} (hi : I s.stores s.system.state.backend.1)
    (h : s.step (Cache.onMemory V config keyError) a = some s') :
    I s'.stores s'.system.state.backend.1 := by
  obtain ⟨system, hstep, rfl⟩ := Option.map_eq_some_iff.1 h
  -- a step that hands nothing to the backend
  have hsilent : ∀ {entries : List (Entry T K V)}, system.log = s.system.log ++ entries →
      (∀ e ∈ entries, e.store system.state.backend.2 = none) →
      I s.stores system.state.backend.1 →
      I (((system.log.drop s.system.log.length).filterMap
        (Entry.store system.state.backend.2)).reverse ++ s.stores) system.state.backend.1 := by
    intro entries hlog hnone hdated
    rw [hlog, List.drop_left, List.filterMap_eq_nil_iff.2 hnone]
    exact hdated
  have hinvalidated : ∀ {R : Type} (key : Option K) (result : Except Exc R) (now : ℚ),
      ∀ e ∈ (invalidationEntries key result : List (Entry T K V)), e.store now = none := by
    intro R key result now e he
    cases result with
    | error exc => cases he
    | ok r =>
        obtain rfl := List.mem_singleton.1 he
        rfl
  cases System.step_cases hstep with
  | execute caller key hnew => exact hsilent (List.append_nil _).symm (by simp) hi
  | executeAsync caller key hnew => exact hsilent (List.append_nil _).symm (by simp) hi
  | advance caller event c m hc hm =>
      obtain ⟨hclock, hkept⟩ := hk.advance (Cache.advance_cases hm) hi
      have hnote : Entry.store m.state.backend.2 ∘ Entry.call caller c.key =
          (Note.store c.key s.system.state.backend.2 : Note V → _) := by
        funext note
        rw [hclock]
        cases note <;> rfl
      change I (((s.system.log ++ m.notes.map (Entry.call caller c.key)).drop
        s.system.log.length |>.filterMap (Entry.store m.state.backend.2)).reverse ++ s.stores)
        m.state.backend.1
      rw [List.drop_left, List.filterMap_map, hnote]
      exact hkept
  | invalidate key => exact hsilent rfl (hinvalidated _ _ _) (hk.delete _ _ hi key)
  | invalidateAll => exact hsilent rfl (hinvalidated _ _ _) (hk.clear _ _ hi)
  | drift d => exact hsilent rfl (by simp) hi

/-- **What every operation of the backend keeps holds in every run.** -/
theorem KeptByBackend.reachable (hk : KeptByBackend I) {backend : MemoryBackend K V} {start : ℚ}
    (h0 : I [] backend) {s : TimedSystem T K V Exc}
    (hr : (timedCallers T (Cache.onMemory V config keyError) backend start).Reachable s) :
    I s.stores s.system.state.backend.1 :=
  hr.invariant (I := fun s => I s.stores s.system.state.backend.1) h0
    fun _ _ _ hi hs => hk.step hi hs

/-- A timed run is a run of the callers. -/
theorem reachable_of_timed {cache : Cache K V Exc (MemoryBackend K V × ℚ) {d : ℚ // 0 ≤ d}}
    {backend : MemoryBackend K V} {start : ℚ} {s : TimedSystem T K V Exc}
    (hr : (timedCallers T cache backend start).Reachable s) :
    (callers T cache (backend, start)).Reachable s.system := by
  refine hr.invariant (I := fun s => (callers T cache (backend, start)).Reachable s.system)
    ⟨[], .nil⟩ ?_
  intro s a s' hs hstep
  obtain ⟨system, hsystem, rfl⟩ := Option.map_eq_some_iff.1 hstep
  exact hs.step hsystem

/-! ### Entries are dated by the latest store of their key -/

/-- Every entry of the backend carries the value and the instant of the latest store of its key. -/
def Dated (stores : Stores K V) (b : MemoryBackend K V) : Prop :=
  ∀ k entry, (k, entry) ∈ b.store.items →
    latestStore stores k = some (entry.value, entry.cachedAt)

theorem dated_kept : KeptByBackend (Dated (K := K) (V := V)) where
  get stores b h key now k entry hmem := by
    refine h k entry ?_
    unfold MemoryBackend.get at hmem
    split at hmem
    · exact hmem
    · split at hmem
      · exact (OrderedDict.mem_delItem.1 hmem).1
      · exact OrderedDict.mem_moveToEnd.1 hmem
  put stores b h key value now := by
    have hset : ∀ store : OrderedDict K (CacheEntry V), (∀ p ∈ store.items, p ∈ b.store.items) →
        Dated ((key, value, now) :: stores) { b with store := store.setItem key ⟨value, now⟩ } := by
      intro store hsub k entry hmem
      rw [latestStore_cons]
      rcases OrderedDict.mem_setItem.1 hmem with ⟨hne, hmem⟩ | ⟨rfl, rfl⟩
      · rw [if_neg (Ne.symm hne)]
        exact h k entry (hsub _ hmem)
      · rw [if_pos rfl]
    unfold MemoryBackend.put
    split
    · exact hset _ fun _ hp => OrderedDict.mem_moveToEnd.1 hp
    · split
      · exact fun k entry hmem => by cases hmem
      · next store hpop => exact hset _ fun _ hp => OrderedDict.mem_popWhile hpop hp
  delete stores b h key k entry hmem := by
    refine h k entry ?_
    unfold MemoryBackend.delete at hmem
    split at hmem
    · exact (OrderedDict.mem_delItem.1 hmem).1
    · exact hmem
  clear stores b h k entry hmem := by cases hmem

/-- The backend keeps its time-to-live, and stores nothing without room for an entry. -/
def Configured (maxSize : ℤ) (ttl : Option ℚ) (b : MemoryBackend K V) : Prop :=
  b.maxSize = maxSize ∧ b.ttl = ttl ∧ (maxSize < 1 → b.store.items = [])

theorem configured_kept (maxSize : ℤ) (ttl : Option ℚ) :
    KeptByBackend fun (_ : Stores K V) (b : MemoryBackend K V) => Configured maxSize ttl b where
  get stores b h key now := by
    obtain ⟨hmax, httl, hempty⟩ := h
    unfold MemoryBackend.get
    split
    · exact ⟨hmax, httl, hempty⟩
    · next entry he =>
      -- an entry was found, so there is room for one
      have hroom : ¬ maxSize < 1 := by
        intro hlt
        have := OrderedDict.get?_eq_some.1 he
        rw [hempty hlt] at this
        cases this
      split <;> exact ⟨hmax, httl, fun hlt => absurd hlt hroom⟩
  put stores b h key value now := by
    obtain ⟨hmax, httl, hempty⟩ := h
    by_cases hlt : maxSize < 1
    · have hget : b.store.get? key = none := by
        refine OrderedDict.get?_eq_none.2 fun p hp => ?_
        rw [hempty hlt] at hp
        cases hp
      unfold MemoryBackend.put
      rw [hget]
      split
      · next hsome => cases hsome
      · split
        · exact ⟨hmax, httl, fun _ => rfl⟩
        · next store hpop =>
          have := OrderedDict.popWhile_items hpop
          rw [hempty hlt, OrderedDict.popItems, if_pos (by
            have : b.maxSize ≤ 0 := by omega
            exact decide_eq_true (by exact_mod_cast this))] at this
          cases this
    · unfold MemoryBackend.put
      split
      · exact ⟨hmax, httl, fun h => absurd h hlt⟩
      · split <;> exact ⟨hmax, httl, fun h => absurd h hlt⟩
  delete stores b h key := by
    obtain ⟨hmax, httl, hempty⟩ := h
    unfold MemoryBackend.delete
    split
    · refine ⟨hmax, httl, fun hlt => ?_⟩
      change b.store.items.filter _ = []
      rw [hempty hlt, List.filter_nil]
    · exact ⟨hmax, httl, hempty⟩
  clear stores b h := ⟨h.1, h.2.1, fun _ => rfl⟩

/-! ### The configured time-to-live -/

/-- Where the backend stores nothing, or has a time-to-live of its own that is no longer than the
configured one, that is honoured. -/
theorem honoursTtl_of_le {maxSize : ℤ} {own : Option ℚ} {ttl : ℚ}
    (h : maxSize < 1 ∨ ∃ u, own = some u ∧ u ≤ ttl) :
    HonoursTtl T (Cache.onMemory V config keyError) (MemoryBackend.init (K := K) maxSize own)
      ttl := by
  intro start s hr a s' hstep caller c d v hends hd hhit
  obtain ⟨system, hsystem, rfl⟩ := Option.map_eq_some_iff.1 hstep
  have hheld := System.hit_holds (memoryBackend_lawful keyError).get
    (System.fitsOk_of_reachable (reachable_of_timed hr)) hsystem hends hd hhit (.inr rfl)
  obtain ⟨entry, hmem, rfl, hlive⟩ := hheld
  obtain ⟨-, httl, hempty⟩ := (configured_kept maxSize own).reachable ⟨rfl, rfl, fun _ => rfl⟩ hr
  refine ⟨entry.cachedAt, dated_kept.reachable (fun k entry hmem => by cases hmem) hr _ _ hmem, ?_⟩
  rcases h with hlt | ⟨u, rfl, hle⟩
  · rw [hempty hlt] at hmem
    cases hmem
  · rw [MemoryBackend.isExpired, httl] at hlive
    exact (not_le.1 (of_decide_eq_false hlive)).trans_le hle

/-- A cache that creates its own backend honours its time-to-live. -/
theorem honoursTtl_createBackend {ttl : ℚ} (httl : config.ttl = some ttl) :
    HonoursTtl T (Cache.onMemory V config keyError) (config.createBackend (K := K)) ttl := by
  refine honoursTtl_of_le (.inr ⟨ttl, ?_, le_rfl⟩)
  exact httl

/-! ### A run in which it is not honoured -/

/-- A step of a call in the timed machine. -/
theorem TimedSystem.step_advance {cache : Cache K V Exc (MemoryBackend K V × ℚ) {d : ℚ // 0 ≤ d}}
    {s : TimedSystem T K V Exc} {caller : T} {c : Call K V Exc} {event : CallEvent V Exc}
    {m : Moved K V Exc (MemoryBackend K V × ℚ)} (hc : s.system.calls caller = some c)
    (hm : cache.advance s.system.state c.key c.phase event = some m) :
    s.step cache (.advance caller event) = some ⟨s.system.moved caller c m,
      (m.notes.filterMap (Note.store c.key m.state.backend.2)).reverse ++ s.stores⟩ := by
  have hnote : Entry.store m.state.backend.2 ∘ Entry.call caller c.key =
      (Note.store c.key m.state.backend.2 : Note V → _) := by
    funext note
    cases note <;> rfl
  simp only [TimedSystem.step, System.step, hc, hm, Option.map_some, System.moved,
    List.drop_left, List.filterMap_map, hnote]

/-- The first caller is in the phase `phase` of a call for the key, the second has not begun one,
and the state of the cache and the stores are as given. -/
structure Stage (first second : T) (k : K) (s : TimedSystem T K V Exc) (phase : Phase V Exc)
    (state : CacheState K (MemoryBackend K V × ℚ)) (stores : Stores K V) : Prop where
  calls : s.system.calls first = some ⟨k, .sync, 0, phase⟩ ∧ s.system.calls second = none
  state_eq : s.system.state = state
  stores_eq : s.stores = stores

variable {first second : T} {k : K}

/-- The first caller makes a step. -/
theorem Stage.advance {cache : Cache K V Exc (MemoryBackend K V × ℚ) {d : ℚ // 0 ≤ d}}
    {backend : MemoryBackend K V} {start : ℚ} (hne : first ≠ second)
    {phase : Phase V Exc} {state : CacheState K (MemoryBackend K V × ℚ)} {stores : Stores K V}
    (h : ∃ s, (timedCallers T cache backend start).Reachable s ∧
      Stage first second k s phase state stores)
    (event : CallEvent V Exc) {m : Moved K V Exc (MemoryBackend K V × ℚ)}
    (hm : cache.advance state k phase event = some m) :
    ∃ s, (timedCallers T cache backend start).Reachable s ∧
      Stage first second k s m.phase m.state
        ((m.notes.filterMap (Note.store k m.state.backend.2)).reverse ++ stores) := by
  obtain ⟨s, hr, ⟨hfirst, hsecond⟩, rfl, rfl⟩ := h
  refine ⟨_, hr.step (TimedSystem.step_advance hfirst hm), ⟨System.moved_calls_self, ?_⟩, rfl, rfl⟩
  simp only [System.moved, Function.update_of_ne hne.symm]
  split
  · simp [notifyAll, hsecond]
  · exact hsecond

omit [DecidableEq T] in
/-- An empty store with room for an entry takes it. -/
theorem MemoryBackend.put_init {maxSize : ℤ} (hsize : 1 ≤ maxSize) (own : Option ℚ) (k : K) (v : V)
    (now : ℚ) : ∃ b : MemoryBackend K V,
      (MemoryBackend.init maxSize own).put k v now = (some (), b) ∧
        b.ttl = own ∧ b.store.get? k = some ⟨v, now⟩ := by
  have habsent : ∀ p ∈ (MemoryBackend.init (K := K) (V := V) maxSize own).store.items, p.1 ≠ k :=
    nofun
  obtain ⟨store, hpop, hcases⟩ := MemoryBackend.popWhile_cases
    (b := MemoryBackend.init (K := K) (V := V) maxSize own) hsize
    (by change ((0 : ℕ) : ℤ) ≤ maxSize; omega)
  have hitems : store.items = [] := by
    rcases hcases with ⟨-, hsame⟩ | ⟨oldest, -, hcons⟩
    · exact hsame
    · cases hcons
  refine ⟨⟨maxSize, own, store.setItem k ⟨v, now⟩⟩, ?_, rfl, ?_⟩
  · rw [MemoryBackend.put, OrderedDict.get?_eq_none.2 habsent, hpop]
    rfl
  · rw [OrderedDict.get?_eq_some, OrderedDict.setItem_items_of_not_mem (by simp [hitems])]
    simp

/-- The first caller computes the value and stores it. -/
theorem exists_stored {maxSize : ℤ} {own : Option ℚ} {b : MemoryBackend K V} {v : V}
    (hput : (MemoryBackend.init maxSize own).put k v 0 = (some (), b)) (hne : first ≠ second) :
    ∃ s, (timedCallers T (Cache.onMemory V config keyError)
        (MemoryBackend.init maxSize own) 0).Reachable s ∧
      s.system.calls second = none ∧ s.system.state.backend = (b, 0) ∧ s.stores = [(k, v, 0)] := by
  have h1 : ∃ s, (timedCallers T (Cache.onMemory V config keyError)
      (MemoryBackend.init maxSize own) 0).Reachable s ∧
      Stage first second k s .checking (.init (MemoryBackend.init maxSize own, 0)) [] :=
    ⟨_, Machine.Reachable.step ⟨[], .nil⟩ (a := .execute first k) rfl,
      ⟨Function.update_self .., Function.update_of_ne hne.symm ..⟩, rfl, rfl⟩
  have h2 := Stage.advance hne h1 .turn rfl
  have h3 := Stage.advance hne h2 (.finish v) rfl
  have hget : (MemoryBackend.get (MemoryBackend.init maxSize own) k (0 : ℚ) :
      Option V × MemoryBackend K V).2 = MemoryBackend.init maxSize own := rfl
  have h4 := Stage.advance hne h3 .turn (m := ⟨.returned v false,
      { CacheState.init (b, (0 : ℚ)) with inflight := insert k ∅ }.syncUnreserve k, true,
      [.stored v]⟩) (by
    simp only [Cache.advance, Cache.syncStoreAndUnreserve, Cache.onMemory, memoryBackend,
      CacheState.init]
    rw [hget, hput]
    rfl)
  obtain ⟨s, hr, ⟨-, hsecond⟩, hstate, hstores⟩ := h4
  exact ⟨s, hr, hsecond, by rw [hstate]; rfl, hstores⟩

/-- Some time later, the second caller begins. -/
theorem reachable_later {cache : Cache K V Exc (MemoryBackend K V × ℚ) {d : ℚ // 0 ≤ d}}
    {backend b : MemoryBackend K V} {d : ℚ} {s : TimedSystem T K V Exc}
    (hr : (timedCallers T cache backend 0).Reachable s) (hsecond : s.system.calls second = none)
    (hd : 0 ≤ d) (hdrift : cache.ops.drift ⟨d, hd⟩ s.system.state.backend = (b, d)) :
    (timedCallers T cache backend 0).Reachable
      ⟨(s.system.withBackend (b, d) []).begin second k .sync .checking, s.stores⟩ := by
  have hpassed : (timedCallers T cache backend 0).Reachable
      ⟨s.system.withBackend (b, d) [], s.stores⟩ := by
    refine hr.step (a := .drift ⟨d, hd⟩) ?_
    change TimedSystem.step cache s (.drift ⟨d, hd⟩) = _
    simp [TimedSystem.step, System.step, hdrift, System.withBackend]
  refine hpassed.step (a := .execute second k) ?_
  change TimedSystem.step cache _ (.execute second k) = _
  simp [TimedSystem.step, System.step, System.withBackend, hsecond, System.begin]

/-- Where the backend has room for an entry, and a time-to-live that is longer than the configured
one or none, that is not honoured: a value is stored, the time passes, and another caller hits it.
-/
theorem not_honoursTtl {maxSize : ℤ} {own : Option ℚ} {ttl : ℚ} (hsize : 1 ≤ maxSize)
    (hown : ∀ u, own = some u → ttl < u) (httl : 0 ≤ ttl) (hne : first ≠ second) (k : K) (v : V) :
    ¬ HonoursTtl T (Cache.onMemory V config keyError) (MemoryBackend.init (K := K) maxSize own)
      ttl := by
  obtain ⟨b, hput, hbttl, hget⟩ := MemoryBackend.put_init hsize own k v 0
  let cache : Cache K V Exc (MemoryBackend K V × ℚ) {d : ℚ // 0 ≤ d} :=
    Cache.onMemory V config keyError
  have hstored : ∃ s, (timedCallers T cache (MemoryBackend.init maxSize own) 0).Reachable s ∧
      s.system.calls second = none ∧ s.system.state.backend = (b, 0) ∧ s.stores = [(k, v, 0)] :=
    exists_stored hput hne
  obtain ⟨s, hr, hsecond, hbackend, hstores⟩ := hstored
  let late : TimedSystem T K V Exc :=
    ⟨(s.system.withBackend (b, ttl) []).begin second k .sync .checking, s.stores⟩
  have hlate := reachable_later (k := k) hr hsecond httl (by
    rw [hbackend]
    exact Prod.ext rfl (zero_add ttl))
  -- it finds an entry that has not expired
  have hlive : b.isExpired ⟨v, 0⟩ ttl = false := by
    rw [MemoryBackend.isExpired_eq_false]
    intro u hu
    rw [hbttl] at hu
    linarith [hown u hu]
  have hhit : cache.advance late.system.state k .checking .turn = some ⟨.returned v true,
      { late.system.state with backend := (⟨b.maxSize, b.ttl, b.store.moveToEnd k⟩, ttl) },
      false, []⟩ := by
    simp [Cache.advance, Cache.syncCheckOrReserve, cache, Cache.onMemory, memoryBackend,
      MemoryBackend.get, late, System.begin, System.withBackend, hget, hlive]
  have hcall : late.system.calls second = some ⟨k, .sync, late.system.log.length, .checking⟩ :=
    Function.update_self ..
  intro hhonours
  obtain ⟨storedAt, hlatest, hlt⟩ := hhonours 0 late hlate (.advance second .turn) _
    (TimedSystem.step_advance hcall hhit) second _ _ v
    ⟨hcall, rfl, _, System.moved_calls_self, rfl⟩ System.moved_calls_self rfl
  have hstores' : late.stores = [(k, v, 0)] := hstores
  rw [hstores', latestStore_cons, if_pos rfl, Option.some_inj, Prod.mk.injEq] at hlatest
  obtain ⟨-, rfl⟩ := hlatest
  have hclock : late.system.state.backend.2 = ttl := rfl
  rw [hclock] at hlt
  linarith

/-! ### The condition -/

/-- **The configured time-to-live is honoured exactly where** the backend stores nothing at all, or
has a time-to-live of its own that is no longer. -/
theorem ttl_honoured_iff (config : CacheConfig) (ttl : ℚ) (httl : config.ttl = some ttl)
    (maxSize : ℤ) (own : Option ℚ) (keyError : Exc) (first second : T) (hne : first ≠ second)
    (k : K) (v : V) :
    HonoursTtl T (Cache.onMemory V config keyError) (MemoryBackend.init (K := K) maxSize own) ttl ↔
      maxSize < 1 ∨ ∃ u, own = some u ∧ u ≤ ttl := by
  refine ⟨fun h => ?_, honoursTtl_of_le⟩
  by_contra hcon
  rw [not_or, not_lt, not_exists] at hcon
  have hpos : 0 < ttl := config.ttl_pos httl
  exact not_honoursTtl hcon.1 (fun u hu => not_le.1 fun hle => hcon.2 u ⟨hu, hle⟩) hpos.le hne k v h

/-- A cache with a time-to-live of a second honours it with a backend of half a second. -/
theorem ttl_honoured_with_shorter_ttl :
    HonoursTtl Bool (Cache.onMemory ℕ ⟨⟨128, some 1⟩, by decide +kernel⟩ Builtin.keyError)
      (MemoryBackend.init (K := ℕ) 128 (some (1 / 2))) 1 :=
  (ttl_honoured_iff ⟨⟨128, some 1⟩, by decide +kernel⟩ 1 rfl 128 (some (1 / 2)) Builtin.keyError
    false true (by decide) 7 42).2 (.inr ⟨1 / 2, rfl, by norm_num⟩)

/-- A cache with a time-to-live of a second on a backend that was created with the default
arguments. -/
theorem not_ttl_honoured :
    ¬ HonoursTtl Bool (Cache.onMemory ℕ ⟨⟨128, some 1⟩, by decide +kernel⟩ Builtin.keyError)
      (MemoryBackend.init (K := ℕ)) 1 :=
  not_honoursTtl (by decide) (by simp) zero_le_one Bool.false_ne_true 7 42

end Caching
