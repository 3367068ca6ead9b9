/-
Processes that share a database.

A cache with a `RedisBackend` keeps its values where other processes find them.  Each process has
its own `Cache`, with its own lock and its own keys in flight; what they share is the database.
This module composes the two models: the steps of the calls of all processes interleave on one
database, whose clock runs and from which anybody may remove keys.

A `RedisBackend` knows its entries by the digest of the key under its prefix, and the decorator puts
nothing into a key that tells one function from another.  So processes, or two caches of one
process, that share a prefix share their entries, and the values of one are handed out by the other
as its serializer reads them.  That is transparent exactly if these values are right there too.

Main definitions:

* `Redis.RedisBackend.ops` — a `RedisBackend` as the backend of a cache;
* `Redis.Member`, `Redis.Fleet`, `Redis.fleet` — the caches, and their calls on one database;
* `Redis.Answers`, `Redis.Renewed` — what the functions return.

Main results:

* `Redis.live_of_step` — what a step of a cache leaves in the database;
* `Redis.sharing_transparent_iff` — **when sharing a database is transparent**;
* `Redis.staleness_bounded` — **no call returns what is older than the time-to-live**.
-/

import Pysilience.Cache.Transparency
import Pysilience.Redis.Namespaces

set_option relaxedAutoImplicit false
set_option autoImplicit false

namespace Redis

open Caching Python Serializers Transition

universe t u v w z p

variable {P : Type p} {T : Type t} {K : Type u} {V : Type v} {Exc : Type w} {server : Server}

/-! ### The backend of a cache -/

/-- What happens to a database apart from the calls: time passes, or the server or another client
removes keys. -/
inductive Drift
  | wait (d : ℚ≥0)
  | remove (keys : List String)

def Drift.apply : Drift → Database server → Database server
  | .wait d, db => db.wait d
  | .remove keys, db => (db.delete keys).2

/-- `RedisBackend` as the backend of a cache.  Which pages an iteration returns makes no difference
to what it leaves, so the first iteration stands for all of them. -/
def RedisBackend.ops (backend : RedisBackend V) (hashing : Hashing K) (scanning : Scanning server)
    (raise : Error → Exc) : CacheBackend K V Exc (Database server) Drift where
  get db key := ((backend.get hashing .sync db key).mapError raise, db)
  put db key value ttl :=
    let (result, db') := backend.put hashing .sync db key value ttl
    (result.mapError raise, db')
  delete db key :=
    let (result, db') := backend.delete hashing .sync db key
    (result.mapError raise, db')
  clear db :=
    let (result, db') := backend.clear scanning 0 .sync db
    (result.mapError raise, db')
  aget db key := ((backend.get hashing .async db key).mapError raise, db)
  aput db key value ttl :=
    let (result, db') := backend.put hashing .async db key value ttl
    (result.mapError raise, db')
  drift := Drift.apply

/-- A cache on a database: its configuration and its backend. -/
structure Member (V : Type v) where
  config : CacheConfig
  redis : RedisBackend V

/-- `Cache(config, backend=redis)`. -/
def Member.cache (member : Member V) (hashing : Hashing K) (scanning : Scanning server)
    (raise : Error → Exc) : Cache K V Exc (Database server) Drift where
  config := member.config
  ops := member.redis.ops hashing scanning raise
  isMemory := false

namespace RedisBackend

variable (backend : RedisBackend V) (hashing : Hashing K)

/-- The database has the value under the key, as the backend reads it. -/
def Holds (db : Database server) (key : K) (value : V) : Prop :=
  ∃ item, db.live (backend.key hashing key) = some item ∧
    backend.serializer.loads item.value = .ok value

variable {backend hashing}

/-- Lookups are lawful: what is found is in the database, and what cannot be read is a miss. -/
theorem lawful_get (raise : Error → Exc) (mode : Mode) :
    LawfulLookup
      (fun (db : Database server) key => ((backend.get hashing mode db key).mapError raise, db))
      (backend.Holds hashing) where
  hit db key v h := by
    unfold get at h
    split at h
    · cases h
    · split at h
      · cases h
      · next raw hraw =>
        obtain ⟨item, hitem, rfl⟩ := Option.map_eq_some_iff.1 hraw
        refine ⟨item, hitem, ?_⟩
        unfold load at h
        split at h
        · next value hloads =>
          cases h
          exact hloads
        · split at h <;> cases h
  miss db key h v := by
    rintro ⟨item, hitem, hloads⟩
    unfold get at h
    split at h
    · cases h
    · simp only [Database.get, hitem, Option.map_some, load, hloads] at h
      cases h
  keeps _ _ _ _ h := h

/-- What is in the database after a value was stored: what was there, or the value, which lives for
the time-to-live. -/
theorem live_put {mode : Mode} {db : Database server} {key : K} {value : V} {ttl : Option ℚ}
    {l : String} {item : Item}
    (h : (backend.put hashing mode db key value ttl).2.live l = some item) :
    db.live l = some item ∨ l = backend.key hashing key ∧
      backend.serializer.dumps value = .ok item.value ∧
        ∀ t, ttl = some t → item.expiresAt = some (db.now + toInt (max t 1)) := by
  unfold put at h
  split at h
  · exact .inl h
  · exact .inl h
  · next data _ hdumps =>
    split at h
    · next t =>
      rw [Database.live_setex _ _ _ (seconds_pos t)] at h
      split at h
      · next hl =>
        obtain rfl := Option.some_inj.1 h
        refine .inr ⟨hl, hdumps, fun t' ht => ?_⟩
        rw [← Option.some_inj.1 ht]
      · exact .inl h
    · rw [Database.live_set] at h
      split at h
      · next hl =>
        obtain rfl := Option.some_inj.1 h
        exact .inr ⟨hl, hdumps, nofun⟩
      · exact .inl h

/-- Storing takes no time. -/
theorem put_now (mode : Mode) (db : Database server) (key : K) (value : V) (ttl : Option ℚ) :
    (backend.put hashing mode db key value ttl).2.now = db.now := by
  unfold put
  split
  · rfl
  · rfl
  · split
    · exact db.setex_now _ _ _
    · exact db.set_now _ _

/-- What is there is found as the serializer reads it. -/
theorem get_of_database {mode : Mode} (hmode : backend.require mode = .ok ()) {db : Database server}
    {key : K} {raw : Bytes} (hget : db.get (backend.key hashing key) = some raw) {value : V}
    (hloads : backend.serializer.loads raw = .ok value) :
    backend.get hashing mode db key = .ok (some value) := by
  simp only [get, hmode, hget, load, hloads]

/-- `delete` adds nothing. -/
theorem live_delete_of {mode : Mode} {db : Database server} {key : K} {l : String} {item : Item}
    (h : (backend.delete hashing mode db key).2.live l = some item) : db.live l = some item := by
  unfold delete at h
  split at h
  · exact h
  · rw [Database.live_delete] at h
    split at h
    · cases h
    · exact h

theorem delete_now (mode : Mode) (db : Database server) (key : K) :
    (backend.delete hashing mode db key).2.now = db.now := by
  unfold delete
  split
  · rfl
  · exact db.delete_now _

/-- `clear` adds nothing. -/
theorem live_clear_of {scanning : Scanning server} {n : ℕ} {mode : Mode} {db : Database server}
    {l : String} {item : Item} (h : (backend.clear scanning n mode db).2.live l = some item) :
    db.live l = some item := by
  unfold clear at h
  split at h
  · exact h
  · rw [live_foldl_delete] at h
    split at h
    · cases h
    · exact h

theorem clear_now (scanning : Scanning server) (n : ℕ) (mode : Mode) (db : Database server) :
    (backend.clear scanning n mode db).2.now = db.now := by
  unfold clear
  split
  · rfl
  · exact foldl_delete_now _ db

end RedisBackend

/-- The drift of a database adds nothing. -/
theorem Drift.live_of_apply {d : Drift} {db : Database server} {l : String} {item : Item}
    (h : (d.apply db).live l = some item) : db.live l = some item := by
  cases d with
  | wait d =>
      rw [Drift.apply, Database.live_wait] at h
      exact (Option.filter_eq_some_iff.1 h).1
  | remove keys =>
      rw [Drift.apply, Database.live_delete] at h
      split at h
      · cases h
      · exact h

/-- The clock never goes back. -/
theorem Drift.le_now (d : Drift) (db : Database server) : db.now ≤ (d.apply db).now := by
  cases d with
  | wait d => exact (le_add_of_nonneg_right d.coe_nonneg).trans (db.wait_now d).ge
  | remove keys => exact (db.delete_now keys).ge

/-! ### A step of a cache -/

section Steps

variable [DecidableEq K] [DecidableEq T] {Cls : Type z} [Exceptions Exc Cls] {member : Member V}
  {hashing : Hashing K} {scanning : Scanning server} {raise : Error → Exc}

omit [DecidableEq K] in
/-- What the step of a call leaves in the database. -/
theorem live_of_backendCase {db db' : Database server} {key : K} {ph : Phase V Exc}
    (h : (member.cache hashing scanning raise).BackendCase db key ph db') :
    db'.now = db.now ∧ ∀ l item, db'.live l = some item → db.live l = some item ∨
      ∃ v, ph.toStore = some v ∧ l = member.redis.key hashing key ∧
        member.redis.serializer.dumps v = .ok item.value ∧
        ∀ t, member.config.ttl = some t → item.expiresAt = some (db.now + toInt (max t 1)) := by
  cases h with
  | same | get | aget => exact ⟨rfl, fun l item hl => .inl hl⟩
  | put v hv | aput v hv =>
      refine ⟨RedisBackend.put_now .., fun l item hl => ?_⟩
      rcases RedisBackend.live_put hl with hl | hl
      · exact .inl hl
      · exact .inr ⟨v, hv, hl⟩

/-- **What a step of a cache leaves in the database**: what was there, or the value that a call was
about to store, under its key and for the time-to-live. -/
theorem live_of_step {s s' : System T K V Exc (Database server)} {a : Action T K V Exc Drift}
    (hstep : s.step (member.cache hashing scanning raise) a = some s') {l : String} {item : Item}
    (hl : s'.state.backend.live l = some item) :
    s.state.backend.live l = some item ∨ ∃ caller ev c v, a = .advance caller ev ∧
      s.calls caller = some c ∧ c.phase.toStore = some v ∧ l = member.redis.key hashing c.key ∧
      member.redis.serializer.dumps v = .ok item.value ∧ ∀ t, member.config.ttl = some t →
        item.expiresAt = some (s.state.backend.now + toInt (max t 1)) := by
  cases System.step_cases hstep with
  | execute | executeAsync => exact .inl hl
  | advance caller ev c m hc hm =>
      rcases (live_of_backendCase (Cache.backend_cases (Cache.advance_cases hm))).2 l item hl with
        hl | ⟨v, hv, hkey⟩
      · exact .inl hl
      · exact .inr ⟨caller, ev, c, v, rfl, hc, hv, hkey⟩
  | invalidate key => exact .inl (RedisBackend.live_delete_of hl)
  | invalidateAll => exact .inl (RedisBackend.live_clear_of hl)
  | drift d => exact .inl (Drift.live_of_apply hl)

/-- The clock of the server never goes back. -/
theorem now_le_of_step {s s' : System T K V Exc (Database server)} {a : Action T K V Exc Drift}
    (hstep : s.step (member.cache hashing scanning raise) a = some s') :
    s.state.backend.now ≤ s'.state.backend.now := by
  cases System.step_cases hstep with
  | execute | executeAsync => exact le_refl _
  | advance caller ev c m hc hm =>
      exact (live_of_backendCase (Cache.backend_cases (Cache.advance_cases hm))).1.ge
  | invalidate key => exact (RedisBackend.delete_now ..).ge
  | invalidateAll => exact (RedisBackend.clear_now ..).ge
  | drift d => exact d.le_now _

end Steps

/-! ### The fleet -/

/-- The database, the calls of every cache, and when each call began.  The copy of the database in a
system is what its last step left; a step looks at the database as it is. -/
structure Fleet (server : Server) (P : Type p) (T : Type t) (K : Type u) (V : Type v)
    (Exc : Type w) where
  db : Database server
  systems : P → System T K V Exc (Database server)
  begunAt : P → T → ℚ

/-- The cache and its calls, with the database as it is. -/
def Fleet.view (f : Fleet server P T K V Exc) (p : P) : System T K V Exc (Database server) :=
  (f.systems p).withBackend f.db []

section Machine

variable [DecidableEq P] [DecidableEq T] [DecidableEq K] {Cls : Type z} [Exceptions Exc Cls]

/-- After a step of one of the caches. -/
def Fleet.after (f : Fleet server P T K V Exc) (p : P) (a : Action T K V Exc Drift)
    (s : System T K V Exc (Database server)) : Fleet server P T K V Exc where
  db := s.state.backend
  systems := Function.update f.systems p s
  begunAt := fun q caller =>
    if q = p ∧ a.begun.map Prod.fst = some caller then f.db.now else f.begunAt q caller

/-- One step of one of the caches. -/
def Fleet.step (members : P → Member V) (hashing : Hashing K) (scanning : Scanning server)
    (raise : Error → Exc) (f : Fleet server P T K V Exc) :
    P × Action T K V Exc Drift → Option (Fleet server P T K V Exc)
  | (p, a) => ((f.view p).step ((members p).cache hashing scanning raise) a).map (f.after p a)

/-- Caches on one database, under any interleaving of their callers. -/
def fleet (T : Type t) [DecidableEq T] {Cls : Type z} [Exceptions Exc Cls]
    (members : P → Member V) (hashing : Hashing K) (scanning : Scanning server)
    (raise : Error → Exc) (db : Database server) :
    Machine (Fleet server P T K V Exc) (P × Action T K V Exc Drift) where
  init := ⟨db, fun _ => .init db, fun _ _ => db.now⟩
  step := Fleet.step members hashing scanning raise

end Machine

/-- The side condition on a step: a function that returns in it returns what it can return for the
key, in the cache of the call. -/
def Answers (Result : P → K → V → Prop) (f : Fleet server P T K V Exc)
    (step : P × Action T K V Exc Drift) : Prop :=
  Returns (Result step.1) (f.view step.1) step.2

/-- The side condition on a step: from the instant on, functions return new values, and what calls
store is new. -/
def Renewed (New : P → K → V → Prop) (instant : ℚ) (f : Fleet server P T K V Exc)
    (step : P × Action T K V Exc Drift) : Prop :=
  instant ≤ f.db.now → Answers New f step ∧ ∀ caller event, step.2 = .advance caller event →
    ∀ c v, (f.systems step.1).calls caller = some c → c.phase.toStore = some v → New step.1 c.key v

/-- What a cache stores is right in all caches that read it: those with the same prefix, for the
keys with the same digest, as their serializers read it. -/
def Compatible (members : P → Member V) (hashing : Hashing K) (Result : P → K → V → Prop) : Prop :=
  ∀ p q k l v w raw, (members p).redis.keyPrefix = (members q).redis.keyPrefix →
    hashing.digest k = hashing.digest l → Result q l v →
    (members q).redis.serializer.dumps v = .ok raw →
    (members p).redis.serializer.loads raw = .ok w → Result p k w

/-! ### Sharing is transparent -/

section Sharing

variable [DecidableEq P] [DecidableEq T] [DecidableEq K] {Cls : Type z} [Exceptions Exc Cls]
  {members : P → Member V} {hashing : Hashing K} {scanning : Scanning server} {raise : Error → Exc}
  {Result : P → K → V → Prop}

omit [DecidableEq K] in
/-- Two keys are stored in the same place exactly if the prefixes and the digests are the same. -/
theorem key_eq_iff {one two : RedisBackend V} {k l : K} : one.key hashing k = two.key hashing l ↔
    one.keyPrefix = two.keyPrefix ∧ hashing.digest k = hashing.digest l := by
  constructor
  · intro h
    have hpre := serialiseKey_inj hashing h
    refine ⟨hpre, ?_⟩
    rw [RedisBackend.key, RedisBackend.key, serialiseKey, serialiseKey, hpre] at h
    exact (String.append_right_inj _).1 h
  · rintro ⟨hpre, hdigest⟩
    rw [RedisBackend.key, RedisBackend.key, serialiseKey, serialiseKey, hpre, hdigest]

namespace Fleet

/-- A step of a fleet is a step of one of its caches on the database as it is. -/
theorem step_cases {f f' : Fleet server P T K V Exc} {p : P} {a : Action T K V Exc Drift}
    (h : f.step members hashing scanning raise (p, a) = some f') :
    ∃ s, (f.view p).step ((members p).cache hashing scanning raise) a = some s ∧
      f'.db = s.state.backend ∧ f'.systems = Function.update f.systems p s ∧
      ∀ q caller, f'.begunAt q caller =
        if q = p ∧ a.begun.map Prod.fst = some caller then f.db.now else f.begunAt q caller := by
  obtain ⟨s, hs, rfl⟩ := Option.map_eq_some_iff.1 h
  exact ⟨s, hs, rfl, rfl, fun _ _ => rfl⟩

/-- The database holds, and the calls carry, nothing but what is right for the cache and the key. -/
structure Genuine (members : P → Member V) (hashing : Hashing K) (Result : P → K → V → Prop)
    (f : Fleet server P T K V Exc) : Prop where
  held : ∀ p k v, (members p).redis.Holds hashing f.db k v → Result p k v
  carried : ∀ p caller c, (f.systems p).calls caller = some c →
    ∀ v, c.phase.carries v → Result p c.key v

/-- **Every step keeps a fleet genuine.** -/
theorem genuine_step (hcompatible : Compatible members hashing Result)
    {f f' : Fleet server P T K V Exc} (h : f.Genuine members hashing Result)
    {step : P × Action T K V Exc Drift} (ha : Answers Result f step)
    (hstep : f.step members hashing scanning raise step = some f') :
    f'.Genuine members hashing Result := by
  obtain ⟨q, a⟩ := step
  obtain ⟨s, hs, hdb, hsystems, -⟩ := step_cases hstep
  refine ⟨fun p k v ⟨item, hitem, hloads⟩ => ?_, fun p caller d hd v hv => ?_⟩
  · rw [hdb] at hitem
    rcases live_of_step hs hitem with hitem | ⟨caller, ev, c, w, -, hc, hstores, hkey, hdumps, -⟩
    · exact h.held p k v ⟨item, hitem, hloads⟩
    · obtain ⟨hpre, hdigest⟩ := key_eq_iff.1 hkey
      exact hcompatible p q k c.key w v _ hpre hdigest
        (h.carried q caller c hc w (Phase.carries_of_toStore hstores)) hdumps hloads
  · rw [hsystems] at hd
    by_cases hp : p = q
    · subst hp
      rw [Function.update_self] at hd
      have hview : (f.view p).Genuine ((members p).redis.Holds hashing) (Result p) :=
        ⟨h.held p, h.carried p⟩
      exact System.carried_step (RedisBackend.lawful_get raise .sync)
        (RedisBackend.lawful_get raise .async) hview ha hs hd hv
    · rw [Function.update_of_ne hp] at hd
      exact h.carried p caller d hd v hv

theorem genuine_of_run (hcompatible : Compatible members hashing Result) {db : Database server}
    (hempty : ∀ p k, db.live ((members p).redis.key hashing k) = none)
    {steps : List (P × Action T K V Exc Drift)} {f : Fleet server P T K V Exc}
    (h : (fleet T members hashing scanning raise db).Run (Answers Result) steps f) :
    f.Genuine members hashing Result := by
  refine h.invariant (I := Genuine members hashing Result) ⟨fun p k v => ?_, nofun⟩
    fun _ _ _ _ _ hi ha hstep => genuine_step hcompatible hi ha hstep
  rintro ⟨item, hitem, -⟩
  cases (hempty p k).symm.trans hitem

/-! ### A value that is handed over -/

/-- A run in which the call `caller` of one cache has come to the phase `ph`, with its cache in the
state `cs`, and in which the callers of whom nothing was heard in `f` have not called yet. -/
structure Stage (members : P → Member V) (hashing : Hashing K) (scanning : Scanning server)
    (raise : Error → Exc) (Result : P → K → V → Prop) (db : Database server)
    (f f' : Fleet server P T K V Exc) (p : P) (caller : T) (key : K) (ph : Phase V Exc)
    (cs : CacheState K (Database server)) : Prop where
  run : ∃ steps, (fleet T members hashing scanning raise db).Run (Answers Result) steps f'
  state : (f'.view p).state = cs
  call : ∃ c, (f'.systems p).calls caller = some c ∧ c.key = key ∧ c.phase = ph
  others : ∀ q u, (q, u) ≠ (p, caller) → (f.systems q).calls u = none →
    (f'.systems q).calls u = none

/-- A call makes its steps in the fleet. -/
theorem Stage.steps {db : Database server} {f : Fleet server P T K V Exc} {p : P} {caller : T}
    {key : K} {Q : V → Prop} (hresult : ∀ v, Q v → Result p key v)
    {x y : Phase V Exc × CacheState K (Database server)}
    (hsteps : ((members p).cache hashing scanning raise).StepsOf key Q x y)
    (h : Stage members hashing scanning raise Result db f f p caller key x.1 x.2) :
    ∃ f', Stage members hashing scanning raise Result db f f' p caller key y.1 y.2 := by
  induction hsteps with
  | refl => exact ⟨f, h⟩
  | tail _ hstep ih =>
      obtain ⟨f₁, ⟨steps, hrun⟩, hstate, ⟨c, hc, rfl, hphase⟩, hothers⟩ := ih
      obtain ⟨event, m, hevent, hadvance, rfl⟩ := hstep
      have hcall : (f₁.view p).calls caller = some c := hc
      have hsystem : (f₁.view p).step ((members p).cache hashing scanning raise)
          (.advance caller event) = some ((f₁.view p).moved caller c m) := by
        simp only [System.step, hcall, hstate, hphase, hadvance, Option.map_some]
      refine ⟨f₁.after p (.advance caller event) ((f₁.view p).moved caller c m),
        ⟨steps ++ [(p, .advance caller event)], hrun.snoc ?_ ?_⟩, ?_,
        ⟨{ c with phase := m.phase }, ?_, rfl, rfl⟩, fun q u hne hnone => ?_⟩
      · intro u v hfinished d hd
        cases event with
        | finish w =>
            obtain ⟨rfl, rfl⟩ := Prod.mk.inj (Option.some_inj.1 hfinished)
            obtain rfl := Option.some_inj.1 (hcall.symm.trans hd)
            exact hresult w (hevent w rfl)
        | _ => cases hfinished
      · exact Option.map_eq_some_iff.2 ⟨_, hsystem, rfl⟩
      · simp only [view, after, Function.update_self]
        rfl
      · simp only [after, Function.update_self]
        exact System.moved_calls_self
      · have hbefore := hothers q u hne hnone
        by_cases hq : q = p
        · subst hq
          have hu : u ≠ caller := fun hu => hne (by rw [hu])
          simp only [after, Function.update_self, System.moved, Function.update_of_ne hu]
          split
          · exact Option.map_eq_none_iff.2 hbefore
          · exact hbefore
        · simp only [after, Function.update_of_ne hq]
          exact hbefore

/-- A call begins. -/
theorem Stage.begin {db : Database server} {steps : List (P × Action T K V Exc Drift)}
    {f : Fleet server P T K V Exc}
    (hrun : (fleet T members hashing scanning raise db).Run (Answers Result) steps f) {p : P}
    {caller : T} (hnew : (f.systems p).calls caller = none) (key : K) (isCoroutine : Bool) :
    ∃ f', (∀ q u, (q, u) ≠ (p, caller) → (f.systems q).calls u = none →
        (f'.systems q).calls u = none) ∧ f'.db = f.db ∧
      Stage members hashing scanning raise Result db f' f' p caller key
        (((members p).cache hashing scanning raise).beginning isCoroutine) (f.view p).state := by
  have hview : (f.view p).calls caller = none := hnew
  have hsystem : ∃ a path, (f.view p).step ((members p).cache hashing scanning raise) a =
        some ((f.view p).begin caller key path
          (((members p).cache hashing scanning raise).beginning isCoroutine)) ∧
      Answers Result f (p, a) := by
    cases isCoroutine with
    | false =>
        exact ⟨.execute caller key, .sync, if_neg (by rw [hview]; exact Bool.false_ne_true),
          nofun⟩
    | true =>
        exact ⟨.executeAsync caller key, .async, if_neg (by rw [hview]; exact Bool.false_ne_true),
          nofun⟩
  obtain ⟨a, path, hsystem, hanswers⟩ := hsystem
  refine ⟨_, ?_, ?_, ⟨_, hrun.snoc hanswers (Option.map_eq_some_iff.2 ⟨_, hsystem, rfl⟩)⟩, ?_,
    ⟨⟨key, path, (f.view p).log.length, _⟩, ?_, rfl, rfl⟩, fun _ _ _ hnone => hnone⟩
  · intro q u hne hnone
    by_cases hq : q = p
    · subst hq
      have hu : u ≠ caller := fun hu => hne (by rw [hu])
      simp only [after, Function.update_self, System.begin, Function.update_of_ne hu]
      exact hnone
    · simp only [after, Function.update_of_ne hq]
      exact hnone
  · rfl
  · simp only [view, after, Function.update_self]
    rfl
  · simp only [after, Function.update_self]
    exact Function.update_self ..

end Fleet

omit [DecidableEq K] in
/-- The calls that use a client look for their key with it. -/
theorem Member.lookup_eq (member : Member V) (mode : Mode) (db : Database server) (key : K) :
    (member.cache hashing scanning raise).lookup (mode == .async) db key =
      ((member.redis.get hashing mode db key).mapError raise, db) := by
  cases mode <;> rfl

omit [DecidableEq K] in
/-- The calls that use a client store their value with it. -/
theorem Member.store_eq (member : Member V) (mode : Mode) (db : Database server) (key : K)
    (value : V) :
    (member.cache hashing scanning raise).store (mode == .async) db key value =
      ((member.redis.put hashing mode db key value member.config.ttl).1.mapError raise,
        (member.redis.put hashing mode db key value member.config.ttl).2) := by
  cases mode <;> rfl

end Sharing

/-- **Sharing a database is transparent exactly if what one cache stores is right in all that read
it.**  Let any number of caches, each with its own prefix, serializer, clients and configuration,
use one database that has none of their entries at first.  In every interleaving of their calls, of
exceptions, cancellations, invalidations, removals by others and the passing of time, every call
returns a value that is right for its cache and its key: this is so if and only if a value that a
cache computes for a key is right, as the serializer reads it, in every cache with the same prefix
for every key with the same digest. -/
theorem sharing_transparent_iff [DecidableEq P] [DecidableEq T] [Nontrivial T] [DecidableEq K]
    {Cls : Type z} [Exceptions Exc Cls] (members : P → Member V) (hashing : Hashing K)
    (scanning : Scanning server) (raise : Error → Exc) (db : Database server)
    (hempty : ∀ p k, db.live ((members p).redis.key hashing k) = none)
    (Result : P → K → V → Prop) :
    (∀ (steps : List (P × Action T K V Exc Drift)) (f : Fleet server P T K V Exc),
      (fleet T members hashing scanning raise db).Run (Answers Result) steps f →
        ∀ p caller c value hit, (f.systems p).calls caller = some c →
          c.phase = .returned value hit → Result p c.key value) ↔
    Compatible members hashing Result := by
  constructor
  · intro htransparent p q k l v w raw hpre hdigest hresult hdumps hloads
    obtain ⟨t, u, htu⟩ := exists_pair_ne T
    obtain ⟨qmode, hqmode⟩ := (members q).redis.exists_mode
    obtain ⟨pmode, hpmode⟩ := (members p).redis.exists_mode
    -- one call computes the value and stores it
    have hlookup : ((members q).cache hashing scanning raise).lookup (qmode == .async) db l =
        (.ok none, db) := by
      rw [Member.lookup_eq, RedisBackend.get, hqmode, Database.get, hempty]
      rfl
    obtain ⟨db', hstore, hthere⟩ : ∃ db',
        ((members q).cache hashing scanning raise).store (qmode == .async) db l v = (.ok (), db') ∧
          db'.get ((members q).redis.key hashing l) = some raw := by
      obtain ⟨hput, hthere⟩ :=
        (members q).redis.database_get_put hashing hqmode db l hdumps (members q).config.ttl
      refine ⟨_, ?_, hthere⟩
      rw [Member.store_eq, hput]
      rfl
    obtain ⟨cs, hcomputes, rfl⟩ := Cache.computes hlookup hstore
    have hnil : (fleet T members hashing scanning raise db).Run (Answers Result) [] _ := .nil
    obtain ⟨f₁, hnone, -, hstage₁⟩ := Fleet.Stage.begin hnil (p := q)
      (rfl : ((fun _ => .init db : P → System T K V Exc (Database server)) q).calls t = none)
      l (qmode == .async)
    obtain ⟨f₂, ⟨steps, hrun⟩, hstate, -, hothers⟩ :=
      Fleet.Stage.steps (fun _ hv => hv ▸ hresult) hcomputes hstage₁
    -- another one finds and returns it, as the serializer of its cache reads it
    have hutq : (p, u) ≠ (q, t) := fun h => htu (congrArg Prod.snd h).symm
    obtain ⟨f₃, -, -, hstage₃⟩ := Fleet.Stage.begin hrun
      (hothers p u hutq (hnone p u hutq rfl)) k (pmode == .async)
    have hfound : (((members p).cache hashing scanning raise).lookup (pmode == .async)
        (f₂.view p).state.backend k).1 = .ok (some w) := by
      have hdb : f₂.db = cs.backend := congrArg CacheState.backend hstate
      have hraw : cs.backend.get ((members p).redis.key hashing k) = some raw := by
        rw [key_eq_iff.2 ⟨hpre, hdigest⟩]
        exact hthere
      rw [← hdb] at hraw
      rw [Member.lookup_eq]
      exact congrArg (Except.mapError raise) (RedisBackend.get_of_database hpmode hraw hloads)
    obtain ⟨cs', hhits⟩ := Cache.hits hfound
    obtain ⟨f₄, ⟨steps', hrun'⟩, -, ⟨c, hc, rfl, hphase⟩, -⟩ :=
      Fleet.Stage.steps (fun _ hv => hv.elim) hhits hstage₃
    exact htransparent steps' f₄ hrun' p u c w true hc hphase
  · intro hcompatible steps f hrun p caller c value hit hc hphase
    exact (Fleet.genuine_of_run hcompatible hempty hrun).carried p caller c hc value
      (by rw [hphase]; rfl)

/-- Two caches with the default prefix. -/
def defaultPrefixes (_ : Bool) : Member Bytes where
  config := { accepted := CacheConfig.accepted_default }
  redis := backendAt "pysilience:"

/-- Two functions are cached with the default prefix, and called with the same argument: one of them
gets the value of the other. -/
theorem sharing_transparent_iff_default_prefixes :
    ¬ ∀ (steps : List (Bool × Action Bool String Bytes Builtin Drift))
        (f : Fleet keyspace Bool Bool String Bytes Builtin),
      (fleet Bool defaultPrefixes digestOfK onePage (fun _ => Builtin.runtimeError)
        .empty).Run (Answers fun p _ value => value = [if p then 1 else 0]) steps f →
        ∀ p caller c value hit, (f.systems p).calls caller = some c →
          c.phase = .returned value hit → value = [if p then 1 else 0] := by
  intro htransparent
  have hcompatible := (sharing_transparent_iff defaultPrefixes digestOfK onePage
    (fun _ => Builtin.runtimeError) .empty (fun _ _ => rfl)
    fun p _ value => value = [if p then 1 else 0]).1 htransparent
  exact absurd (hcompatible false true "k" "k" [1] [1] [1] rfl rfl rfl rfl rfl) (by decide)

/-! ### Staleness -/

/-- An item that is there has not expired. -/
theorem Database.now_lt_of_live {db : Database server} {l : String} {item : Item}
    (h : db.live l = some item) {t : ℚ} (ht : item.expiresAt = some t) : db.now < t := by
  have halive := db.alive_of_live h
  rw [Alive, ht] at halive
  exact of_decide_eq_true halive

section Staleness

variable [DecidableEq P] [DecidableEq T] [DecidableEq K] {Cls : Type z} [Exceptions Exc Cls]
  {members : P → Member V} {hashing : Hashing K} {scanning : Scanning server} {raise : Error → Exc}
  {New : P → K → V → Prop} {instant bound : ℚ}

namespace Fleet

/-- What is in the database is new, or expires soon after the instant; and calls that began later
carry new values only. -/
structure Fresh (members : P → Member V) (hashing : Hashing K) (New : P → K → V → Prop)
    (instant bound : ℚ) (f : Fleet server P T K V Exc) : Prop where
  held : ∀ l item, f.db.live l = some item →
    (∃ t, item.expiresAt = some t ∧ t ≤ instant + bound) ∨
      ∀ p k v, (members p).redis.key hashing k = l →
        (members p).redis.serializer.loads item.value = .ok v → New p k v
  carried : ∀ p caller c, (f.systems p).calls caller = some c →
    instant + bound ≤ f.begunAt p caller → ∀ v, c.phase.carries v → New p c.key v
  begun : ∀ p caller c, (f.systems p).calls caller = some c → f.begunAt p caller ≤ f.db.now

omit [DecidableEq P] in
/-- A call that is there has begun before. -/
theorem not_begun {s s' : System T K V Exc (Database server)} {member : Member V}
    {a : Action T K V Exc Drift}
    (hstep : s.step (member.cache hashing scanning raise) a = some s') {caller : T}
    {c : Call K V Exc} (hc : s.calls caller = some c) : a.begun.map Prod.fst ≠ some caller := by
  cases System.step_cases hstep with
  | execute u key hnew | executeAsync u key hnew =>
      intro hu
      obtain rfl : u = caller := Option.some_inj.1 hu
      cases hnew.symm.trans hc
  | advance | invalidate | invalidateAll | drift => exact nofun

/-- Where a call in the state after a step comes from, and when it began. -/
theorem begunAt_cases {f f' : Fleet server P T K V Exc} {q : P} {a : Action T K V Exc Drift}
    (hstep : f.step members hashing scanning raise (q, a) = some f') {p : P} {caller : T}
    {d : Call K V Exc} (hd : (f'.systems p).calls caller = some d) :
    (f'.begunAt p caller = f.db.now ∧ ∀ v, ¬ d.phase.carries v) ∨
    ∃ c, (f.systems p).calls caller = some c ∧ f'.begunAt p caller = f.begunAt p caller ∧
      d.key = c.key ∧ ∀ v, d.phase.carries v → c.phase.carries v ∨ p = q ∧
        (∃ ev, a = .advance caller ev ∧
          ((members p).redis.Holds hashing f.db c.key v ∨ ev = .finish v)) := by
  obtain ⟨s, hs, -, hsystems, hbegun⟩ := step_cases hstep
  rw [hsystems] at hd
  by_cases hp : p = q
  case neg =>
    rw [Function.update_of_ne hp] at hd
    exact .inr ⟨d, hd, by rw [hbegun, if_neg fun h => hp h.1], rfl, fun v hv => .inl hv⟩
  subst hp
  rw [Function.update_self] at hd
  have hkept : ∀ {c}, (f.systems p).calls caller = some c →
      f'.begunAt p caller = f.begunAt p caller := fun hc => by
    rw [hbegun, if_neg fun h => not_begun hs hc h.2]
  cases System.call_cases hs hd with
  | begun hnew _ hpath =>
      rcases System.key_cases hs hd with hfirst | ⟨-, c, hc, -⟩
      · refine .inl ⟨by rw [hbegun, hfirst, if_pos ⟨rfl, rfl⟩], fun v hv => ?_⟩
        rcases System.phase_of_begun hpath with hph | hph | hph
        all_goals
          rw [hph] at hv
          exact hv
      · cases hnew.symm.trans hc
  | kept hd => exact .inr ⟨d, hd, hkept hd, rfl, fun v hv => .inl hv⟩
  | woken c hc _ hwoken =>
      refine .inr ⟨c, hc, hkept hc, by rw [hwoken], fun v hv => ?_⟩
      rw [hwoken] at hv
      exact hv.elim
  | advanced c ev m hc hact hcase hmoved =>
      refine .inr ⟨c, hc, hkept hc, by rw [hmoved], fun v hv => ?_⟩
      rw [hmoved] at hv
      rcases carries_advance (RedisBackend.lawful_get raise .sync)
        (RedisBackend.lawful_get raise .async) hcase hv with hv | hv
      · exact .inl hv
      · exact .inr ⟨rfl, ev, hact, hv⟩

omit [DecidableEq P] [DecidableEq T] [DecidableEq K] in
/-- Later than the bound after the instant, a lookup finds nothing but what is new. -/
theorem Fresh.found {f : Fleet server P T K V Exc} (h : f.Fresh members hashing New instant bound)
    (hlate : instant + bound ≤ f.db.now) {p : P} {k : K} {v : V}
    (hv : (members p).redis.Holds hashing f.db k v) : New p k v := by
  obtain ⟨item, hitem, hloads⟩ := hv
  rcases h.held _ item hitem with ⟨t, ht, hle⟩ | hnew
  · exact absurd (Database.now_lt_of_live hitem ht) (hle.trans hlate).not_gt
  · exact hnew p k v rfl hloads

/-- **Every step keeps a fleet fresh.** -/
theorem fresh_step (hcompatible : Compatible members hashing New)
    (httl : ∀ p, ∃ ttl, (members p).config.ttl = some ttl ∧ (toInt (max ttl 1) : ℚ) ≤ bound)
    {f f' : Fleet server P T K V Exc} (h : f.Fresh members hashing New instant bound)
    {step : P × Action T K V Exc Drift} (ha : Renewed New instant f step)
    (hstep : f.step members hashing scanning raise step = some f') :
    f'.Fresh members hashing New instant bound := by
  obtain ⟨q, a⟩ := step
  obtain ⟨s, hs, hdb, -, -⟩ := step_cases hstep
  have hnow : f.db.now ≤ f'.db.now := hdb ▸ now_le_of_step hs
  have hbound : 0 ≤ bound := by
    obtain ⟨ttl, -, hle⟩ := httl q
    have hseconds : (1 : ℤ) ≤ toInt (max ttl 1) := one_le_toInt.2 (le_max_right ttl 1)
    have : (1 : ℚ) ≤ (toInt (max ttl 1) : ℚ) := by exact_mod_cast hseconds
    linarith
  refine ⟨fun l item hitem => ?_, fun p caller d hd hlate v hv => ?_, fun p caller d hd => ?_⟩
  · rw [hdb] at hitem
    rcases live_of_step hs hitem with hitem | ⟨caller, ev, c, w, hact, hc, hstores, hkey, hdumps,
      hexpires⟩
    · exact h.held l item hitem
    · rcases le_or_gt instant f.db.now with hafter | hbefore
      · refine .inr fun p k v hp hloads => ?_
        obtain ⟨hpre, hdigest⟩ := key_eq_iff.1 (hp.trans hkey)
        exact hcompatible p q k c.key w v _ hpre hdigest
          ((ha hafter).2 caller ev hact c w hc hstores) hdumps hloads
      · obtain ⟨ttl, hsome, hle⟩ := httl q
        refine .inl ⟨_, hexpires ttl hsome, ?_⟩
        have hview : (f.view q).state.backend.now = f.db.now := rfl
        rw [hview]
        linarith
  · rcases begunAt_cases hstep hd with ⟨-, hnone⟩ | ⟨c, hc, hbegun, hkey, hcarries⟩
    · exact absurd hv (hnone v)
    · rw [hbegun] at hlate
      have hlater : instant + bound ≤ f.db.now := hlate.trans (h.begun p caller c hc)
      rw [hkey]
      rcases hcarries v hv with hv | ⟨rfl, ev, rfl, hv | rfl⟩
      · exact h.carried p caller c hc hlate v hv
      · exact h.found hlater hv
      · exact (ha (by linarith)).1 caller v rfl c hc
  · rcases begunAt_cases hstep hd with ⟨hbegun, -⟩ | ⟨c, hc, hbegun, -⟩
    · rw [hbegun]
      exact hnow
    · rw [hbegun]
      exact (h.begun p caller c hc).trans hnow

end Fleet

end Staleness

/-- **No call returns what is older than the time-to-live.**  Let all caches on a database, which
has none of their entries at first, store with a time-to-live that amounts to no more than some
bound of seconds.  If from some instant on functions return, and calls store, new values only, then
every call that begins the bound after the instant, or later, returns a new value, whichever cache
it uses and however the calls interleave. -/
theorem staleness_bounded [DecidableEq P] [DecidableEq T] [DecidableEq K] {Cls : Type z}
    [Exceptions Exc Cls] (members : P → Member V) (hashing : Hashing K) (scanning : Scanning server)
    (raise : Error → Exc) (db : Database server)
    (hempty : ∀ p k, db.live ((members p).redis.key hashing k) = none) (bound : ℚ)
    (httl : ∀ p, ∃ ttl, (members p).config.ttl = some ttl ∧ (toInt (max ttl 1) : ℚ) ≤ bound)
    (New : P → K → V → Prop) (hcompatible : Compatible members hashing New) (instant : ℚ)
    (steps : List (P × Action T K V Exc Drift)) (f : Fleet server P T K V Exc)
    (h : (fleet T members hashing scanning raise db).Run (Renewed New instant) steps f) (p : P)
    (caller : T) (c : Call K V Exc) (value : V) (hit : Bool)
    (hc : (f.systems p).calls caller = some c) (hphase : c.phase = .returned value hit)
    (hlate : instant + bound ≤ f.begunAt p caller) : New p c.key value := by
  have hfresh : f.Fresh members hashing New instant bound := by
    refine h.invariant (I := Fleet.Fresh members hashing New instant bound)
      ⟨fun l item hitem => .inr fun p k v hkey _ => ?_, nofun, nofun⟩
      fun _ _ _ _ _ hi ha hstep => Fleet.fresh_step hcompatible httl hi ha hstep
    cases (hempty p k).symm.trans (hkey ▸ hitem)
  exact hfresh.carried p caller c hc hlate value (by rw [hphase]; rfl)

/-- Caches with a time-to-live of five seconds. -/
def fiveSeconds (_ : Bool) : Member Bytes where
  config := { ttl := some 5, accepted := by decide +kernel }
  redis := backendAt "users:"

/-- What the call returned, and whether it was found. -/
def result : Phase V Exc → Option (V × Bool)
  | .returned value hit => some (value, hit)
  | _ => none

theorem result_eq_some {ph : Phase V Exc} {value : V} {hit : Bool}
    (h : result ph = some (value, hit)) : ph = .returned value hit := by
  cases ph with
  | returned v b =>
      obtain ⟨rfl, rfl⟩ := Prod.mk.inj (Option.some_inj.1 h)
      rfl
  | _ => cases h

/-- A process stores an old value, and six seconds later another one returns the new one. -/
theorem staleness_bounded_six_seconds_later :
    ∃ f : Fleet keyspace Bool Bool String Bytes Builtin, f.db.now = 6 ∧
      ∃ c hit, (f.systems true).calls true = some c ∧ c.phase = .returned [1] hit := by
  -- after the first second all functions return, and all calls store, `[1]`
  have hok : ∀ (f : Fleet keyspace Bool Bool String Bytes Builtin)
      (step : Bool × Action Bool String Bytes Builtin Drift),
      (decide (f.db.now < 1) || (step.2.finished.all fun v => v.2 == [1]) &&
        [false, true].all fun t => ((f.systems step.1).calls t).all fun c =>
          c.phase.toStore.all fun v => v == [1]) = true →
        Renewed (fun _ _ v => v = [1]) 1 f step := by
    intro f step htest hlate
    rw [decide_eq_false (not_lt.2 hlate), Bool.false_or, Bool.and_eq_true] at htest
    obtain ⟨hfinished, hstores⟩ := htest
    refine ⟨fun t v hv c _ => ?_, fun t _ _ c v hc hv => ?_⟩
    · rw [hv] at hfinished
      exact eq_of_beq hfinished
    · have hall := List.all_eq_true.1 hstores t (by cases t <;> decide)
      rw [hc, Option.all_some, hv] at hall
      exact eq_of_beq hall
  obtain ⟨f, hr, hf⟩ := Machine.exists_run_of_exec
    (fleet Bool fiveSeconds digestOfK onePage (fun _ => Builtin.runtimeError) .empty) _ hok
    [(false, .execute false "k"), (false, .advance false .turn),
      (false, .advance false (.finish [0])), (false, .advance false .turn),
      (true, .drift (.wait 6)), (true, .execute true "k"), (true, .advance true .turn),
      (true, .advance true (.finish [1])), (true, .advance true .turn)]
    (fun f => decide (f.db.now = 6 ∧ f.begunAt true true = 6) &&
      ((f.systems true).calls true).any fun c => (result c.phase).isSome) (by decide +kernel)
  obtain ⟨hclock, hcall⟩ := Bool.and_eq_true_iff.1 hf
  obtain ⟨hnow, hbegun⟩ := of_decide_eq_true hclock
  obtain ⟨c, hc, hresult⟩ := (Option.any_eq_true _ _).1 hcall
  obtain ⟨⟨value, hit⟩, hresult⟩ := Option.isSome_iff_exists.1 hresult
  have hphase := result_eq_some hresult
  obtain rfl : value = [1] := staleness_bounded fiveSeconds digestOfK onePage
    (fun _ => Builtin.runtimeError) .empty (fun _ _ => rfl) 5
    (fun _ => ⟨5, rfl, by decide +kernel⟩) (fun _ _ v => v = [1])
    (fun p q k l v w raw _ _ hv hdumps hloads => by
      rw [← Except.ok.inj hloads, ← Except.ok.inj hdumps, hv]) 1 _ f hr true true c value hit hc
    hphase (by rw [hbegun]; norm_num)
  exact ⟨f, hnow, c, hit, hc, hphase⟩

end Redis
