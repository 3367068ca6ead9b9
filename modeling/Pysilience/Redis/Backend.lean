/-
`RedisBackend`, the cache backend that stores its entries in a Redis database.

The synchronous and the asynchronous methods differ in nothing but the client they require, so each
pair is one function of the mode.  The result of a method is a value or an exception; a lookup
returns `none` where the source returns the sentinel `_MISS`.

Main definitions:

* `Redis.Hashing` — `repr` and the SHA-256 hex digest;
* `Redis.RedisBackend` — a backend that was constructed;
* `Redis.RedisBackend.get`, `Redis.RedisBackend.put`, `Redis.RedisBackend.delete`,
  `Redis.RedisBackend.clear` — its methods;
* `Redis.RedisBackend.perform` — one method call, and its reply.

Main results:

* `Redis.serialiseKey_inj` — backends with different prefixes have no key in common;
* `Redis.RedisBackend.live_clear` — what is there after `clear`.
-/

import Pysilience.Redis.Database
import Pysilience.Lib.Python

set_option relaxedAutoImplicit false
set_option autoImplicit false

namespace Redis

open Glob Serializers

universe u v

/-! ### Keys -/

/-- The functions that turn a key into a digest: `repr`, and `sha256(…).hexdigest()`, which always
has 64 digits. -/
structure Hashing (K : Type u) where
  repr : K → String
  sha256 : Bytes → String
  length_sha256 : ∀ data, (sha256 data).length = 64

variable {K : Type u} {V : Type v} {server : Server}

/-- The digest of a key. -/
def Hashing.digest (hashing : Hashing K) (key : K) : String :=
  hashing.sha256 (encode (hashing.repr key))

/-- `_serialise_key`. -/
def serialiseKey (hashing : Hashing K) (key : K) (keyPrefix : String) : String :=
  keyPrefix ++ hashing.digest key

/-- Keys under different prefixes are different. -/
theorem serialiseKey_inj (hashing : Hashing K) {key key' : K} {keyPrefix keyPrefix' : String}
    (h : serialiseKey hashing key keyPrefix = serialiseKey hashing key' keyPrefix') :
    keyPrefix = keyPrefix' := by
  have hlen : (hashing.digest key).toList.length = (hashing.digest key').toList.length := by
    rw [String.length_toList, String.length_toList, Hashing.digest, Hashing.digest,
      hashing.length_sha256, hashing.length_sha256]
  have hlist := congrArg String.toList h
  rw [serialiseKey, serialiseKey, String.toList_append, String.toList_append] at hlist
  exact String.toList_inj.1 (List.append_inj_left' hlist hlen)

/-! ### The backend -/

/-- Which of the two clients a method uses. -/
inductive Mode
  | sync | async
  deriving DecidableEq, Repr

/-- A backend: its prefix, its serializer, and which clients it was given. -/
structure RedisBackend (V : Type v) where
  keyPrefix : String := "pysilience:"
  serializer : CacheSerializer V
  sync : Bool
  async : Bool
  /-- The constructor insists on a client. -/
  clients : (sync || async) = true

namespace RedisBackend

/-- `RedisBackend.__init__`. -/
def init (sync async : Bool) (keyPrefix : String) (serializer : CacheSerializer V) :
    Except Error (RedisBackend V) :=
  if h : (sync || async) = true then .ok ⟨keyPrefix, serializer, sync, async, h⟩
  else
    .error ⟨.valueError, [.text "At least one of sync_client or async_client must be provided"]⟩

variable (backend : RedisBackend V)

/-- `_require_sync` and `_require_async`. -/
def require : Mode → Except Error Unit
  | .sync =>
      if backend.sync then .ok ()
      else
        .error ⟨.runtimeError, [.text ("Sync Redis client not available. " ++
          "Provide sync_client to RedisBackend or use async methods.")]⟩
  | .async =>
      if backend.async then .ok ()
      else
        .error ⟨.runtimeError, [.text ("Async Redis client not available. " ++
          "Provide async_client to RedisBackend or use sync methods.")]⟩

/-- A client that was given. -/
theorem exists_mode : ∃ mode, backend.require mode = .ok () := by
  rcases Bool.or_eq_true_iff.1 backend.clients with h | h
  · exact ⟨.sync, by simp [require, h]⟩
  · exact ⟨.async, by simp [require, h]⟩

/-- `_load`: a `ValueError` is a miss. -/
def load (raw : Bytes) : Except Error (Option V) :=
  match backend.serializer.loads raw with
  | .ok value => .ok (some value)
  | .error e => if e.cls.isValueError then .ok none else .error e

variable (hashing : Hashing K)

/-- `_key`. -/
def key (key : K) : String := serialiseKey hashing key backend.keyPrefix

/-- `get` and `aget`. -/
def get (mode : Mode) (db : Database server) (key : K) : Except Error (Option V) :=
  match backend.require mode with
  | .error e => .error e
  | .ok () =>
      match db.get (backend.key hashing key) with
      | none => .ok none
      | some raw => backend.load raw

/-- `put` and `aput`. -/
def put (mode : Mode) (db : Database server) (key : K) (value : V) (ttl : Option ℚ) :
    Except Error Unit × Database server :=
  match backend.require mode, backend.serializer.dumps value with
  | .error e, _ => (.error e, db)
  | .ok (), .error e => (.error e, db)
  | .ok (), .ok data =>
      match ttl with
      | some ttl => (.ok (), db.setex (backend.key hashing key) (Python.toInt (max ttl 1)) data)
      | none => (.ok (), db.set (backend.key hashing key) data)

/-- The time-to-live that `put` asks for is positive. -/
theorem seconds_pos (ttl : ℚ) : 0 < Python.toInt (max ttl 1) :=
  Int.one_pos.trans_le (Python.one_le_toInt.2 (le_max_right ttl 1))

/-- `delete` and `adelete`. -/
def delete (mode : Mode) (db : Database server) (key : K) : Except Error Bool × Database server :=
  match backend.require mode with
  | .error e => (.error e, db)
  | .ok () =>
      let (count, db') := db.delete [backend.key hashing key]
      (.ok (decide (0 < count)), db')

/-- The pattern of `clear` and `aclear`. -/
def pattern : String := backend.keyPrefix ++ "*"

/-- `clear` and `aclear`: the keys of every page are deleted. -/
def clear (scanning : Scanning server) (n : ℕ) (mode : Mode) (db : Database server) :
    Except Error Unit × Database server :=
  match backend.require mode with
  | .error e => (.error e, db)
  | .ok () =>
      (.ok (), (scanning.pages n db backend.pattern).foldl
        (fun db keys => if keys.isEmpty then db else (db.delete keys).2) db)

end RedisBackend

/-! ### What is there after `clear` -/

theorem foldl_delete_now (pages : List (List String)) (db : Database server) :
    (pages.foldl (fun db keys => if keys.isEmpty then db else (db.delete keys).2) db).now =
      db.now := by
  induction pages generalizing db with
  | nil => rfl
  | cons keys pages ih =>
      rw [List.foldl_cons, ih]
      split
      · rfl
      · exact db.delete_now keys

theorem live_foldl_delete (pages : List (List String)) (db : Database server) (l : String) :
    (pages.foldl (fun db keys => if keys.isEmpty then db else (db.delete keys).2) db).live l =
      if ∃ keys ∈ pages, l ∈ keys then none else db.live l := by
  induction pages generalizing db with
  | nil => simp
  | cons keys pages ih =>
      have hpage : (if keys.isEmpty then db else (db.delete keys).2).live l =
          if l ∈ keys then none else db.live l := by
        cases keys with
        | nil => simp
        | cons key keys => exact db.live_delete (key :: keys) l
      rw [List.foldl_cons, ih, hpage]
      by_cases hl : l ∈ keys
      · simp [hl]
      · simp [hl]

namespace RedisBackend

variable (backend : RedisBackend V)

/-- After `clear` the keys that match the pattern are gone, and all others are untouched. -/
theorem live_clear (scanning : Scanning server) (n : ℕ) {mode : Mode}
    (h : backend.require mode = .ok ()) (db : Database server) (l : String) :
    (backend.clear scanning n mode db).2.live l =
      if glob (encode backend.pattern) (encode l) then none else db.live l := by
  simp only [clear, h]
  rw [live_foldl_delete]
  by_cases hmatch : glob (encode backend.pattern) (encode l) = true
  · rw [if_pos hmatch]
    split
    · rfl
    · next hnone =>
      -- a matching key that is on no page was not there
      cases hl : db.live l with
      | none => rfl
      | some item =>
          exact absurd (scanning.complete n db _ l (by rw [hl]; rfl) hmatch) hnone
  · rw [if_neg hmatch, if_neg]
    rintro ⟨keys, hkeys, hl⟩
    exact hmatch (scanning.selects n db _ keys hkeys l hl)

/-! ### What a lookup finds that was stored -/

/-- What was stored is there, and it does not expire at once. -/
theorem database_get_put (hashing : Hashing K) {mode : Mode} (hmode : backend.require mode = .ok ())
    (db : Database server) (key : K) {value : V} {raw : Bytes}
    (hraw : backend.serializer.dumps value = .ok raw) (ttl : Option ℚ) :
    (backend.put hashing mode db key value ttl).1 = .ok () ∧
      (backend.put hashing mode db key value ttl).2.get (backend.key hashing key) = some raw := by
  cases ttl with
  | none =>
      simp only [put, hmode, hraw, Database.get, Database.live_set, if_true, Option.map_some,
        true_and]
  | some ttl =>
      simp only [put, hmode, hraw, Database.get, Database.live_setex _ _ _ (seconds_pos ttl),
        if_true, Option.map_some, true_and]

/-- A lookup loads what was stored. -/
theorem get_put (hashing : Hashing K) {mode : Mode} (hmode : backend.require mode = .ok ())
    (db : Database server) (key : K) {value : V} {raw : Bytes}
    (hraw : backend.serializer.dumps value = .ok raw) (ttl : Option ℚ) :
    backend.get hashing mode (backend.put hashing mode db key value ttl).2 key =
      backend.load raw := by
  simp only [get, hmode, (backend.database_get_put hashing hmode db key hraw ttl).2]

end RedisBackend

/-! ### Method calls -/

/-- A method call. -/
inductive Operation (K : Type u) (V : Type v)
  | get (mode : Mode) (key : K)
  | put (mode : Mode) (key : K) (value : V) (ttl : Option ℚ)
  | delete (mode : Mode) (key : K)
  | clear (mode : Mode) (n : ℕ)

/-- What a method call returns or raises. -/
inductive Reply (V : Type v)
  | got (result : Except Error (Option V))
  | deleted (result : Except Error Bool)
  | done (result : Except Error Unit)
  deriving DecidableEq

/-- One method call: its reply and the database it leaves. -/
def RedisBackend.perform (backend : RedisBackend V) (hashing : Hashing K)
    (scanning : Scanning server) (db : Database server) : Operation K V → Reply V × Database server
  | .get mode key => (.got (backend.get hashing mode db key), db)
  | .put mode key value ttl =>
      let (result, db') := backend.put hashing mode db key value ttl
      (.done result, db')
  | .delete mode key =>
      let (result, db') := backend.delete hashing mode db key
      (.deleted result, db')
  | .clear mode n =>
      let (result, db') := backend.clear scanning n mode db
      (.done result, db')

end Redis
