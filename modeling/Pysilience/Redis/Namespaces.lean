/-
Do two backends with different prefixes keep out of each other's way?

The prefix is there to set the entries of one backend apart from those of another on the same
database.  The methods that address one key do keep them apart, because every digest has the same
length.  `clear` does not address keys: it removes what the glob pattern `prefix + "*"` selects.
The two backends are therefore isolated exactly when this pattern selects no key of the other one,
which fails when the one prefix extends the other, and also, because nothing in the prefix is
escaped, when the pattern happens to select it otherwise.

Main definitions:

* `Redis.Event`, `Redis.replies` — method calls through two backends, and what the second one sees;
* `Redis.Agree` — two databases between which a backend cannot tell the difference.

Main results:

* `Redis.pattern_selects_iff` — what a prefix without special characters selects;
* `Redis.namespaces_isolated_iff` — **when the namespaces are isolated**;
* `Redis.not_namespaces_isolated` — a prefix that looks like a pattern.
-/

import Pysilience.Redis.Backend

set_option relaxedAutoImplicit false
set_option autoImplicit false

namespace Redis

open Glob Serializers

universe u v w

variable {K : Type u} {V : Type v} {W : Type w} {server : Server}

/-! ### Two backends on one database -/

/-- A method call through the first or the second backend, or the passing of time. -/
inductive Event (K : Type u) (V : Type v) (W : Type w)
  | first (op : Operation K V)
  | second (op : Operation K W)
  | wait (d : ℚ≥0)

def Event.isFirst : Event K V W → Bool
  | .first _ => true
  | _ => false

variable (one : RedisBackend V) (two : RedisBackend W) (hashing : Hashing K)
  (scanning : Scanning server)

/-- What the second backend replies in the course of the events. -/
def replies : Database server → List (Event K V W) → List (Reply W)
  | _, [] => []
  | db, .first op :: events => replies (one.perform hashing scanning db op).2 events
  | db, .second op :: events =>
      (two.perform hashing scanning db op).1 ::
        replies (two.perform hashing scanning db op).2 events
  | db, .wait d :: events => replies (db.wait d) events

/-- The databases agree on the keys of the backend. -/
structure Agree (db db' : Database server) : Prop where
  now : db.now = db'.now
  live : ∀ key : K, db.live (two.key hashing key) = db'.live (two.key hashing key)

variable {one two hashing scanning}

theorem Agree.refl (db : Database server) : Agree two hashing db db := ⟨rfl, fun _ => rfl⟩

theorem Agree.trans {db db' db'' : Database server} (h : Agree two hashing db db')
    (h' : Agree two hashing db' db'') : Agree two hashing db db'' :=
  ⟨h.now.trans h'.now, fun key => (h.live key).trans (h'.live key)⟩

theorem Agree.wait {db db' : Database server} (h : Agree two hashing db db') (d : ℚ≥0) :
    Agree two hashing (db.wait d) (db'.wait d) := by
  refine ⟨?_, fun key => ?_⟩
  · rw [Database.wait_now, Database.wait_now, h.now]
  · rw [Database.live_wait, Database.live_wait, h.live, h.now]

/-! ### Calls through the second backend -/

theorem get_agree {db db' : Database server} (h : Agree two hashing db db') (mode : Mode)
    (key : K) :
    two.get hashing mode db key = two.get hashing mode db' key := by
  simp only [RedisBackend.get, Database.get, h.live]

theorem put_agree {db db' : Database server} (h : Agree two hashing db db') (mode : Mode) (key : K)
    (value : W) (ttl : Option ℚ) :
    (two.put hashing mode db key value ttl).1 = (two.put hashing mode db' key value ttl).1 ∧
      Agree two hashing (two.put hashing mode db key value ttl).2
        (two.put hashing mode db' key value ttl).2 := by
  unfold RedisBackend.put
  split
  · exact ⟨rfl, h⟩
  · exact ⟨rfl, h⟩
  · cases ttl with
    | some ttl =>
        have hseconds := RedisBackend.seconds_pos ttl
        refine ⟨rfl, by simp only [Database.setex_now, h.now], fun key' => ?_⟩
        rw [Database.live_setex _ _ _ hseconds, Database.live_setex _ _ _ hseconds, h.live, h.now]
    | none =>
        refine ⟨rfl, by simp only [Database.set_now, h.now], fun key' => ?_⟩
        rw [Database.live_set, Database.live_set, h.live]

theorem delete_agree {db db' : Database server} (h : Agree two hashing db db') (mode : Mode)
    (key : K) :
    (two.delete hashing mode db key).1 = (two.delete hashing mode db' key).1 ∧
      Agree two hashing (two.delete hashing mode db key).2 (two.delete hashing mode db' key).2 := by
  unfold RedisBackend.delete
  split
  · exact ⟨rfl, h⟩
  · refine ⟨?_, ?_, fun key' => ?_⟩
    · simp only [Database.delete_singleton, h.live]
    · simp only [Database.delete_now, h.now]
    · simp only [Database.live_delete, h.live]

variable (scanning) in
theorem clear_agree {db db' : Database server} (h : Agree two hashing db db') (mode : Mode)
    (n : ℕ) :
    (two.clear scanning n mode db).1 = (two.clear scanning n mode db').1 ∧
      Agree two hashing (two.clear scanning n mode db).2 (two.clear scanning n mode db').2 := by
  cases hmode : two.require mode with
  | error e =>
      simp only [RedisBackend.clear, hmode]
      exact ⟨trivial, h⟩
  | ok _ =>
      refine ⟨by simp only [RedisBackend.clear, hmode], ?_, fun key => ?_⟩
      · simp only [RedisBackend.clear, hmode, foldl_delete_now, h.now]
      · rw [two.live_clear scanning n hmode, two.live_clear scanning n hmode, h.live]

variable (scanning) in
/-- What the second backend replies, and what it leaves, depends on what is under its keys. -/
theorem perform_agree {db db' : Database server} (h : Agree two hashing db db')
    (op : Operation K W) :
    (two.perform hashing scanning db op).1 = (two.perform hashing scanning db' op).1 ∧
      Agree two hashing (two.perform hashing scanning db op).2
        (two.perform hashing scanning db' op).2 := by
  cases op with
  | get mode key => exact ⟨congrArg Reply.got (get_agree h mode key), h⟩
  | put mode key value ttl =>
      obtain ⟨h1, h2⟩ := put_agree h mode key value ttl
      exact ⟨congrArg Reply.done h1, h2⟩
  | delete mode key =>
      obtain ⟨h1, h2⟩ := delete_agree h mode key
      exact ⟨congrArg Reply.deleted h1, h2⟩
  | clear mode n =>
      obtain ⟨h1, h2⟩ := clear_agree scanning h mode n
      exact ⟨congrArg Reply.done h1, h2⟩

/-! ### Calls through the first backend -/

/-- The pattern of the first backend selects no key of the second one. -/
def Apart (one : RedisBackend V) (two : RedisBackend W) (hashing : Hashing K) : Prop :=
  ∀ key : K, glob (encode one.pattern) (encode (two.key hashing key)) = false

theorem key_ne (hne : one.keyPrefix ≠ two.keyPrefix) (key key' : K) :
    two.key hashing key' ≠ one.key hashing key :=
  fun h => hne (serialiseKey_inj hashing h).symm

/-- Storing and deleting under a key of the first backend. -/
theorem perform_frame (hne : one.keyPrefix ≠ two.keyPrefix) (hapart : Apart one two hashing)
    (db : Database server) (op : Operation K V) :
    Agree two hashing (one.perform hashing scanning db op).2 db := by
  cases op with
  | get mode key => exact .refl db
  | put mode key value ttl =>
      simp only [RedisBackend.perform, RedisBackend.put]
      split
      · exact .refl db
      · exact .refl db
      · cases ttl with
        | some ttl =>
            refine ⟨db.setex_now _ _ _, fun key' => ?_⟩
            rw [db.live_setex _ _ (RedisBackend.seconds_pos ttl), if_neg (key_ne hne key key')]
        | none =>
            refine ⟨db.set_now _ _, fun key' => ?_⟩
            rw [db.live_set, if_neg (key_ne hne key key')]
  | delete mode key =>
      simp only [RedisBackend.perform, RedisBackend.delete]
      split
      · exact .refl db
      · refine ⟨db.delete_now _, fun key' => ?_⟩
        rw [Database.live_delete, if_neg]
        exact fun hmem => key_ne hne key key' (List.mem_singleton.1 hmem)
  | clear mode n =>
      cases hmode : one.require mode with
      | error e =>
          simp only [RedisBackend.perform, RedisBackend.clear, hmode]
          exact .refl db
      | ok _ =>
          refine ⟨?_, fun key => ?_⟩
          · simp only [RedisBackend.perform, RedisBackend.clear, hmode, foldl_delete_now]
          · simp only [RedisBackend.perform]
            rw [one.live_clear scanning n hmode, if_neg]
            rw [hapart key]
            exact Bool.false_ne_true

/-- The calls through the first backend can be left out. -/
theorem replies_filter (hne : one.keyPrefix ≠ two.keyPrefix) (hapart : Apart one two hashing)
    (events : List (Event K V W)) : ∀ {db db' : Database server}, Agree two hashing db db' →
      replies one two hashing scanning db events =
        replies one two hashing scanning db' (events.filter fun event => !event.isFirst) := by
  induction events with
  | nil =>
      intro db db' _
      rfl
  | cons event events ih =>
      intro db db' h
      cases event with
      | first op => exact ih ((perform_frame hne hapart db op).trans h)
      | second op =>
          obtain ⟨hreply, hleft⟩ := perform_agree scanning h op
          rw [List.filter_cons_of_pos rfl, replies, replies, hreply, ih hleft]
      | wait d => exact ih (h.wait d)

/-! ### What a prefix selects -/

/-- **A prefix without special characters** selects the keys it is a prefix of. -/
theorem pattern_selects_iff (h : ∀ c ∈ encode one.keyPrefix, literal c = true) (key : K) :
    glob (encode one.pattern) (encode (two.key hashing key)) = true ↔
      encode one.keyPrefix <+: encode (two.key hashing key) := by
  have hstar : encode "*" = [byte '*'] := by decide +kernel
  rw [RedisBackend.pattern, encode_append, hstar]
  exact glob_literal_star h _

/-! ### Isolation -/

/-- A call of `clear` through the first backend removes what is under a key its pattern selects. -/
theorem live_clear_of_selected {mode : Mode} (hmode : one.require mode = .ok ()) (n : ℕ)
    (db : Database server) {key : K}
    (h : glob (encode one.pattern) (encode (two.key hashing key)) = true) :
    (one.clear scanning n mode db).2.live (two.key hashing key) = none := by
  rw [one.live_clear scanning n hmode, if_pos h]

/-- **When the namespaces of two backends are isolated.**  Let the prefixes be different.  Whatever
is in the database, and in whatever order calls through both backends and the passing of time
follow one another, the second backend sees what it would see without the calls through the first
one, exactly when the glob pattern that the first one clears selects no key of the second.  Where
it selects one, a value that a lookup finds there is gone after the first backend was cleared. -/
theorem namespaces_isolated_iff (one : RedisBackend V) (two : RedisBackend W)
    (hashing : Hashing K) (scanning : Scanning server) (hne : one.keyPrefix ≠ two.keyPrefix) :
    ((∀ (db : Database server) (events : List (Event K V W)),
      replies one two hashing scanning db events =
        replies one two hashing scanning db (events.filter fun event => !event.isFirst)) ↔
      ∀ key : K, glob (encode (one.keyPrefix ++ "*"))
        (encode (two.keyPrefix ++ hashing.digest key)) = false) ∧
    ∀ key : K, glob (encode (one.keyPrefix ++ "*"))
        (encode (two.keyPrefix ++ hashing.digest key)) = true →
      ∀ (db : Database server) (mode mode' : Mode) (n : ℕ) (value : W), one.require mode = .ok () →
        two.get hashing mode' db key = .ok (some value) →
        two.get hashing mode' (one.clear scanning n mode db).2 key = .ok none := by
  refine ⟨⟨?_, ?_⟩, ?_⟩
  · intro h key
    by_contra hmatch
    rw [Bool.not_eq_false] at hmatch
    obtain ⟨mode, hmode⟩ := one.exists_mode
    obtain ⟨mode', hmode'⟩ := two.exists_mode
    -- the first backend clears an entry of the second one, which is then not there to be deleted
    let db : Database server := Database.empty.set (two.key hashing key) []
    have hlive : db.live (two.key hashing key) = some ⟨[], none⟩ := by
      rw [Database.live_set, if_pos rfl]
    have hgone : (one.clear scanning 0 mode db).2.live (two.key hashing key) = none :=
      live_clear_of_selected hmode 0 db hmatch
    have hreplies := h db [.first (.clear mode 0), .second (.delete mode' key)]
    simp [replies, Event.isFirst, RedisBackend.perform, RedisBackend.delete,
      Database.delete_singleton, hmode', hlive, hgone] at hreplies
  · intro hapart db events
    exact replies_filter hne hapart events (.refl db)
  · intro key hmatch db mode mode' n value hmode hget
    have hgone : (one.clear scanning n mode db).2.live (two.key hashing key) = none :=
      live_clear_of_selected hmode n db hmatch
    have hmode' : two.require mode' = .ok () := by
      cases hrequire : two.require mode' with
      | error e => simp [RedisBackend.get, hrequire] at hget
      | ok _ => rfl
    simp [RedisBackend.get, Database.get, hmode', hgone]

/-! ### Two runs -/

/-- A serializer that stores byte strings as they are. -/
def verbatim : CacheSerializer Bytes := ⟨.ok, .ok⟩

/-- A backend for byte strings with a synchronous client. -/
def backendAt (keyPrefix : String) : RedisBackend Bytes where
  keyPrefix := keyPrefix
  serializer := verbatim
  sync := true
  async := false
  clients := rfl

/-- The `repr` of a string without special characters, and the digest of that of `"k"`. -/
def digestOfK : Hashing String where
  repr key := "'" ++ key ++ "'"
  sha256 _ := "a738aa886156530462932dac1ed5dfe2319939f88e341f92b0045f3872b5c3d2"
  length_sha256 _ := by decide +kernel

/-- The digests of `"a"` and `"b"`. -/
def digestsOfTwo : Hashing String where
  repr key := "'" ++ key ++ "'"
  sha256 data :=
    if data = encode "'a'" then "d749929fe94b9a37dbe5d74cb297ad24b46e467898545f4e109eb21835046ac4"
    else "fa34b15a4eb8e91ebeff64edba51d21905e1ac8ce2bff8865da08055bced0dd4"
  length_sha256 data := by
    split
    · decide +kernel
    · decide +kernel

/-- Two backends that are isolated, although a call through the first clears its entries. -/
theorem namespaces_isolated_for_two_applications :
    let events : List (Event String Bytes Bytes) :=
      [.second (.put .sync "k" [1] none), .first (.put .sync "k" [2] (some 5)), .wait 1,
        .first (.clear .sync 0), .second (.get .sync "k")]
    replies (backendAt "users:") (backendAt "orders:") digestOfK onePage .empty events =
      replies (backendAt "users:") (backendAt "orders:") digestOfK onePage .empty
        (events.filter fun event => !event.isFirst) := by
  intro events
  refine (namespaces_isolated_iff (backendAt "users:") (backendAt "orders:") digestOfK onePage
    (by decide)).1.2 ?_ .empty events
  intro key
  change glob (encode "users:*") (encode ("orders:" ++ digestOfK.sha256 [])) = false
  decide +kernel

/-- The prefix `shard[12]:` reads as a pattern that selects the keys under `shard1:`. -/
theorem not_namespaces_isolated :
    (backendAt "shard[12]:").keyPrefix ≠ (backendAt "shard1:").keyPrefix ∧
      ¬ ∀ (db : Database keyspace) (events : List (Event String Bytes Bytes)),
        replies (backendAt "shard[12]:") (backendAt "shard1:") digestOfK onePage db events =
          replies (backendAt "shard[12]:") (backendAt "shard1:") digestOfK onePage db
            (events.filter fun event => !event.isFirst) := by
  refine ⟨by decide, fun h => ?_⟩
  have hrun := h .empty
    [.second (.put .sync "k" [1] none), .first (.clear .sync 0), .second (.get .sync "k")]
  exact absurd hrun (by decide +kernel)

end Redis
