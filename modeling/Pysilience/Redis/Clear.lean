/-
Does `clear` remove everything that a backend has stored?

Entries are stored under the prefix, as it is, followed by a digest.  `clear` reads the same prefix
as the beginning of a glob pattern.  A wildcard in it still matches itself; a bracket class or a
backslash usually does not, and then nothing is removed.

Main definitions:

* `Redis.RedisBackend.covers` — the pattern of a backend matches the key of an entry;
* `Redis.RedisBackend.performAll` — calls through a backend, one after the other.

Main results:

* `Redis.RedisBackend.get_clear` — what a lookup finds after `clear`;
* `Redis.RedisBackend.covers_of_plain` — a prefix without brackets and backslashes;
* `Redis.clear_complete_iff` — **when `clear` is complete**;
* `Redis.not_clear_complete` — a prefix with brackets.
-/

import Pysilience.Redis.Namespaces

set_option relaxedAutoImplicit false
set_option autoImplicit false

namespace Redis

open Glob Serializers

universe u v

variable {K : Type u} {V : Type v} {server : Server}

namespace RedisBackend

variable (backend : RedisBackend V) (hashing : Hashing K)

/-- The pattern of `clear` matches the string under which an entry is stored. -/
def covers (key : K) : Bool := glob (encode backend.pattern) (encode (backend.key hashing key))

/-- What is in the database after calls through the backend. -/
def performAll (scanning : Scanning server) (ops : List (Operation K V)) (db : Database server) :
    Database server :=
  ops.foldl (fun db op => (backend.perform hashing scanning db op).2) db

variable {backend hashing}

/-! ### What a lookup finds after `clear` -/

/-- After `clear` a lookup misses what the pattern covers, and otherwise finds what it found
before. -/
theorem get_clear (scanning : Scanning server) (n : ℕ) {mode mode' : Mode}
    (hmode : backend.require mode = .ok ()) (hmode' : backend.require mode' = .ok ())
    (db : Database server) (key : K) :
    backend.get hashing mode' (backend.clear scanning n mode db).2 key =
      if backend.covers hashing key then .ok none else backend.get hashing mode' db key := by
  have hlive := backend.live_clear scanning n hmode db (backend.key hashing key)
  rw [covers]
  split at hlive
  · next hcovers =>
    simp only [get, hmode', Database.get, hlive, if_pos hcovers, Option.map_none]
  · next hcovers => simp only [get, hmode', Database.get, hlive, if_neg hcovers]

/-- **After `clear` all lookups miss exactly if the pattern covers what they found before.** -/
theorem forall_get_clear_iff (scanning : Scanning server) (n : ℕ) {mode mode' : Mode}
    (hmode : backend.require mode = .ok ()) (hmode' : backend.require mode' = .ok ())
    (db : Database server) :
    (∀ key : K, backend.get hashing mode' (backend.clear scanning n mode db).2 key = .ok none) ↔
      ∀ key : K, backend.get hashing mode' db key ≠ .ok none →
        backend.covers hashing key = true := by
  refine forall_congr' fun key => ?_
  rw [get_clear scanning n hmode hmode']
  by_cases hcovers : backend.covers hashing key = true
  · rw [if_pos hcovers]
    exact iff_of_true rfl fun _ => hcovers
  · rw [if_neg hcovers]
    exact ⟨fun hmiss hfound => absurd hmiss hfound,
      fun h => by_contra fun hfound => hcovers (h hfound)⟩

/-! ### Prefixes without brackets and backslashes -/

/-- A character that does not occur in a string does not occur in its encoding. -/
theorem byte_not_mem_encode {s : String} {c : Char} (hc : c ∉ s.toList)
    (hbyte : (byte c).toNat = c.toNat) (hlt : c.toNat < 128) : byte c ∉ encode s := by
  intro hmem
  obtain ⟨d, hd, heq⟩ := exists_mem_of_mem_encode hmem (hbyte ▸ hlt)
  rw [hbyte] at heq
  exact hc (Char.toNat_inj.1 heq ▸ hd)

/-- **The pattern covers every key if the prefix has no brackets and no backslashes.** -/
theorem covers_of_plain (hbracket : '[' ∉ backend.keyPrefix.toList)
    (hbackslash : '\\' ∉ backend.keyPrefix.toList) (key : K) :
    backend.covers hashing key = true := by
  have hstar : encode "*" = [byte '*'] := by decide +kernel
  rw [covers, pattern, RedisBackend.key, serialiseKey, encode_append, encode_append, hstar]
  refine glob_plain_star (fun c hc => ?_) _
  rw [plain, Bool.and_eq_true, bne_iff_ne, bne_iff_ne]
  constructor
  · rintro rfl
    exact byte_not_mem_encode hbracket (by decide) (by decide) hc
  · rintro rfl
    exact byte_not_mem_encode hbackslash (by decide) (by decide) hc

end RedisBackend

/-! ### When `clear` is complete -/

/-- **When `clear` is complete.**  Let a backend be constructed with any prefix, and let any calls
be made through it, whatever else is in the database.  After `clear` or `aclear`, with no concurrent
writers, every lookup through the backend is a miss if and only if, for every key that is stored
until then, the prefix followed by `*`, read as a glob pattern, matches the prefix followed by the
digest of the key.  It does so for all keys if the prefix contains neither `[` nor a backslash. -/
theorem clear_complete_iff (hashing : Hashing K) (scanning : Scanning server) (sync async : Bool)
    (keyPrefix : String) (serializer : CacheSerializer V) (backend : RedisBackend V)
    (hinit : RedisBackend.init sync async keyPrefix serializer = .ok backend)
    (mode mode' : Mode) (hmode : backend.require mode = .ok ())
    (hmode' : backend.require mode' = .ok ()) (db : Database server) (ops : List (Operation K V))
    (n : ℕ) :
    ((∀ key : K, backend.get hashing mode' (backend.clear scanning n mode
        (backend.performAll hashing scanning ops db)).2 key = .ok none) ↔
      ∀ key : K,
        backend.get hashing mode' (backend.performAll hashing scanning ops db) key ≠ .ok none →
        glob (encode (keyPrefix ++ "*")) (encode (keyPrefix ++ hashing.digest key)) = true) ∧
    ('[' ∉ keyPrefix.toList → '\\' ∉ keyPrefix.toList → ∀ key : K,
      glob (encode (keyPrefix ++ "*")) (encode (keyPrefix ++ hashing.digest key)) = true) := by
  have hprefix : backend.keyPrefix = keyPrefix := by
    rw [RedisBackend.init] at hinit
    split at hinit
    · obtain rfl := Except.ok.inj hinit
      rfl
    · cases hinit
  subst hprefix
  exact ⟨RedisBackend.forall_get_clear_iff scanning n hmode hmode' _,
    RedisBackend.covers_of_plain⟩

/-- A prefix with wildcards: two entries are found under their digests, and neither is after
`clear`. -/
theorem clear_complete_with_wildcards :
    let backend := backendAt "cache-?*:"
    let db := backend.performAll digestsOfTwo onePage
      [.put .sync "a" [1] none, .put .sync "b" [2] (some 5)] .empty
    (backend.get digestsOfTwo .sync db "a" = .ok (some [1]) ∧
      backend.get digestsOfTwo .sync db "b" = .ok (some [2])) ∧
    ∀ key : String,
      backend.get digestsOfTwo .sync (backend.clear onePage 0 .sync db).2 key = .ok none := by
  have hcomplete := clear_complete_iff digestsOfTwo onePage true false "cache-?*:" verbatim
    (backendAt "cache-?*:") rfl .sync .sync rfl rfl .empty
    [.put .sync "a" [1] none, .put .sync "b" [2] (some 5)] 0
  exact ⟨by decide +kernel, hcomplete.1.2 fun key _ => hcomplete.2 (by decide) (by decide) key⟩

/-- **A prefix with brackets**: an entry that was stored under it is still found after `clear`. -/
theorem not_clear_complete :
    RedisBackend.init true false "app[1]:" verbatim = .ok (backendAt "app[1]:") ∧
    (backendAt "app[1]:").get digestOfK .sync ((backendAt "app[1]:").clear onePage 0 .sync
      ((backendAt "app[1]:").performAll digestOfK onePage [.put .sync "k" [1] none]
        .empty)).2 "k" = .ok (some [1]) ∧
    ¬ ∀ key : String, (backendAt "app[1]:").get digestOfK .sync
      ((backendAt "app[1]:").clear onePage 0 .sync
        ((backendAt "app[1]:").performAll digestOfK onePage [.put .sync "k" [1] none]
          .empty)).2 key = .ok none := by
  have hfound : (backendAt "app[1]:").get digestOfK .sync
      ((backendAt "app[1]:").clear onePage 0 .sync
        ((backendAt "app[1]:").performAll digestOfK onePage [.put .sync "k" [1] none]
          .empty)).2 "k" = .ok (some [1]) := by
    decide +kernel
  refine ⟨rfl, hfound, fun h => ?_⟩
  rw [h "k"] at hfound
  cases hfound

end Redis
