/-
The storage backends of the cache.

`CacheBackend` is a protocol: any object with the right methods can serve as the store of a cache.
A backend is modelled by the type `B` of its states and one function per method, from the state
before to the result and the state after; a method may raise.  Between the operations of the cache
the state may change by itself, as time passes and entries expire, which is the operation `drift`.
The methods `adelete` and `aclear` of the protocol are left out, because the cache never calls them.

What the results on the contents of a cache need to know about its backend is `LawfulBackend`.

Main definitions:

* `Caching.CacheConfig` — an accepted configuration;
* `Caching.CacheBackend` — the methods of a backend;
* `Caching.LawfulBackend` — what its methods do to the entries it holds.
-/

import Pysilience.Lib.Python
import Mathlib.Algebra.Order.Ring.Unbundled.Rat

set_option relaxedAutoImplicit false
set_option autoImplicit false

namespace Caching

open Python

universe u v w x y

/-! ### Configuration -/

/-- The fields of a configuration, before they are checked. -/
structure ConfigFields where
  maxSize : ℤ := 128
  ttl : Option ℚ := none

/-- The checks of `CacheConfig.__post_init__`, in order. -/
def ConfigFields.postInit (c : ConfigFields) : Except FString Unit :=
  checks [
    (decide (c.maxSize < 1), [.text "max_size must be >= 1, got ", .int c.maxSize]),
    (c.ttl.any fun ttl => decide (ttl ≤ 0),
      .text "ttl must be positive when set, got " :: (c.ttl.map Fragment.float).toList)]

/-- A configuration that was accepted: `__post_init__` raised nothing. -/
structure CacheConfig extends ConfigFields where
  accepted : toConfigFields.postInit = .ok ()

/-- The default configuration is accepted. -/
theorem CacheConfig.accepted_default : ConfigFields.postInit {} = .ok () := by decide +kernel

/-- Acceptance guarantees a positive time-to-live. -/
theorem CacheConfig.ttl_pos (config : CacheConfig) {ttl : ℚ} (h : config.ttl = some ttl) :
    0 < ttl := by
  have haccepted := config.accepted
  rw [ConfigFields.postInit, checks_eq_ok] at haccepted
  simp only [List.forall_mem_cons, h, Option.any_some, decide_eq_false_iff_not, not_le]
    at haccepted
  exact haccepted.2.1

/-! ### Backends -/

/-- The methods of a backend with states `B`.  A lookup returns `none` where the source returns
the sentinel `_MISS`; the last argument of `put` and `aput` is `ttl`. -/
structure CacheBackend (K : Type u) (V : Type v) (Exc : Type w) (B : Type x) (D : Type y) where
  get : B → K → Except Exc (Option V) × B
  put : B → K → V → Option ℚ → Except Exc Unit × B
  delete : B → K → Except Exc Bool × B
  clear : B → Except Exc Unit × B
  aget : B → K → Except Exc (Option V) × B
  aput : B → K → V → Option ℚ → Except Exc Unit × B
  /-- What happens to the store between two operations. -/
  drift : D → B → B

variable {K : Type u} {V : Type v} {Exc : Type w} {B : Type x} {D : Type y}

/-- The law of a lookup: it tells whether the store holds a live entry for the key, and adds
none. -/
structure LawfulLookup (get : B → K → Except Exc (Option V) × B) (Holds : B → K → V → Prop) :
    Prop where
  hit : ∀ b k v, (get b k).1 = .ok (some v) → Holds b k v
  miss : ∀ b k, (get b k).1 = .ok none → ∀ v, ¬ Holds b k v
  keeps : ∀ b k l w, Holds (get b k).2 l w → Holds b l w

/-- The law of a backend, where `Holds b k v` says that in the state `b` the store holds a live
entry with the value `v` for the key `k`: lookups are lawful, only storing a value adds an entry,
and a removal that returns has removed what it was to remove. -/
structure LawfulBackend (ops : CacheBackend K V Exc B D) (Holds : B → K → V → Prop) : Prop where
  get : LawfulLookup ops.get Holds
  aget : LawfulLookup ops.aget Holds
  put_adds : ∀ b k v ttl l w, Holds (ops.put b k v ttl).2 l w → Holds b l w ∨ l = k ∧ w = v
  aput_adds : ∀ b k v ttl l w, Holds (ops.aput b k v ttl).2 l w → Holds b l w ∨ l = k ∧ w = v
  delete_removes : ∀ b k r, (ops.delete b k).1 = .ok r → ∀ w, ¬ Holds (ops.delete b k).2 k w
  delete_keeps : ∀ b k l w, Holds (ops.delete b k).2 l w → Holds b l w
  clear_removes : ∀ b, (ops.clear b).1 = .ok () → ∀ l w, ¬ Holds (ops.clear b).2 l w
  clear_keeps : ∀ b l w, Holds (ops.clear b).2 l w → Holds b l w
  drift_keeps : ∀ d b l w, Holds (ops.drift d b) l w → Holds b l w

end Caching
