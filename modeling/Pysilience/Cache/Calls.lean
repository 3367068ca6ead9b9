/-
The cache, and what one call of `execute` or `execute_async` does.

A cache has a backend and two tables of keys in flight, one for threads and one for coroutines.
All of it is guarded by one lock, and a call is modelled by its steps from one section guarded by
the lock, or from one `await`, to the next: what the call is about to do is its *phase*.  The
function that is cached runs outside the lock, in the phases `computing` and `awaiting`; it may
return or raise whatever it likes, and a coroutine may also be cancelled wherever it is suspended.

With a `MemoryBackend` a coroutine uses the methods `get` and `put` under the lock.  With any other
backend it awaits `aget` and `aput` outside the lock; each of them takes effect at some moment
between its call and the resumption of the coroutine.

The events a cache emits to its listeners concern none of this and are left out.

Main definitions:

* `Caching.Cache`, `Caching.CacheState` — the immutable and the mutable fields of a cache;
* `Caching.Cache.syncCheckOrReserve`, `Caching.Cache.asyncCheckOrReserve` and the sections that
  undo them — the sections guarded by the lock;
* `Caching.Phase`, `Caching.CallEvent`, `Caching.Cache.advance` — the program of a call.

Main results:

* `Caching.Cache.advance_cases` — everything a call can do in one step.
-/

import Pysilience.Cache.Backend
import Mathlib.Data.Finset.Insert
import Mathlib.Data.Finset.Erase
import Mathlib.Logic.Function.Basic

set_option relaxedAutoImplicit false
set_option autoImplicit false

namespace Caching

open Python

universe u v w x y z

/-! ### The cache -/

/-- The fields of `Cache` that are set once. -/
structure Cache (K : Type u) (V : Type v) (Exc : Type w) (B : Type x) (D : Type y) where
  config : CacheConfig
  ops : CacheBackend K V Exc B D
  isMemory : Bool

/-- The fields of `Cache` that change.  An `asyncio.Event` is represented by its place in `events`,
where it stands as its flag; `asyncInflight` maps the keys in flight to their events. -/
structure CacheState (K : Type u) (B : Type x) where
  backend : B
  inflight : Finset K
  asyncInflight : K → Option ℕ
  events : List Bool

/-- What a call finds when it looks for its key: a value, nothing, in which case it has reserved
the key, or nothing and the key reserved. -/
inductive Checked (V : Type v) (Exc : Type w) (W : Type z)
  | value (value : V)
  | reserved
  | wait (on : W)
  | raised (exc : Exc)

variable {K : Type u} {V : Type v} {Exc : Type w} {B : Type x} {D : Type y} [DecidableEq K]

namespace CacheState

/-- A cache that was just constructed. -/
def init (backend : B) : CacheState K B := ⟨backend, ∅, fun _ => none, []⟩

/-- The section of `_sync_unreserve`, which also wakes all waiters. -/
def syncUnreserve (cs : CacheState K B) (key : K) : CacheState K B :=
  { cs with inflight := cs.inflight.erase key }

/-- The section of `_async_check_or_reserve` once the backend had nothing for the key. -/
def asyncReserve (cs : CacheState K B) (key : K) : Checked V Exc ℕ × CacheState K B :=
  match cs.asyncInflight key with
  | none =>
      (.reserved, { cs with
        asyncInflight := Function.update cs.asyncInflight key (some cs.events.length)
        events := cs.events ++ [false] })
  | some event => (.wait event, cs)

/-- `_async_unreserve`.  The event is set outside the lock, but no other coroutine runs between. -/
def asyncUnreserve (cs : CacheState K B) (key : K) : CacheState K B :=
  match cs.asyncInflight key with
  | none => cs
  | some event =>
      { cs with
        asyncInflight := Function.update cs.asyncInflight key none
        events := cs.events.set event true }

@[simp] theorem asyncUnreserve_backend (cs : CacheState K B) (key : K) :
    (cs.asyncUnreserve key).backend = cs.backend := by
  unfold asyncUnreserve
  split <;> rfl

@[simp] theorem asyncUnreserve_inflight (cs : CacheState K B) (key : K) :
    (cs.asyncUnreserve key).inflight = cs.inflight := by
  unfold asyncUnreserve
  split <;> rfl

@[simp] theorem asyncUnreserve_asyncInflight (cs : CacheState K B) (key : K) :
    (cs.asyncUnreserve key).asyncInflight = Function.update cs.asyncInflight key none := by
  unfold asyncUnreserve
  split
  · next hn => exact (Function.update_eq_self_iff.2 hn.symm).symm
  · rfl

end CacheState

namespace Cache

variable (cache : Cache K V Exc B D)

/-- The section of `_sync_check_or_reserve`, from one `wait` to the next. -/
def syncCheckOrReserve (cs : CacheState K B) (key : K) : Checked V Exc Unit × CacheState K B :=
  match cache.ops.get cs.backend key with
  | (.error exc, backend) => (.raised exc, { cs with backend := backend })
  | (.ok (some value), backend) => (.value value, { cs with backend := backend })
  | (.ok none, backend) =>
      if key ∈ cs.inflight then (.wait (), { cs with backend := backend })
      else (.reserved, { cs with backend := backend, inflight := insert key cs.inflight })

/-- The section of `_sync_store_and_unreserve`, which also wakes all waiters unless `put` raises. -/
def syncStoreAndUnreserve (cs : CacheState K B) (key : K) (value : V) :
    Except Exc Unit × CacheState K B :=
  match cache.ops.put cs.backend key value cache.config.ttl with
  | (.error exc, backend) => (.error exc, { cs with backend := backend })
  | (.ok (), backend) => (.ok (), { cs with backend := backend }.syncUnreserve key)

/-- The section of `_async_check_or_reserve` with a `MemoryBackend`. -/
def asyncCheckOrReserve (cs : CacheState K B) (key : K) : Checked V Exc ℕ × CacheState K B :=
  match cache.ops.get cs.backend key with
  | (.error exc, backend) => (.raised exc, { cs with backend := backend })
  | (.ok (some value), backend) => (.value value, { cs with backend := backend })
  | (.ok none, backend) => { cs with backend := backend }.asyncReserve key

/-- `_async_store_and_unreserve` with a `MemoryBackend`. -/
def asyncStoreAndUnreserve (cs : CacheState K B) (key : K) (value : V) :
    Except Exc Unit × CacheState K B :=
  match cache.ops.put cs.backend key value cache.config.ttl with
  | (.error exc, backend) => (.error exc, { cs with backend := backend })
  | (.ok (), backend) => (.ok (), { cs with backend := backend }.asyncUnreserve key)

end Cache

/-! ### The program of a call -/

/-- What a call is about to do, or how it ended. -/
inductive Phase (V : Type v) (Exc : Type w)
  /-- `execute`: to take the lock and look for the key. -/
  | checking
  /-- To be woken, in `_condition.wait()`. -/
  | blocked
  /-- To finish `func()`. -/
  | computing
  /-- To take the lock and store the result. -/
  | storing (value : V)
  /-- To take the lock in the handler of the exception. -/
  | unreserving (exc : Exc)
  /-- `execute_async` with a `MemoryBackend`: to take the lock and look for the key. -/
  | asyncChecking
  /-- With another backend: to let `aget` take effect. -/
  | getting
  /-- To resume with the result of `aget`. -/
  | gotten (result : Except Exc (Option V))
  /-- To be resumed, in `event.wait()`. -/
  | suspended (event : ℕ)
  /-- To finish `await factory()`. -/
  | awaiting
  /-- With a `MemoryBackend`: to take the lock and store the result. -/
  | asyncStoring (value : V)
  /-- With another backend: to let `aput` take effect. -/
  | putting (value : V)
  /-- To resume with the result of `aput`. -/
  | put (value : V) (result : Except Exc Unit)
  /-- The call returned; `hit` tells that it did not invoke its function. -/
  | returned (value : V) (hit : Bool)
  /-- The call raised. -/
  | raised (exc : Exc)

namespace Phase

/-- The call has ended. -/
def exited : Phase V Exc → Bool
  | .returned .. | .raised _ => true
  | _ => false

/-- The call is between reserving and releasing its key in `_inflight`. -/
def syncOwns : Phase V Exc → Bool
  | .computing | .storing _ | .unreserving _ => true
  | _ => false

/-- The call is between reserving and releasing its key in `_async_inflight`. -/
def asyncOwns : Phase V Exc → Bool
  | .awaiting | .asyncStoring _ | .putting _ | .put .. => true
  | _ => false

end Phase

/-- What can happen to a call: it takes its turn on the lock or on the event loop, its `aget` or
`aput` takes effect, its function returns, or an exception is raised by its function or at the
`await` where it is suspended. -/
inductive CallEvent (V : Type v) (Exc : Type w)
  | turn
  | effect
  | finish (value : V)
  | throw (exc : Exc)

/-- What the log says about a step of a call: its function was invoked, or its value was handed to
the backend. -/
inductive Note (V : Type v)
  | invoked
  | stored (value : V)
  deriving DecidableEq

/-- The result of a step of a call. -/
structure Moved (K : Type u) (V : Type v) (Exc : Type w) (B : Type x) where
  phase : Phase V Exc
  state : CacheState K B
  /-- The step notified the waiters of the condition. -/
  notify : Bool := false
  notes : List (Note V) := []

/-- A coroutine goes on after it has looked for its key. -/
def Checked.resume : Checked V Exc ℕ × CacheState K B → Moved K V Exc B
  | (.value v, cs) => ⟨.returned v true, cs, false, []⟩
  | (.reserved, cs) => ⟨.awaiting, cs, false, [.invoked]⟩
  | (.wait event, cs) => ⟨.suspended event, cs, false, []⟩
  | (.raised exc, cs) => ⟨.raised exc, cs, false, []⟩

variable {Cls : Type z} [Exceptions Exc Cls]

/-- One step of a call of `execute` or `execute_async` with the given key. -/
def Cache.advance (cache : Cache K V Exc B D) (cs : CacheState K B) (key : K) :
    Phase V Exc → CallEvent V Exc → Option (Moved K V Exc B)
  -- `execute`
  | .checking, .turn =>
      match cache.syncCheckOrReserve cs key with
      | (.value value, cs) => some ⟨.returned value true, cs, false, []⟩
      | (.reserved, cs) => some ⟨.computing, cs, false, [.invoked]⟩
      | (.wait (), cs) => some ⟨.blocked, cs, false, []⟩
      | (.raised exc, cs) => some ⟨.raised exc, cs, false, []⟩
  | .computing, .finish value => some ⟨.storing value, cs, false, []⟩
  | .computing, .throw exc =>
      if caught exc then some ⟨.unreserving exc, cs, false, []⟩
      else some ⟨.raised exc, cs, false, []⟩
  | .unreserving exc, .turn => some ⟨.raised exc, cs.syncUnreserve key, true, []⟩
  | .storing value, .turn =>
      match cache.syncStoreAndUnreserve cs key value with
      | (.ok (), cs) => some ⟨.returned value false, cs, true, [.stored value]⟩
      | (.error exc, cs) => some ⟨.raised exc, cs, false, [.stored value]⟩
  -- `execute_async`
  | .asyncChecking, .turn => some (Checked.resume (cache.asyncCheckOrReserve cs key))
  | .getting, .effect =>
      let (result, backend) := cache.ops.aget cs.backend key
      some ⟨.gotten result, { cs with backend := backend }, false, []⟩
  | .gotten result, .turn =>
      match result with
      | .error exc => some ⟨.raised exc, cs, false, []⟩
      | .ok (some value) => some ⟨.returned value true, cs, false, []⟩
      | .ok none => some (Checked.resume (cs.asyncReserve key))
  | .suspended event, .turn =>
      if cs.events[event]? = some true then
        if cache.isMemory then some (Checked.resume (cache.asyncCheckOrReserve cs key))
        else some ⟨.getting, cs, false, []⟩
      else none
  | .awaiting, .finish value =>
      if cache.isMemory then some ⟨.asyncStoring value, cs, false, []⟩
      else some ⟨.putting value, cs, false, []⟩
  | .awaiting, .throw exc =>
      if caught exc then some ⟨.raised exc, cs.asyncUnreserve key, false, []⟩
      else some ⟨.raised exc, cs, false, []⟩
  | .asyncStoring value, .turn =>
      match cache.asyncStoreAndUnreserve cs key value with
      | (.ok (), cs) => some ⟨.returned value false, cs, false, [.stored value]⟩
      | (.error exc, cs) => some ⟨.raised exc, cs, false, [.stored value]⟩
  | .putting value, .effect =>
      let (result, backend) := cache.ops.aput cs.backend key value cache.config.ttl
      some ⟨.put value result, { cs with backend := backend }, false, [.stored value]⟩
  | .put value result, .turn =>
      match result with
      | .ok () => some ⟨.returned value false, cs.asyncUnreserve key, false, []⟩
      | .error exc => some ⟨.raised exc, cs, false, []⟩
  -- a cancellation where the coroutine is suspended
  | .suspended _, .throw exc | .getting, .throw exc | .gotten _, .throw exc
  | .putting _, .throw exc | .put .., .throw exc => some ⟨.raised exc, cs, false, []⟩
  | _, _ => none

/-! ### What one step of a call can do -/

/-- The coroutine waits for its turn to look for the key, or for `aget`. -/
def Phase.awaitsLookup : Phase V Exc → Bool
  | .suspended _ | .getting | .gotten _ => true
  | _ => false

/-- The coroutine waits for `aput`. -/
def Phase.awaitsPut : Phase V Exc → Bool
  | .putting _ | .put .. => true
  | _ => false

/-- A coroutine has the result of a lookup, and the backend it left: it looked for the key under
the lock, or it was resumed with the result of `aget`. -/
inductive Cache.AsyncLookup (cache : Cache K V Exc B D) (cs : CacheState K B) (key : K) :
    Phase V Exc → Except Exc (Option V) → B → Prop
  | first (result : Except Exc (Option V)) (b : B) :
      cache.ops.get cs.backend key = (result, b) → AsyncLookup cache cs key .asyncChecking result b
  | again (event : ℕ) (result : Except Exc (Option V)) (b : B) :
      cs.events[event]? = some true → cache.isMemory = true →
      cache.ops.get cs.backend key = (result, b) →
      AsyncLookup cache cs key (.suspended event) result b
  | gotten (result : Except Exc (Option V)) :
      AsyncLookup cache cs key (.gotten result) result cs.backend

/-- The cases of a step of a call. -/
inductive Cache.AdvanceCase (cache : Cache K V Exc B D) (cs : CacheState K B) (key : K) :
    Phase V Exc → CallEvent V Exc → Moved K V Exc B → Prop
  | hit (v : V) (b : B) : cache.ops.get cs.backend key = (.ok (some v), b) →
      AdvanceCase cache cs key .checking .turn
        ⟨.returned v true, { cs with backend := b }, false, []⟩
  | getRaises (e : Exc) (b : B) : cache.ops.get cs.backend key = (.error e, b) →
      AdvanceCase cache cs key .checking .turn ⟨.raised e, { cs with backend := b }, false, []⟩
  | reserve (b : B) : cache.ops.get cs.backend key = (.ok none, b) → key ∉ cs.inflight →
      AdvanceCase cache cs key .checking .turn
        ⟨.computing, { cs with backend := b, inflight := insert key cs.inflight }, false,
          [.invoked]⟩
  | wait (b : B) : cache.ops.get cs.backend key = (.ok none, b) → key ∈ cs.inflight →
      AdvanceCase cache cs key .checking .turn ⟨.blocked, { cs with backend := b }, false, []⟩
  | finish (v : V) :
      AdvanceCase cache cs key .computing (.finish v) ⟨.storing v, cs, false, []⟩
  | failed (e : Exc) : caught e = true →
      AdvanceCase cache cs key .computing (.throw e) ⟨.unreserving e, cs, false, []⟩
  | escaped (e : Exc) : caught e = false →
      AdvanceCase cache cs key .computing (.throw e) ⟨.raised e, cs, false, []⟩
  | unreserved (e : Exc) :
      AdvanceCase cache cs key (.unreserving e) .turn ⟨.raised e, cs.syncUnreserve key, true, []⟩
  | stored (v : V) (b : B) :
      cache.ops.put cs.backend key v cache.config.ttl = (.ok (), b) →
      AdvanceCase cache cs key (.storing v) .turn
        ⟨.returned v false, { cs with backend := b }.syncUnreserve key, true, [.stored v]⟩
  | putRaises (v : V) (e : Exc) (b : B) :
      cache.ops.put cs.backend key v cache.config.ttl = (.error e, b) →
      AdvanceCase cache cs key (.storing v) .turn
        ⟨.raised e, { cs with backend := b }, false, [.stored v]⟩
  | asyncHit (ph : Phase V Exc) (v : V) (b : B) :
      cache.AsyncLookup cs key ph (.ok (some v)) b →
      AdvanceCase cache cs key ph .turn ⟨.returned v true, { cs with backend := b }, false, []⟩
  | asyncGetRaises (ph : Phase V Exc) (e : Exc) (b : B) :
      cache.AsyncLookup cs key ph (.error e) b →
      AdvanceCase cache cs key ph .turn ⟨.raised e, { cs with backend := b }, false, []⟩
  | asyncReserve (ph : Phase V Exc) (b : B) : cache.AsyncLookup cs key ph (.ok none) b →
      cs.asyncInflight key = none →
      AdvanceCase cache cs key ph .turn
        ⟨.awaiting, { cs with
            backend := b
            asyncInflight := Function.update cs.asyncInflight key (some cs.events.length)
            events := cs.events ++ [false] }, false, [.invoked]⟩
  | asyncWait (ph : Phase V Exc) (b : B) (event : ℕ) :
      cache.AsyncLookup cs key ph (.ok none) b → cs.asyncInflight key = some event →
      AdvanceCase cache cs key ph .turn ⟨.suspended event, { cs with backend := b }, false, []⟩
  | retry (event : ℕ) : cs.events[event]? = some true → cache.isMemory = false →
      AdvanceCase cache cs key (.suspended event) .turn ⟨.getting, cs, false, []⟩
  | aget (result : Except Exc (Option V)) (b : B) :
      cache.ops.aget cs.backend key = (result, b) →
      AdvanceCase cache cs key .getting .effect
        ⟨.gotten result, { cs with backend := b }, false, []⟩
  | asyncFinish (v : V) :
      AdvanceCase cache cs key .awaiting (.finish v)
        ⟨if cache.isMemory then .asyncStoring v else .putting v, cs, false, []⟩
  | asyncFailed (e : Exc) : caught e = true →
      AdvanceCase cache cs key .awaiting (.throw e) ⟨.raised e, cs.asyncUnreserve key, false, []⟩
  | asyncEscaped (e : Exc) : caught e = false →
      AdvanceCase cache cs key .awaiting (.throw e) ⟨.raised e, cs, false, []⟩
  | asyncStored (v : V) (b : B) :
      cache.ops.put cs.backend key v cache.config.ttl = (.ok (), b) →
      AdvanceCase cache cs key (.asyncStoring v) .turn
        ⟨.returned v false, { cs with backend := b }.asyncUnreserve key, false, [.stored v]⟩
  | asyncPutRaises (v : V) (e : Exc) (b : B) :
      cache.ops.put cs.backend key v cache.config.ttl = (.error e, b) →
      AdvanceCase cache cs key (.asyncStoring v) .turn
        ⟨.raised e, { cs with backend := b }, false, [.stored v]⟩
  | aput (v : V) (result : Except Exc Unit) (b : B) :
      cache.ops.aput cs.backend key v cache.config.ttl = (result, b) →
      AdvanceCase cache cs key (.putting v) .effect
        ⟨.put v result, { cs with backend := b }, false, [.stored v]⟩
  | putDone (v : V) :
      AdvanceCase cache cs key (.put v (.ok ())) .turn
        ⟨.returned v false, cs.asyncUnreserve key, false, []⟩
  | putFailed (v : V) (e : Exc) :
      AdvanceCase cache cs key (.put v (.error e)) .turn ⟨.raised e, cs, false, []⟩
  | cancelled (ph : Phase V Exc) (e : Exc) : ph.awaitsLookup = true →
      AdvanceCase cache cs key ph (.throw e) ⟨.raised e, cs, false, []⟩
  | putCancelled (ph : Phase V Exc) (e : Exc) : ph.awaitsPut = true →
      AdvanceCase cache cs key ph (.throw e) ⟨.raised e, cs, false, []⟩

variable {cache : Cache K V Exc B D} {cs : CacheState K B} {key : K}

/-- A thread looks for its key under the lock. -/
theorem Cache.advance_checking {m : Moved K V Exc B}
    (h : cache.advance cs key .checking .turn = some m) :
    cache.AdvanceCase cs key .checking .turn m := by
  simp only [Cache.advance, Cache.syncCheckOrReserve] at h
  generalize hg : cache.ops.get cs.backend key = g at h
  obtain ⟨result, b⟩ := g
  match result with
  | .error e =>
      cases h
      exact .getRaises e b hg
  | .ok (some v) =>
      cases h
      exact .hit v b hg
  | .ok none =>
      by_cases hk : key ∈ cs.inflight
      · simp only [hk, if_true] at h
        cases h
        exact .wait b hg hk
      · simp only [hk, if_false] at h
        cases h
        exact .reserve b hg hk

/-- A thread stores its result under the lock. -/
theorem Cache.advance_storing {v : V} {m : Moved K V Exc B}
    (h : cache.advance cs key (.storing v) .turn = some m) :
    cache.AdvanceCase cs key (.storing v) .turn m := by
  simp only [Cache.advance, Cache.syncStoreAndUnreserve] at h
  generalize hp : cache.ops.put cs.backend key v cache.config.ttl = g at h
  obtain ⟨result, b⟩ := g
  match result with
  | .error e =>
      cases h
      exact .putRaises v e b hp
  | .ok () =>
      cases h
      exact .stored v b hp

/-- A coroutine goes on after a lookup. -/
theorem Cache.AsyncLookup.resume {ph : Phase V Exc} {result : Except Exc (Option V)} {b : B}
    (hl : cache.AsyncLookup cs key ph result b) {m : Moved K V Exc B}
    (h : Checked.resume (match result with
      | .error e => (.raised e, { cs with backend := b })
      | .ok (some v) => (.value v, { cs with backend := b })
      | .ok none => { cs with backend := b }.asyncReserve key) = m) :
    cache.AdvanceCase cs key ph .turn m := by
  match result with
  | .error e =>
      subst h
      exact .asyncGetRaises ph e b hl
  | .ok (some v) =>
      subst h
      exact .asyncHit ph v b hl
  | .ok none =>
      simp only [CacheState.asyncReserve] at h
      cases hk : cs.asyncInflight key with
      | none =>
          simp only [hk] at h
          subst h
          exact .asyncReserve ph b hl hk
      | some event =>
          simp only [hk] at h
          subst h
          exact .asyncWait ph b event hl hk

theorem Cache.asyncCheckOrReserve_eq (cache : Cache K V Exc B D) (cs : CacheState K B) (key : K) :
    cache.asyncCheckOrReserve cs key = match (cache.ops.get cs.backend key).1 with
      | .error e => (.raised e, { cs with backend := (cache.ops.get cs.backend key).2 })
      | .ok (some v) => (.value v, { cs with backend := (cache.ops.get cs.backend key).2 })
      | .ok none => { cs with backend := (cache.ops.get cs.backend key).2 }.asyncReserve key := by
  unfold Cache.asyncCheckOrReserve
  generalize cache.ops.get cs.backend key = g
  obtain ⟨result, b⟩ := g
  match result with
  | .error e => rfl
  | .ok (some v) => rfl
  | .ok none => rfl

/-- A coroutine takes its turn. -/
theorem Cache.advance_asyncTurn {ph : Phase V Exc} {m : Moved K V Exc B}
    (hph : ph = .asyncChecking ∨ ph.awaitsLookup = true)
    (h : cache.advance cs key ph .turn = some m) : cache.AdvanceCase cs key ph .turn m := by
  match ph with
  | .asyncChecking =>
      simp only [Cache.advance, Cache.asyncCheckOrReserve_eq, Option.some_inj] at h
      exact (Cache.AsyncLookup.first _ _ rfl).resume h
  | .gotten (.error e) =>
      cases h
      exact .asyncGetRaises _ e _ (.gotten _)
  | .gotten (.ok (some v)) =>
      cases h
      exact .asyncHit _ v _ (.gotten _)
  | .gotten (.ok none) =>
      simp only [Cache.advance, Option.some_inj] at h
      exact (Cache.AsyncLookup.gotten (.ok none)).resume h
  | .suspended event =>
      simp only [Cache.advance] at h
      split at h
      · next hev =>
        cases hm : cache.isMemory with
        | true =>
            simp only [hm, if_true, Cache.asyncCheckOrReserve_eq, Option.some_inj] at h
            exact (Cache.AsyncLookup.again event _ _ hev hm rfl).resume h
        | false =>
            simp only [hm, Bool.false_eq_true, if_false, Option.some_inj] at h
            subst h
            exact .retry event hev hm
      · cases h
  | .getting => cases h
  | .checking | .blocked | .computing | .storing _ | .unreserving _ | .awaiting | .asyncStoring _
  | .putting _ | .put .. | .returned .. | .raised _ => rcases hph with hph | hph <;> cases hph

/-- A coroutine stores its result under the lock. -/
theorem Cache.advance_asyncStoring {v : V} {m : Moved K V Exc B}
    (h : cache.advance cs key (.asyncStoring v) .turn = some m) :
    cache.AdvanceCase cs key (.asyncStoring v) .turn m := by
  simp only [Cache.advance, Cache.asyncStoreAndUnreserve] at h
  generalize hp : cache.ops.put cs.backend key v cache.config.ttl = g at h
  obtain ⟨result, b⟩ := g
  match result with
  | .error e =>
      cases h
      exact .asyncPutRaises v e b hp
  | .ok () =>
      cases h
      exact .asyncStored v b hp

/-- An exception is raised by the function of a call, or where a coroutine is suspended. -/
theorem Cache.advance_throw {ph : Phase V Exc} {e : Exc} {m : Moved K V Exc B}
    (h : cache.advance cs key ph (.throw e) = some m) :
    cache.AdvanceCase cs key ph (.throw e) m := by
  match ph with
  | .computing =>
      simp only [Cache.advance] at h
      split at h
      · next hc =>
        cases h
        exact .failed e hc
      · next hc =>
        cases h
        exact .escaped e (Bool.not_eq_true _ ▸ hc)
  | .awaiting =>
      simp only [Cache.advance] at h
      split at h
      · next hc =>
        cases h
        exact .asyncFailed e hc
      · next hc =>
        cases h
        exact .asyncEscaped e (Bool.not_eq_true _ ▸ hc)
  | .suspended _ | .getting | .gotten _ =>
      cases h
      exact .cancelled _ e rfl
  | .putting _ | .put .. =>
      cases h
      exact .putCancelled _ e rfl
  | .checking | .blocked | .storing _ | .unreserving _ | .asyncChecking | .asyncStoring _
  | .returned .. | .raised _ => cases h

/-- **Everything a call can do in one step.** -/
theorem Cache.advance_cases {ph : Phase V Exc} {ev : CallEvent V Exc} {m : Moved K V Exc B}
    (h : cache.advance cs key ph ev = some m) : cache.AdvanceCase cs key ph ev m := by
  cases ev with
  | turn =>
      match ph with
      | .checking => exact Cache.advance_checking h
      | .storing v => exact Cache.advance_storing h
      | .unreserving e =>
          cases h
          exact .unreserved e
      | .asyncChecking => exact Cache.advance_asyncTurn (.inl rfl) h
      | .getting | .gotten _ | .suspended _ => exact Cache.advance_asyncTurn (.inr rfl) h
      | .asyncStoring v => exact Cache.advance_asyncStoring h
      | .put v (.ok ()) =>
          cases h
          exact .putDone v
      | .put v (.error e) =>
          cases h
          exact .putFailed v e
      | .blocked | .computing | .awaiting | .putting _ | .returned .. | .raised _ => cases h
  | effect =>
      match ph with
      | .getting =>
          cases h
          exact .aget _ _ rfl
      | .putting v =>
          cases h
          exact .aput v _ _ rfl
      | .checking | .blocked | .computing | .storing _ | .unreserving _ | .asyncChecking
      | .gotten _ | .suspended _ | .awaiting | .asyncStoring _ | .put .. | .returned ..
      | .raised _ => cases h
  | finish v =>
      match ph with
      | .computing =>
          cases h
          exact .finish v
      | .awaiting =>
          have hm :
              m = ⟨if cache.isMemory then .asyncStoring v else .putting v, cs, false, []⟩ := by
            simp only [Cache.advance] at h
            split at h <;> next hm => simp [← Option.some_inj.1 h, hm]
          exact hm ▸ .asyncFinish v
      | .checking | .blocked | .storing _ | .unreserving _ | .asyncChecking | .getting
      | .gotten _ | .suspended _ | .asyncStoring _ | .putting _ | .put .. | .returned ..
      | .raised _ => cases h
  | throw e => exact Cache.advance_throw h

end Caching
