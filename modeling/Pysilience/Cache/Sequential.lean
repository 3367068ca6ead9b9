/-
The calls of a cache, one after the other.

Where nobody calls a cache while a call is in progress, each method is a function from the state
before to what the call came to and the state after.  A call of `execute` can still have to wait: an
exception that is no `Exception`, raised by the function of an earlier call, has left the key
reserved, and nobody will ever release it.

The time that passes before a call and while its function runs is part of the action.

Main definitions:

* `Caching.Cache.execute`, `Caching.Cache.invalidate`, `Caching.Cache.invalidateAll` — the methods;
* `Caching.Sequential`, `Caching.sequentialCalls` — a cache and the responses it gave, and the runs.

Main results:

* `Caching.Cache.execute_steps` — `execute` is a sequence of steps of one call;
* `Caching.sequential_reachable` — **the sequential runs are runs of `callers`**.
-/

import Pysilience.Cache.Callers

set_option relaxedAutoImplicit false
set_option autoImplicit false

namespace Caching

open Python Transition

universe u v w x y z

variable {K : Type u} {V : Type v} {Exc : Type w} {B : Type x} {D : Type y}

/-! ### The methods -/

/-- A call with its arguments; `func` is what the function would come to, if it is invoked. -/
inductive CacheCall (K : Type u) (V : Type v) (Exc : Type w)
  | execute (key : K) (func : Except Exc V)
  | invalidate (key : K)
  | invalidateAll
  deriving DecidableEq

/-- What a call came to; the value of `execute` comes with whether it was found in the cache. -/
inductive Response (V : Type v) (Exc : Type w)
  | executed (result : Except Exc (V × Bool))
  | invalidated (result : Except Exc Bool)
  | invalidatedAll (result : Except Exc Unit)

/-- The call found its key in the cache. -/
def Response.isHit : Response V Exc → Bool
  | .executed (.ok (_, hit)) => hit
  | _ => false

/-- The time that passes before a call, and while its function runs. -/
structure Timing (D : Type y) where
  before : D
  during : D

/-- How a call of `execute` ended. -/
def endOf : Except Exc (V × Bool) → Phase V Exc
  | .ok (value, hit) => .returned value hit
  | .error exc => .raised exc

/-- The backend drifts. -/
def Cache.drift (cache : Cache K V Exc B D) (d : D) (cs : CacheState K B) : CacheState K B :=
  { cs with backend := cache.ops.drift d cs.backend }

/-- `invalidate`. -/
def Cache.invalidate (cache : Cache K V Exc B D) (cs : CacheState K B) (key : K) :
    Except Exc Bool × CacheState K B :=
  let (result, backend) := cache.ops.delete cs.backend key
  (result, { cs with backend := backend })

/-- `invalidate_all`. -/
def Cache.invalidateAll (cache : Cache K V Exc B D) (cs : CacheState K B) :
    Except Exc Unit × CacheState K B :=
  let (result, backend) := cache.ops.clear cs.backend
  (result, { cs with backend := backend })

variable [DecidableEq K] {Cls : Type z} [Exceptions Exc Cls]

/-- `execute`, where `during` passes before `func()` comes to its outcome; `none` if the call waits
for a key that is reserved. -/
def Cache.execute (cache : Cache K V Exc B D) (cs : CacheState K B) (key : K)
    (func : Except Exc V) (during : D) : Option (Except Exc (V × Bool) × CacheState K B) :=
  match cache.syncCheckOrReserve cs key with
  | (.value value, cs) => some (.ok (value, true), cs)
  | (.wait (), _) => none
  | (.raised exc, cs) => some (.error exc, cs)
  | (.reserved, cs) =>
      let cs := cache.drift during cs
      match func with
      | .error exc => some (.error exc, if caught exc then cs.syncUnreserve key else cs)
      | .ok result =>
          match cache.syncStoreAndUnreserve cs key result with
          | (.ok (), cs) => some (.ok (result, false), cs)
          | (.error exc, cs) => some (.error exc, cs)

/-- A call, which begins after some time. -/
def Cache.respond (cache : Cache K V Exc B D) (cs : CacheState K B) (timing : Timing D) :
    CacheCall K V Exc → Option (Response V Exc × CacheState K B)
  | .execute key func =>
      (cache.execute (cache.drift timing.before cs) key func timing.during).map
        fun (result, cs) => (.executed result, cs)
  | .invalidate key =>
      let (result, cs) := cache.invalidate (cache.drift timing.before cs) key
      some (.invalidated result, cs)
  | .invalidateAll =>
      let (result, cs) := cache.invalidateAll (cache.drift timing.before cs)
      some (.invalidatedAll result, cs)

/-! ### Runs -/

/-- A cache and its responses so far, the latest first. -/
structure Sequential (K : Type u) (V : Type v) (Exc : Type w) (B : Type x) where
  state : CacheState K B
  log : List (Response V Exc)

/-- One call. -/
def Sequential.step (cache : Cache K V Exc B D) (s : Sequential K V Exc B)
    (a : CacheCall K V Exc × Timing D) : Option (Sequential K V Exc B) :=
  (cache.respond s.state a.2 a.1).map fun (response, cs) => ⟨cs, response :: s.log⟩

/-- The sequences of calls of a cache on a backend in the given state. -/
def sequentialCalls (cache : Cache K V Exc B D) (backend : B) :
    Machine (Sequential K V Exc B) (CacheCall K V Exc × Timing D) where
  init := ⟨.init backend, []⟩
  step := Sequential.step cache

/-! ### The steps of a call -/

variable {cache : Cache K V Exc B D}

/-- A call with the given key makes a step, or the backend drifts. -/
inductive Cache.CallStep (cache : Cache K V Exc B D) (key : K) :
    Phase V Exc × CacheState K B → Phase V Exc × CacheState K B → Prop
  | advance {cs : CacheState K B} {ph : Phase V Exc} (event : CallEvent V Exc)
      {m : Moved K V Exc B} :
      cache.advance cs key ph event = some m → CallStep cache key (ph, cs) (m.phase, m.state)
  | drift {cs : CacheState K B} {ph : Phase V Exc} (d : D) :
      CallStep cache key (ph, cs) (ph, cache.drift d cs)

/-- **`execute` is a sequence of steps of one call**, from the first phase to the end. -/
theorem Cache.execute_steps {cs cs' : CacheState K B} {key : K} {func : Except Exc V} {during : D}
    {result : Except Exc (V × Bool)}
    (h : cache.execute cs key func during = some (result, cs')) :
    Relation.ReflTransGen (cache.CallStep key) (.checking, cs) (endOf result, cs') := by
  unfold Cache.execute at h
  split at h
  · next value cs₁ hcheck =>
    obtain ⟨rfl, rfl⟩ := Prod.mk.inj (Option.some_inj.1 h)
    refine .single (.advance (m := ⟨.returned value true, cs₁, false, []⟩) .turn ?_)
    rw [Cache.advance, hcheck]
  · cases h
  · next exc cs₁ hcheck =>
    obtain ⟨rfl, rfl⟩ := Prod.mk.inj (Option.some_inj.1 h)
    refine .single (.advance (m := ⟨.raised exc, cs₁, false, []⟩) .turn ?_)
    rw [Cache.advance, hcheck]
  · next cs₁ hcheck =>
    -- the key is reserved, and the function runs for a while
    have hreserve : Relation.ReflTransGen (cache.CallStep key) (.checking, cs)
        (.computing, cache.drift during cs₁) := by
      refine .tail (.single (.advance (m := ⟨.computing, cs₁, false, [.invoked]⟩) .turn ?_))
        (.drift during)
      rw [Cache.advance, hcheck]
    refine hreserve.trans ?_
    cases func with
    | error exc =>
        obtain ⟨rfl, rfl⟩ := Prod.mk.inj (Option.some_inj.1 h)
        by_cases hc : caught exc = true
        · rw [if_pos hc]
          refine .tail (.single (.advance
            (m := ⟨.unreserving exc, cache.drift during cs₁, false, []⟩) (.throw exc) ?_))
            (.advance (m := ⟨.raised exc, _, true, []⟩) .turn rfl)
          rw [Cache.advance, if_pos hc]
        · rw [if_neg hc]
          refine .single (.advance
            (m := ⟨.raised exc, cache.drift during cs₁, false, []⟩) (.throw exc) ?_)
          rw [Cache.advance, if_neg hc]
    | ok value =>
        refine .head (.advance (m := ⟨.storing value, _, false, []⟩) (.finish value) rfl) ?_
        simp only at h
        split at h
        · next cs₂ hstore =>
          obtain ⟨rfl, rfl⟩ := Prod.mk.inj (Option.some_inj.1 h)
          refine .single (.advance
            (m := ⟨.returned value false, cs₂, true, [.stored value]⟩) .turn ?_)
          rw [Cache.advance, hstore]
        · next exc cs₂ hstore =>
          obtain ⟨rfl, rfl⟩ := Prod.mk.inj (Option.some_inj.1 h)
          refine .single (.advance
            (m := ⟨.raised exc, cs₂, false, [.stored value]⟩) .turn ?_)
          rw [Cache.advance, hstore]

/-! ### Sequential runs among the runs of the callers -/

/-- The state of the cache in a run of `callers` in which nobody has begun a call but the first `n`
callers, and `P` holds of the calls. -/
def Reaches (cache : Cache K V Exc B D) (backend : B) (n : ℕ) (cs : CacheState K B)
    (P : (ℕ → Option (Call K V Exc)) → Prop) : Prop :=
  ∃ s, (callers ℕ cache backend).Reachable s ∧ s.state = cs ∧
    (∀ caller, n ≤ caller → s.calls caller = none) ∧ P s.calls

variable {backend : B} {n : ℕ}

/-- Caller number `n` was the last one to begin a call, of `execute`, and is in the phase `p.1`. -/
def Begun (cache : Cache K V Exc B D) (backend : B) (n : ℕ) (key : K) (startedAt : ℕ)
    (p : Phase V Exc × CacheState K B) : Prop :=
  Reaches cache backend (n + 1) p.2 fun calls => calls n = some ⟨key, .sync, startedAt, p.1⟩

variable {key : K} {startedAt : ℕ} {p q : Phase V Exc × CacheState K B}

/-- The caller makes a step. -/
theorem Begun.callStep (h : Begun cache backend n key startedAt p)
    (hstep : cache.CallStep key p q) : Begun cache backend n key startedAt q := by
  obtain ⟨s, hr, hstate, hfree, hcall⟩ := h
  cases hstep with
  | @advance cs ph event m hm =>
      obtain rfl : s.state = cs := hstate
      refine ⟨s.moved n ⟨key, .sync, startedAt, ph⟩ m, hr.step (a := .advance n event) ?_, rfl, ?_,
        System.moved_calls_self⟩
      · change System.step cache s (.advance n event) = _
        simp only [System.step, hcall, hm, Option.map_some]
      · intro caller hle
        cases hother : (s.moved n ⟨key, .sync, startedAt, ph⟩ m).calls caller with
        | none => rfl
        | some d =>
            obtain ⟨d₀, hd₀, -⟩ := System.moved_calls_of_ne (by omega) hother
            rw [hfree caller hle] at hd₀
            cases hd₀
  | @drift cs ph d =>
      obtain rfl : s.state = cs := hstate
      exact ⟨s.withBackend (cache.ops.drift d s.state.backend) [], hr.step (a := .drift d) rfl, rfl,
        hfree, hcall⟩

theorem Begun.callSteps (h : Begun cache backend n key startedAt p)
    (hsteps : Relation.ReflTransGen (cache.CallStep key) p q) :
    Begun cache backend n key startedAt q := by
  induction hsteps with
  | refl => exact h
  | tail _ hlast ih => exact ih.callStep hlast

/-- What `respond` does is done by one more caller, or by none. -/
theorem Reaches.respond {cs cs' : CacheState K B} {timing : Timing D} {call : CacheCall K V Exc}
    {response : Response V Exc} (h : Reaches cache backend n cs fun _ => True)
    (hstep : cache.respond cs timing call = some (response, cs')) :
    Reaches cache backend (n + 1) cs' fun _ => True := by
  obtain ⟨s, hr, rfl, hfree, -⟩ := h
  have hdrift : (callers ℕ cache backend).Reachable
      (s.withBackend (cache.ops.drift timing.before s.state.backend) []) :=
    hr.step (a := .drift timing.before) rfl
  cases call with
  | execute key func =>
      obtain ⟨⟨result, cs₁⟩, hexec, heq⟩ := Option.map_eq_some_iff.1 hstep
      obtain ⟨-, rfl⟩ := Prod.mk.inj heq
      -- caller number `n` begins, and makes the steps of `execute`
      have hbegin : Begun cache backend n key (s.log ++ []).length
          (.checking, cache.drift timing.before s.state) := by
        refine ⟨(s.withBackend (cache.ops.drift timing.before s.state.backend) []).begin n key .sync
          .checking, hdrift.step (a := .execute n key) ?_, rfl, ?_, Function.update_self ..⟩
        · change System.step cache _ (.execute n key) = _
          simp [System.step, System.withBackend, hfree n le_rfl]
        · intro caller hle
          exact (Function.update_of_ne (by omega) ..).trans (hfree caller (by omega))
      obtain ⟨s', hr', hs', hfree', -⟩ := hbegin.callSteps (Cache.execute_steps hexec)
      exact ⟨s', hr', hs', hfree', trivial⟩
  | invalidate key =>
      obtain ⟨-, rfl⟩ := Prod.mk.inj (Option.some_inj.1 hstep)
      exact ⟨_, hdrift.step (a := .invalidate key) rfl, rfl,
        fun caller hle => hfree caller (by omega), trivial⟩
  | invalidateAll =>
      obtain ⟨-, rfl⟩ := Prod.mk.inj (Option.some_inj.1 hstep)
      exact ⟨_, hdrift.step (a := .invalidateAll) rfl, rfl,
        fun caller hle => hfree caller (by omega), trivial⟩

/-- **The sequential runs are runs of `callers`**: the cache gets into no other states. -/
theorem sequential_reachable {ok : Sequential K V Exc B → CacheCall K V Exc × Timing D → Prop}
    {calls : List (CacheCall K V Exc × Timing D)} {s : Sequential K V Exc B}
    (h : (sequentialCalls cache backend).Run ok calls s) :
    ∃ t, (callers ℕ cache backend).Reachable t ∧ t.state = s.state := by
  suffices hreaches : Reaches cache backend calls.length s.state fun _ => True by
    obtain ⟨t, ht, hstate, -⟩ := hreaches
    exact ⟨t, ht, hstate⟩
  induction h with
  | nil => exact ⟨_, ⟨[], .nil⟩, rfl, fun _ _ => rfl, trivial⟩
  | snoc _ _ hstep ih =>
      obtain ⟨⟨response, cs⟩, hrespond, rfl⟩ := Option.map_eq_some_iff.1 hstep
      rw [List.length_append, List.length_singleton]
      exact ih.respond hrespond

end Caching
