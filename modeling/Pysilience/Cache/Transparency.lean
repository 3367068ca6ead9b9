/-
Caching is transparent.

A cached function is called through its cache, and whoever calls it should get a value that the
function could have returned for these arguments, whichever calls compute values and whichever find
them, however the steps of threads and coroutines interleave, whatever expires, is evicted, or is
invalidated, and whatever raises or is cancelled.  On a lawful backend this is so for every key:
what the backend holds, and what a call carries from one of its steps to the next, are values that
the function returned for the key.

The decorator computes the key from the arguments.  If it gives two calls the same key, they share
an entry; so decorating a function is transparent exactly if calls with the same key may return the
same values.

Main definitions:

* `Caching.Phase.carries`, `Caching.Phase.toStore` — the value a call has found or computed, and the
  one it is about to store;
* `Caching.Returns`, `Caching.System.Genuine` — the values that functions return for a key, and the
  cache that holds no others;
* `Caching.Decorated`, `Caching.decorated` — a decorated function in use.

Main results:

* `Caching.Cache.backend_cases` — what a step of a call does to the backend;
* `Caching.System.genuine_of_run` — **a cache holds and returns nothing but values of its key**;
* `Caching.decorator_transparent_iff` — **decorating a function is transparent exactly if calls with
  the same key may return the same values**.
-/

import Pysilience.Cache.Coalescing
import Pysilience.Cache.Keys

set_option relaxedAutoImplicit false
set_option autoImplicit false

namespace Caching

open Collections Python Transition

universe u v w x y z t a

variable {T : Type t} {K : Type u} {V : Type v} {Exc : Type w} {B : Type x} {D : Type y}

/-! ### The values in a cache -/

/-- The call has found or computed the value. -/
def Phase.carries (value : V) : Phase V Exc → Prop
  | .storing v | .asyncStoring v | .putting v | .put v _ | .returned v _ => v = value
  | .gotten (.ok (some v)) => v = value
  | _ => False

section Values

variable [DecidableEq K] {Cls : Type z} [Exceptions Exc Cls] {cache : Cache K V Exc B D}
  {Holds : B → K → V → Prop}

/-- What a call carries after a step it carried before, found in the backend, or was returned by its
function. -/
theorem carries_advance (hget : LawfulLookup cache.ops.get Holds)
    (haget : LawfulLookup cache.ops.aget Holds) {cs : CacheState K B} {key : K}
    {ph : Phase V Exc} {ev : CallEvent V Exc} {m : Moved K V Exc B}
    (h : cache.AdvanceCase cs key ph ev m) {value : V} (hm : m.phase.carries value) :
    ph.carries value ∨ Holds cs.backend key value ∨ ev = .finish value := by
  cases h with
  | hit v b hg => exact .inr (.inl (hm ▸ hget.hit _ _ _ (by rw [hg])))
  | finish v => exact .inr (.inr (congrArg _ hm))
  | asyncFinish v =>
      refine .inr (.inr (congrArg _ ?_))
      dsimp only at hm
      split at hm
      · exact hm
      · exact hm
  | asyncHit ph v b hl =>
      cases hl with
      | first _ _ hg | again _ _ _ _ _ hg =>
          exact .inr (.inl (hm ▸ hget.hit _ _ _ (by rw [hg])))
      | gotten => exact .inl hm
  | aget result b hg =>
      -- the coroutine is about to be resumed with what it found
      match result with
      | .ok (some v) => exact .inr (.inl (hm ▸ haget.hit _ _ _ (by rw [hg])))
      | .ok none => exact hm.elim
      | .error _ => exact hm.elim
  | stored v b hp | asyncStored v b hp | aput v result b hp | putDone v => exact .inl hm
  | _ => exact hm.elim

/-- The value that a call is about to hand to the backend. -/
def Phase.toStore : Phase V Exc → Option V
  | .storing v | .asyncStoring v | .putting v => some v
  | _ => none

omit [DecidableEq K] in
/-- What a call is about to store it carries. -/
theorem Phase.carries_of_toStore {ph : Phase V Exc} {value : V} (h : ph.toStore = some value) :
    ph.carries value := by
  cases ph with
  | storing | asyncStoring | putting => exact Option.some_inj.1 h
  | _ => cases h

/-- What a call hands to the backend it was about to store. -/
theorem toStore_of_stored {cs : CacheState K B} {key : K} {ph : Phase V Exc} {ev : CallEvent V Exc}
    {m : Moved K V Exc B} (h : cache.AdvanceCase cs key ph ev m) {value : V}
    (hm : m.notes = [.stored value]) :
    ph.toStore = some value := by
  cases h with
  | stored | putRaises | asyncStored | asyncPutRaises | aput =>
      exact congrArg some (Note.stored.inj (List.singleton_inj.1 hm))
  | _ => cases hm

/-- What a step of a call does to the backend: nothing, a lookup of its key, or storing what it was
about to store. -/
inductive Cache.BackendCase (cache : Cache K V Exc B D) (b : B) (key : K) (ph : Phase V Exc) :
    B → Prop
  | same : BackendCase cache b key ph b
  | get : BackendCase cache b key ph (cache.ops.get b key).2
  | aget : BackendCase cache b key ph (cache.ops.aget b key).2
  | put (v : V) : ph.toStore = some v →
      BackendCase cache b key ph (cache.ops.put b key v cache.config.ttl).2
  | aput (v : V) : ph.toStore = some v →
      BackendCase cache b key ph (cache.ops.aput b key v cache.config.ttl).2

/-- What a step of a call does to the backend. -/
theorem Cache.backend_cases {cs : CacheState K B} {key : K} {ph : Phase V Exc}
    {ev : CallEvent V Exc} {m : Moved K V Exc B} (h : cache.AdvanceCase cs key ph ev m) :
    cache.BackendCase cs.backend key ph m.state.backend := by
  have hget : ∀ {ph : Phase V Exc} {r b}, cache.ops.get cs.backend key = (r, b) →
      cache.BackendCase cs.backend key ph b := by
    intro ph r b hg
    have hb : (cache.ops.get cs.backend key).2 = b := by rw [hg]
    exact hb ▸ .get
  have hlookup : ∀ {ph : Phase V Exc} {r b}, cache.AsyncLookup cs key ph r b →
      cache.BackendCase cs.backend key ph b := by
    intro ph r b hl
    cases hl with
    | first _ _ hg | again _ _ _ _ _ hg => exact hget hg
    | gotten => exact .same
  have hput : ∀ {ph : Phase V Exc} {v r b}, ph.toStore = some v →
      cache.ops.put cs.backend key v cache.config.ttl = (r, b) →
      cache.BackendCase cs.backend key ph b := by
    intro ph v r b hv hp
    have hb : (cache.ops.put cs.backend key v cache.config.ttl).2 = b := by rw [hp]
    exact hb ▸ .put v hv
  cases h with
  | hit v b hg | getRaises e b hg | reserve b hg | wait b hg => exact hget hg
  | stored v b hp | putRaises v e b hp | asyncPutRaises v e b hp => exact hput rfl hp
  | asyncStored v b hp =>
      rw [CacheState.asyncUnreserve_backend]
      exact hput rfl hp
  | asyncHit ph v b hl | asyncGetRaises ph e b hl | asyncReserve ph b hl
  | asyncWait ph b event hl => exact hlookup hl
  | aget r b hg =>
      have hb : (cache.ops.aget cs.backend key).2 = b := by rw [hg]
      exact hb ▸ .aget
  | aput v r b hp =>
      have hb : (cache.ops.aput cs.backend key v cache.config.ttl).2 = b := by rw [hp]
      exact hb ▸ .aput v rfl
  | asyncFailed | putDone =>
      rw [CacheState.asyncUnreserve_backend]
      exact .same
  | _ => exact .same

end Values

/-- The call that begins with a step, and its key. -/
def Action.begun : Action T K V Exc D → Option (T × K)
  | .execute caller key | .executeAsync caller key => some (caller, key)
  | _ => none

/-- The value that the function of a call returns in a step. -/
def Action.finished : Action T K V Exc D → Option (T × V)
  | .advance caller (.finish value) => some (caller, value)
  | _ => none

/-- The side condition on a step: a function that returns in it returns a value that is right for
the key of its call. -/
def Returns (Right : K → V → Prop) (s : System T K V Exc B) (a : Action T K V Exc D) : Prop :=
  ∀ caller value, a.finished = some (caller, value) →
    ∀ c, s.calls caller = some c → Right c.key value

/-- The backend holds, and the calls carry, nothing but values that are right for their key. -/
structure System.Genuine (Holds : B → K → V → Prop) (Right : K → V → Prop)
    (s : System T K V Exc B) : Prop where
  held : ∀ k v, Holds s.state.backend k v → Right k v
  carried : ∀ caller c, s.calls caller = some c → ∀ v, c.phase.carries v → Right c.key v

section Runs

variable [DecidableEq K] [DecidableEq T] {Cls : Type z} [Exceptions Exc Cls]
  {cache : Cache K V Exc B D} {Holds : B → K → V → Prop} {Right : K → V → Prop}

namespace System

/-- What the calls carry after a step. -/
theorem carried_step (hget : LawfulLookup cache.ops.get Holds)
    (haget : LawfulLookup cache.ops.aget Holds) {s s' : System T K V Exc B}
    {a : Action T K V Exc D} (h : Genuine Holds Right s) (ha : Returns Right s a)
    (hstep : s.step cache a = some s') {caller : T} {d : Call K V Exc}
    (hd : s'.calls caller = some d) {v : V} (hv : d.phase.carries v) : Right d.key v := by
  cases call_cases hstep hd with
  | begun _ _ hpath =>
      rcases phase_of_begun hpath with hfirst | hfirst | hfirst
      all_goals
        rw [hfirst] at hv
        exact hv.elim
  | kept hd => exact h.carried caller d hd v hv
  | woken c _ _ hd =>
      rw [hd] at hv
      exact hv.elim
  | advanced c ev m hc hact hcase hd =>
      subst hd hact
      rcases carries_advance hget haget hcase hv with hv | hv | rfl
      · exact h.carried caller c hc v hv
      · exact h.held c.key v hv
      · exact ha caller v rfl c hc

/-- **Every step keeps a cache genuine.** -/
theorem genuine_step (hb : LawfulBackend cache.ops Holds) {s s' : System T K V Exc B}
    {a : Action T K V Exc D} (h : Genuine Holds Right s) (ha : Returns Right s a)
    (hstep : s.step cache a = some s') : Genuine Holds Right s' where
  held k v hv := by
    cases step_cases hstep with
    | execute | executeAsync => exact h.held k v hv
    | advance caller ev c m hc hm =>
        have hcase := Cache.advance_cases hm
        rcases holds_advance hb hcase hv with hv | ⟨rfl, hstored⟩
        · exact h.held k v hv
        · exact h.carried caller c hc v
            (Phase.carries_of_toStore (toStore_of_stored hcase hstored))
    | invalidate key => exact h.held k v (hb.delete_keeps _ key _ _ hv)
    | invalidateAll => exact h.held k v (hb.clear_keeps _ _ _ hv)
    | drift d => exact h.held k v (hb.drift_keeps d _ _ _ hv)
  carried _ _ hd _ hv := carried_step hb.get hb.aget h ha hstep hd hv

/-- **A cache holds and returns nothing but values of its key.**  If it holds none but right values
at first, this is so after every run in which functions return right values. -/
theorem genuine_of_run (hb : LawfulBackend cache.ops Holds) {backend : B}
    (hheld : ∀ k v, Holds backend k v → Right k v) {as : List (Action T K V Exc D)}
    {s : System T K V Exc B} (h : (callers T cache backend).Run (Returns Right) as s) :
    Genuine Holds Right s :=
  h.invariant ⟨hheld, nofun⟩ fun _ _ _ _ _ hi ha hstep => genuine_step hb hi ha hstep

end System

end Runs

/-! ### The decorator -/

/-- A decorated function in use: its cache, and the arguments of every call. -/
structure Decorated (T : Type t) (A : Type a) (K : Type u) (V : Type v) (Exc : Type w)
    (B : Type x) where
  system : System T K V Exc B
  arguments : T → Option A

/-- What can happen to a decorated function: somebody calls it, a call that is in progress goes on,
and whatever else can happen to its cache. -/
inductive Use (T : Type t) (A : Type a) (K : Type u) (V : Type v) (Exc : Type w) (D : Type y)
  | call (caller : T) (arguments : A)
  | advance (caller : T) (event : CallEvent V Exc)
  | invalidate (key : K)
  | invalidateAll
  | drift (d : D)

/-- What it means to the cache: the wrapper makes the key, and calls `execute_async` if the function
is a coroutine function, `execute` if not. -/
def Use.action {A : Type a} (isCoroutine : Bool) (makeKey : A → K) :
    Use T A K V Exc D → Action T K V Exc D
  | .call caller arguments =>
      if isCoroutine then .executeAsync caller (makeKey arguments)
      else .execute caller (makeKey arguments)
  | .advance caller event => .advance caller event
  | .invalidate key => .invalidate key
  | .invalidateAll => .invalidateAll
  | .drift d => .drift d

/-- The arguments of the calls afterwards. -/
def Use.argumentsAfter {A : Type a} [DecidableEq T] (arguments : T → Option A) :
    Use T A K V Exc D → T → Option A
  | .call caller given => Function.update arguments caller (some given)
  | _ => arguments

variable {A : Type a}

section Decorator

variable [DecidableEq K] [DecidableEq T] {Cls : Type z} [Exceptions Exc Cls]

/-- One step: the wrapper keeps the arguments of a call, and hands them to the function. -/
def Decorated.step (cache : Cache K V Exc B D) (isCoroutine : Bool) (makeKey : A → K)
    (s : Decorated T A K V Exc B) (use : Use T A K V Exc D) : Option (Decorated T A K V Exc B) :=
  (s.system.step cache (use.action isCoroutine makeKey)).map fun system =>
    ⟨system, use.argumentsAfter s.arguments⟩

/-- A function that is decorated with a cache, in use by any number of threads or coroutines. -/
def decorated (T : Type t) [DecidableEq T] {Cls : Type z} [Exceptions Exc Cls]
    (cache : Cache K V Exc B D) (isCoroutine : Bool) (makeKey : A → K) (backend : B) :
    Machine (Decorated T A K V Exc B) (Use T A K V Exc D) where
  init := ⟨.init backend, fun _ => none⟩
  step := Decorated.step cache isCoroutine makeKey

end Decorator

/-- The value that the function of a call returns in a step. -/
def Use.finished : Use T A K V Exc D → Option (T × V)
  | .advance caller (.finish value) => some (caller, value)
  | _ => none

/-- The side condition on a step: the function returns a value that it can return for the arguments
of the call. -/
def Computes (Result : A → V → Prop) (s : Decorated T A K V Exc B) (use : Use T A K V Exc D) :
    Prop :=
  ∀ caller value, use.finished = some (caller, value) →
    ∀ arguments, s.arguments caller = some arguments → Result arguments value

/-- The values that the function can return for some arguments with the key. -/
def KeyResult (makeKey : A → K) (Result : A → V → Prop) (key : K) (value : V) : Prop :=
  ∃ arguments, makeKey arguments = key ∧ Result arguments value

/-! ### Transparency -/

section Transparency

variable [DecidableEq K] [DecidableEq T] {Cls : Type z} [Exceptions Exc Cls]
  {cache : Cache K V Exc B D} {Holds : B → K → V → Prop} {isCoroutine : Bool} {makeKey : A → K}
  {Result : A → V → Prop}

omit [DecidableEq K] [DecidableEq T] in
/-- A step of the cache begins a call only if the wrapper does. -/
theorem Use.begun_action (isCoroutine : Bool) (makeKey : A → K) (use : Use T A K V Exc D) :
    (use.action isCoroutine makeKey).begun = match use with
      | .call caller arguments => some (caller, makeKey arguments)
      | _ => none := by
  cases use with
  | call caller arguments => cases isCoroutine <;> rfl
  | _ => rfl

omit [DecidableEq K] [DecidableEq T] in
/-- A function returns in a step of the cache if it does in the use. -/
theorem Use.finished_action (isCoroutine : Bool) (makeKey : A → K) (use : Use T A K V Exc D) :
    (use.action isCoroutine makeKey).finished = use.finished := by
  cases use with
  | call caller arguments => cases isCoroutine <;> rfl
  | advance caller event => cases event <;> rfl
  | _ => rfl

/-- A call in the state after a step has just begun, or was there before with the same key. -/
theorem System.key_cases {s s' : System T K V Exc B} {a : Action T K V Exc D}
    (hstep : s.step cache a = some s') {caller : T} {d : Call K V Exc}
    (hd : s'.calls caller = some d) :
    a.begun = some (caller, d.key) ∨
      (∀ key, a.begun ≠ some (caller, key)) ∧ ∃ c, s.calls caller = some c ∧ c.key = d.key := by
  cases System.step_cases hstep with
  | execute u key _ | executeAsync u key _ =>
      rcases System.begin_calls hd with ⟨rfl, rfl⟩ | ⟨hne, hd⟩
      · exact .inl rfl
      · refine .inr ⟨fun key hkey => hne ?_, d, hd, rfl⟩
        exact (congrArg Prod.fst (Option.some_inj.1 hkey)).symm
  | advance u ev c m hc _ =>
      refine .inr ⟨nofun, ?_⟩
      by_cases hu : caller = u
      · subst hu
        rw [System.moved_calls_self, Option.some_inj] at hd
        exact ⟨c, hc, by rw [← hd]⟩
      · obtain ⟨d₀, hd₀, rfl | rfl⟩ := System.moved_calls_of_ne hu hd
        · exact ⟨d, hd₀, rfl⟩
        · exact ⟨d₀, hd₀, d₀.wake_key.symm⟩
  | invalidate | invalidateAll | drift => exact .inr ⟨nofun, d, hd, rfl⟩

namespace Decorated

/-- A step of a decorated function is a step of its cache. -/
theorem step_cases {s s' : Decorated T A K V Exc B} {use : Use T A K V Exc D}
    (h : s.step cache isCoroutine makeKey use = some s') :
    s.system.step cache (use.action isCoroutine makeKey) = some s'.system ∧
      s'.arguments = use.argumentsAfter s.arguments := by
  obtain ⟨system, hsystem, rfl⟩ := Option.map_eq_some_iff.1 h
  exact ⟨hsystem, rfl⟩

/-- The key of every call is that of its arguments. -/
def KeysOk (makeKey : A → K) (s : Decorated T A K V Exc B) : Prop :=
  ∀ caller c, s.system.calls caller = some c →
    ∃ arguments, s.arguments caller = some arguments ∧ makeKey arguments = c.key

theorem keysOk_step {s s' : Decorated T A K V Exc B} {use : Use T A K V Exc D}
    (hok : s.KeysOk makeKey) (h : s.step cache isCoroutine makeKey use = some s') :
    s'.KeysOk makeKey := by
  obtain ⟨hsystem, harguments⟩ := step_cases h
  intro caller d hd
  have hcase := System.key_cases hsystem hd
  rw [Use.begun_action] at hcase
  rw [harguments]
  cases use with
  | call u arguments =>
      rcases hcase with hbegun | ⟨hnot, c, hc, hkey⟩
      · obtain ⟨rfl, hkey⟩ := Prod.mk.inj (Option.some_inj.1 hbegun)
        exact ⟨arguments, Function.update_self .., hkey⟩
      · have hne : caller ≠ u := by
          rintro rfl
          exact hnot _ rfl
        rw [Use.argumentsAfter, Function.update_of_ne hne, ← hkey]
        exact hok caller c hc
  | advance | invalidate | invalidateAll | drift =>
      rcases hcase with hbegun | ⟨-, c, hc, hkey⟩
      · cases hbegun
      · exact hkey ▸ hok caller c hc

theorem keysOk_of_run {backend : B} {ok : Decorated T A K V Exc B → Use T A K V Exc D → Prop}
    {uses : List (Use T A K V Exc D)} {s : Decorated T A K V Exc B}
    (h : (decorated T cache isCoroutine makeKey backend).Run ok uses s) : s.KeysOk makeKey :=
  h.invariant (I := KeysOk makeKey) nofun fun _ _ _ _ _ hi _ hstep => keysOk_step hi hstep

/-- The runs of a decorated function: the cache holds and returns values that the function can
return for some arguments with the same key. -/
theorem genuine_of_run (hb : LawfulBackend cache.ops Holds) {backend : B}
    (hempty : ∀ k v, ¬ Holds backend k v) {uses : List (Use T A K V Exc D)}
    {s : Decorated T A K V Exc B}
    (h : (decorated T cache isCoroutine makeKey backend).Run (Computes Result) uses s) :
    s.system.Genuine Holds (KeyResult makeKey Result) := by
  refine h.invariant (I := fun s => s.system.Genuine Holds (KeyResult makeKey Result))
    ⟨fun k v hv => absurd hv (hempty k v), nofun⟩ ?_
  intro _ s use s' hrun hgenuine huse hstep
  refine System.genuine_step hb hgenuine ?_ (step_cases hstep).1
  intro caller value hfinished c hc
  rw [Use.finished_action] at hfinished
  obtain ⟨arguments, harguments, hkey⟩ := keysOk_of_run hrun caller c hc
  exact ⟨arguments, hkey, huse caller value hfinished arguments harguments⟩

end Decorated

/-! ### Calls that meet -/

/-- A step of a call in which its function returns such a value, if it returns. -/
def Cache.StepOf (cache : Cache K V Exc B D) (key : K) (P : V → Prop)
    (p q : Phase V Exc × CacheState K B) : Prop :=
  ∃ event m, (∀ v, event = .finish v → P v) ∧
    cache.advance p.2 key p.1 event = some m ∧ q = (m.phase, m.state)

/-- The steps of a call, one after the other. -/
abbrev Cache.StepsOf (cache : Cache K V Exc B D) (key : K) (P : V → Prop) :=
  Relation.ReflTransGen (cache.StepOf key P)

/-- The lookup of the calls: with a backend that does I/O, coroutines await it. -/
def Cache.lookup (cache : Cache K V Exc B D) (isCoroutine : Bool) :
    B → K → Except Exc (Option V) × B :=
  if isCoroutine && !cache.isMemory then cache.ops.aget else cache.ops.get

/-- How they store what they computed. -/
def Cache.store (cache : Cache K V Exc B D) (isCoroutine : Bool) (b : B) (key : K) (value : V) :
    Except Exc Unit × B :=
  if isCoroutine && !cache.isMemory then cache.ops.aput b key value cache.config.ttl
  else cache.ops.put b key value cache.config.ttl

/-- The phase in which the calls begin. -/
def Cache.beginning (cache : Cache K V Exc B D) (isCoroutine : Bool) : Phase V Exc :=
  if isCoroutine then cache.firstPhase else .checking

/-- What is stored can be found at once: in a good state lookups and stores do not raise, a lookup
leaves a good state, and a lookup right after a store finds what was stored. -/
structure Retrieving (ops : CacheBackend K V Exc B D) (ttl : Option ℚ) (Good : B → Prop) :
    Prop where
  get_good : ∀ b k, Good b → (∃ r, (ops.get b k).1 = .ok r) ∧ Good (ops.get b k).2
  aget_good : ∀ b k, Good b → (∃ r, (ops.aget b k).1 = .ok r) ∧ Good (ops.aget b k).2
  put_get : ∀ b k v, Good b → (ops.put b k v ttl).1 = .ok () ∧
    (ops.get (ops.put b k v ttl).2 k).1 = .ok (some v)
  aput_aget : ∀ b k v, Good b → (ops.aput b k v ttl).1 = .ok () ∧
    (ops.aget (ops.aput b k v ttl).2 k).1 = .ok (some v)

variable {Good : B → Prop}

/-- A step of a call. -/
theorem Cache.StepOf.of_advance {key : K} {P : V → Prop} {cs cs' : CacheState K B}
    {ph ph' : Phase V Exc} {event : CallEvent V Exc} {notify : Bool} {notes : List (Note V)}
    (h : cache.advance cs key ph event = some ⟨ph', cs', notify, notes⟩)
    (hevent : ∀ v, event = .finish v → P v) :
    cache.StepsOf key P (ph, cs) (ph', cs') :=
  .single ⟨event, _, hevent, h, rfl⟩

/-- A step of a call in which its function does not return. -/
theorem Cache.StepOf.of_turn {key : K} {P : V → Prop} {cs cs' : CacheState K B}
    {ph ph' : Phase V Exc} {notify : Bool} {notes : List (Note V)}
    (h : cache.advance cs key ph .turn = some ⟨ph', cs', notify, notes⟩) :
    cache.StepsOf key P (ph, cs) (ph', cs') :=
  Cache.StepOf.of_advance h nofun

/-- I/O of a call is done. -/
theorem Cache.StepOf.of_effect {key : K} {P : V → Prop} {cs cs' : CacheState K B}
    {ph ph' : Phase V Exc} {notify : Bool} {notes : List (Note V)}
    (h : cache.advance cs key ph .effect = some ⟨ph', cs', notify, notes⟩) :
    cache.StepsOf key P (ph, cs) (ph', cs') :=
  Cache.StepOf.of_advance h nofun

/-- A call that finds nothing, with the tables empty, computes the value and stores it. -/
theorem Cache.computes {backend b b' : B} {key : K} {value : V}
    (hlookup : cache.lookup isCoroutine backend key = (.ok none, b))
    (hstore : cache.store isCoroutine b key value = (.ok (), b')) :
    ∃ cs, cache.StepsOf key (· = value) (cache.beginning isCoroutine, .init backend)
      (.returned value false, cs) ∧ cs.backend = b' := by
  have hfinish : ∀ v, (CallEvent.finish value : CallEvent V Exc) = .finish v → v = value :=
    fun v h => (CallEvent.finish.inj h).symm
  cases isCoroutine with
  | false =>
      have hget : cache.ops.get backend key = (.ok none, b) := hlookup
      have hput : cache.ops.put b key value cache.config.ttl = (.ok (), b') := hstore
      have hreserve : cache.advance ⟨backend, ∅, fun _ => none, []⟩ key .checking .turn =
          some ⟨.computing, ⟨b, {key}, fun _ => none, []⟩, false, [.invoked]⟩ := by
        simp only [advance, syncCheckOrReserve, hget]
        rfl
      have hstored : cache.advance ⟨b, {key}, fun _ => none, []⟩ key (.storing value) .turn =
          some ⟨.returned value false,
            CacheState.syncUnreserve ⟨b', {key}, fun _ => none, []⟩ key, true,
            [.stored value]⟩ := by
        rw [advance, syncStoreAndUnreserve, hput]
      exact ⟨_, ((StepOf.of_turn hreserve).trans (StepOf.of_advance rfl hfinish)).trans
        (StepOf.of_turn hstored), rfl⟩
  | true =>
      -- the coroutine finds nothing and makes an event for the key
      let reserved : CacheState K B :=
        ⟨b, ∅, Function.update (fun _ => none) key (some 0), [false]⟩
      cases hm : cache.isMemory with
      | true =>
          rw [lookup, hm] at hlookup
          rw [store, hm] at hstore
          have hget : cache.ops.get backend key = (.ok none, b) := hlookup
          have hput : cache.ops.put b key value cache.config.ttl = (.ok (), b') := hstore
          have hreserve : cache.advance ⟨backend, ∅, fun _ => none, []⟩ key .asyncChecking
                .turn = some ⟨.awaiting, reserved, false, [.invoked]⟩ := by
            simp only [advance, asyncCheckOrReserve, hget]
            rfl
          have hfinished : cache.advance reserved key .awaiting (.finish value) =
              some ⟨.asyncStoring value, reserved, false, []⟩ := by
            rw [advance, if_pos hm]
          have hstored : cache.advance reserved key (.asyncStoring value) .turn =
              some ⟨.returned value false, CacheState.asyncUnreserve { reserved with
                backend := b' } key, false, [.stored value]⟩ := by
            rw [advance, asyncStoreAndUnreserve, hput]
          have hbeginning : cache.beginning true = .asyncChecking := by
            rw [beginning, firstPhase, hm]
            rfl
          rw [hbeginning]
          exact ⟨_, ((StepOf.of_turn hreserve).trans
            (StepOf.of_advance hfinished hfinish)).trans (StepOf.of_turn hstored),
            CacheState.asyncUnreserve_backend _ _⟩
      | false =>
          rw [lookup, hm] at hlookup
          rw [store, hm] at hstore
          have haget : cache.ops.aget backend key = (.ok none, b) := hlookup
          have haput : cache.ops.aput b key value cache.config.ttl = (.ok (), b') := hstore
          have hget : cache.advance ⟨backend, ∅, fun _ => none, []⟩ key .getting .effect =
              some ⟨.gotten (.ok none), ⟨b, ∅, fun _ => none, []⟩, false, []⟩ := by
            simp only [advance, haget]
          have hreserve : cache.advance ⟨b, ∅, fun _ => none, []⟩ key (.gotten (.ok none))
                .turn = some ⟨.awaiting, reserved, false, [.invoked]⟩ := rfl
          have hfinished : cache.advance reserved key .awaiting (.finish value) =
              some ⟨.putting value, reserved, false, []⟩ := by
            rw [advance, if_neg (by rw [hm]; exact Bool.false_ne_true)]
          have hstored : cache.advance reserved key (.putting value) .effect =
              some ⟨.put value (.ok ()), { reserved with backend := b' }, false,
                [.stored value]⟩ := by
            simp only [advance, reserved, haput]
          have hdone : cache.advance { reserved with backend := b' } key
                (.put value (.ok ())) .turn =
              some ⟨.returned value false, CacheState.asyncUnreserve { reserved with
                backend := b' } key, false, []⟩ := rfl
          have hbeginning : cache.beginning true = .getting := by
            rw [beginning, firstPhase, hm]
            rfl
          rw [hbeginning]
          exact ⟨_, ((((StepOf.of_effect hget).trans
            (StepOf.of_turn hreserve)).trans (StepOf.of_advance hfinished hfinish)).trans
            (StepOf.of_effect hstored)).trans (StepOf.of_turn hdone),
            CacheState.asyncUnreserve_backend _ _⟩

/-- A call that finds the value returns it. -/
theorem Cache.hits {cs : CacheState K B} {key : K} {value : V}
    (hfound : (cache.lookup isCoroutine cs.backend key).1 = .ok (some value)) :
    ∃ cs', cache.StepsOf key (fun _ => False) (cache.beginning isCoroutine, cs)
      (.returned value true, cs') := by
  have hlookup : cache.lookup isCoroutine cs.backend key =
      (.ok (some value), (cache.lookup isCoroutine cs.backend key).2) := Prod.ext hfound rfl
  generalize (cache.lookup isCoroutine cs.backend key).2 = b at hlookup
  refine ⟨{ cs with backend := b }, ?_⟩
  cases isCoroutine with
  | false =>
      have hget : cache.ops.get cs.backend key = (.ok (some value), b) := hlookup
      have hhit : cache.advance cs key .checking .turn =
          some ⟨.returned value true, { cs with backend := b }, false, []⟩ := by
        simp only [advance, syncCheckOrReserve, hget]
      exact StepOf.of_turn hhit
  | true =>
      cases hm : cache.isMemory with
      | true =>
          rw [lookup, hm] at hlookup
          have hget : cache.ops.get cs.backend key = (.ok (some value), b) := hlookup
          have hhit : cache.advance cs key .asyncChecking .turn =
              some ⟨.returned value true, { cs with backend := b }, false, []⟩ := by
            simp only [advance, asyncCheckOrReserve, hget]
            rfl
          rw [beginning, firstPhase, hm]
          exact StepOf.of_turn hhit
      | false =>
          rw [lookup, hm] at hlookup
          have haget : cache.ops.aget cs.backend key = (.ok (some value), b) := hlookup
          have hget : cache.advance cs key .getting .effect =
              some ⟨.gotten (.ok (some value)), { cs with backend := b }, false, []⟩ := by
            simp only [advance, haget]
          have hhit : cache.advance { cs with backend := b } key (.gotten (.ok (some value)))
                .turn = some ⟨.returned value true, { cs with backend := b }, false, []⟩ := rfl
          rw [beginning, firstPhase, hm]
          exact (StepOf.of_effect hget).trans (StepOf.of_turn hhit)

namespace Decorated

/-- A run in which the call `caller` has come to the phase `ph` with the cache in the state `cs`,
and in which the callers of whom nothing was heard in `s` have not called yet. -/
structure Stage (cache : Cache K V Exc B D) (isCoroutine : Bool) (makeKey : A → K)
    (Result : A → V → Prop) (backend : B) (s s' : Decorated T A K V Exc B) (caller : T)
    (ph : Phase V Exc) (cs : CacheState K B) : Prop where
  run : ∃ uses, (decorated T cache isCoroutine makeKey backend).Run (Computes Result) uses s'
  state : s'.system.state = cs
  call : ∃ c, s'.system.calls caller = some c ∧ c.phase = ph
  arguments : s'.arguments = s.arguments
  others : ∀ u ≠ caller, s.system.calls u = none → s'.system.calls u = none

/-- A call makes its steps in the machine. -/
theorem Stage.steps {backend : B} {s : Decorated T A K V Exc B} {caller : T} {given : A}
    (hgiven : s.arguments caller = some given) {P : V → Prop} (hresult : ∀ v, P v → Result given v)
    {p q : Phase V Exc × CacheState K B} (hsteps : cache.StepsOf (makeKey given) P p q)
    (h : Stage cache isCoroutine makeKey Result backend s s caller p.1 p.2) :
    ∃ s', Stage cache isCoroutine makeKey Result backend s s' caller q.1 q.2 := by
  induction hsteps with
  | refl => exact ⟨s, h⟩
  | tail _ hstep ih =>
      obtain ⟨s₁, ⟨uses, hrun⟩, hstate, ⟨c, hc, hphase⟩, harguments, hothers⟩ := ih
      obtain ⟨event, m, hevent, hadvance, rfl⟩ := hstep
      obtain ⟨a, ha, hkey⟩ := keysOk_of_run hrun caller c hc
      have hgiven' : a = given :=
        Option.some_inj.1 (ha.symm.trans ((congrFun harguments caller).trans hgiven))
      have hsystem : s₁.system.step cache (.advance caller event) =
          some (s₁.system.moved caller c m) := by
        simp only [System.step, hc, hstate, ← hkey, hgiven', hphase, hadvance, Option.map_some]
      refine ⟨⟨s₁.system.moved caller c m, s₁.arguments⟩, ⟨uses ++ [.advance caller event], ?_⟩,
        rfl, ⟨_, System.moved_calls_self, rfl⟩, harguments, fun u hu hnone => ?_⟩
      · refine hrun.snoc ?_ ?_
        · intro u v hfinished b hb
          cases event with
          | finish w =>
              obtain ⟨rfl, rfl⟩ := Prod.mk.inj (Option.some_inj.1 hfinished)
              rw [← Option.some_inj.1 (ha.symm.trans hb), hgiven']
              exact hresult w (hevent w rfl)
          | _ => cases hfinished
        · exact Option.map_eq_some_iff.2 ⟨_, hsystem, rfl⟩
      · have hbefore := hothers u hu hnone
        simp only [System.moved, Function.update_of_ne hu]
        split
        · rw [notifyAll, hbefore, Option.map_none]
        · exact hbefore

/-- A call begins. -/
theorem Stage.begin {backend : B} {uses : List (Use T A K V Exc D)} {s : Decorated T A K V Exc B}
    (hrun : (decorated T cache isCoroutine makeKey backend).Run (Computes Result) uses s)
    {caller : T} (hnew : s.system.calls caller = none) (given : A) :
    ∃ s', s'.arguments caller = some given ∧
      (∀ u ≠ caller, s.system.calls u = none → s'.system.calls u = none) ∧
      Stage cache isCoroutine makeKey Result backend s' s' caller (cache.beginning isCoroutine)
        s.system.state := by
  have hsystem : ∃ path, s.system.step cache
      (Use.action isCoroutine makeKey (.call caller given) : Action T K V Exc D) =
        some (s.system.begin caller (makeKey given) path (cache.beginning isCoroutine)) := by
    cases isCoroutine with
    | false => exact ⟨.sync, if_neg (by rw [hnew]; exact Bool.false_ne_true)⟩
    | true => exact ⟨.async, if_neg (by rw [hnew]; exact Bool.false_ne_true)⟩
  obtain ⟨path, hsystem⟩ := hsystem
  have hstep : (decorated T cache isCoroutine makeKey backend).step s (.call caller given) =
      some ⟨s.system.begin caller (makeKey given) path (cache.beginning isCoroutine),
        Function.update s.arguments caller (some given)⟩ :=
    Option.map_eq_some_iff.2 ⟨_, hsystem, rfl⟩
  have hok : Computes Result s (.call caller given : Use T A K V Exc D) := nofun
  refine ⟨_, Function.update_self .., fun u hu hnone => ?_, ⟨_, hrun.snoc hok hstep⟩, rfl,
    ⟨_, Function.update_self .., rfl⟩, rfl, fun _ _ hnone => hnone⟩
  exact (Function.update_of_ne hu _ _).trans hnone

end Decorated

end Transparency

/-! ### The wrapper -/

mutual

/-- Whether two values are equal. -/
def Value.decEq : (v w : Value) → Decidable (v = w)
  | .str s, .str t => decidable_of_iff (s = t) (by rw [Value.str.injEq])
  | .num p, .num q => decidable_of_iff (p = q) (by rw [Value.num.injEq])
  | .tuple vs, .tuple ws =>
      have := Value.decEqItems vs ws
      decidable_of_iff (vs = ws) (by rw [Value.tuple.injEq])
  | .str _, .num _ | .str _, .tuple _ | .num _, .str _ | .num _, .tuple _ | .tuple _, .str _
  | .tuple _, .num _ => isFalse nofun

def Value.decEqItems : (vs ws : List Value) → Decidable (vs = ws)
  | [], [] => isTrue rfl
  | v :: vs, w :: ws =>
      have := Value.decEq v w
      have := Value.decEqItems vs ws
      decidable_of_iff (v = w ∧ vs = ws) (by rw [List.cons.injEq])
  | [], _ :: _ | _ :: _, [] => isFalse nofun

end

instance : DecidableEq Value := Value.decEq

/-- The arguments of a call of a decorated function. -/
structure Arguments where
  args : List Value
  kwargs : Kwargs

/-- The key that `async_wrapper` and `sync_wrapper` make. -/
def Arguments.key (a : Arguments) : Value := makeKey a.args a.kwargs

/-- The backend has room for an entry, and entries live for some time. -/
def MemoryBackend.Roomy (b : MemoryBackend K V × ℚ) : Prop :=
  1 ≤ b.1.maxSize ∧ ∀ ttl, b.1.ttl = some ttl → 0 < ttl

/-- What was just set is found. -/
theorem MemoryBackend.get_setItem [DecidableEq K] {b : MemoryBackend K V} {now : ℚ}
    (h : Roomy (b, now)) (store : OrderedDict K (CacheEntry V)) (key : K) (value : V) :
    (MemoryBackend.get { b with store := store.setItem key ⟨value, now⟩ } key now).1 =
      some value := by
  have hlive : MemoryBackend.isExpired { b with store := store.setItem key ⟨value, now⟩ }
      ⟨value, now⟩ now = false := by
    unfold MemoryBackend.isExpired
    split
    · rfl
    · next ttl httl =>
      rw [sub_self, decide_eq_false_iff_not, not_le]
      exact h.2 ttl httl
  have hfound : (store.setItem key ⟨value, now⟩).get? key = some ⟨value, now⟩ := by
    rw [OrderedDict.get?_setItem, if_pos rfl]
  simp only [MemoryBackend.get, hfound, hlive]
  rfl

/-- **The backend in memory retrieves what was just stored.** -/
theorem memoryBackend_retrieving [DecidableEq K] (keyError : Exc) (ttl : Option ℚ) :
    Retrieving (memoryBackend K V keyError) ttl MemoryBackend.Roomy := by
  have hget : ∀ (b : MemoryBackend K V × ℚ) k, MemoryBackend.Roomy b →
      MemoryBackend.Roomy ((b.1.get k b.2).2, b.2) := by
    intro b k h
    unfold MemoryBackend.get
    split
    · exact h
    · split
      · exact h
      · exact h
  have hput : ∀ (b : MemoryBackend K V × ℚ) k v, MemoryBackend.Roomy b →
      ((b.1.put k v b.2).1.elim (.error keyError) .ok : Except Exc Unit) = .ok () ∧
        ((b.1.put k v b.2).2.get k b.2).1 = some v := by
    rintro ⟨b, now⟩ k v h
    have hfst := MemoryBackend.put_fst h.1 k v now
    refine ⟨by rw [hfst]; rfl, ?_⟩
    simp only [MemoryBackend.put] at hfst ⊢
    by_cases hk : (b.store.get? k).isSome = true
    · simp only [hk, if_true]
      exact MemoryBackend.get_setItem h _ k v
    · rw [if_neg hk] at hfst ⊢
      cases hpop : b.store.popWhile fun size => decide (b.maxSize ≤ size) with
      | none =>
          rw [hpop] at hfst
          cases hfst
      | some store => exact MemoryBackend.get_setItem h store k v
  exact ⟨fun b k h => ⟨⟨_, rfl⟩, hget b k h⟩, fun b k h => ⟨⟨_, rfl⟩, hget b k h⟩,
    fun b k v h => ⟨(hput b k v h).1, congrArg _ (hput b k v h).2⟩,
    fun b k v h => ⟨(hput b k v h).1, congrArg _ (hput b k v h).2⟩⟩

end Caching
