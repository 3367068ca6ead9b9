/-
Coalescing with a backend that does I/O.

With a backend that is not a `MemoryBackend` a coroutine looks for its key before it takes the lock
to reserve it.  Between its lookup, which found nothing, and its reservation another coroutine may
store a value for the key and release it; then the first one reserves the key although the backend
holds the value, and computes it again.  This module shows that nothing else goes wrong: a coroutine
reserves a key that the backend holds only after such a *late release*, and every late release lets
one do so.

Main definitions:

* `Caching.System.MissPending` — a coroutine has found nothing and has not reserved the key yet;
* `Caching.System.LateRelease` — the step releases a key that is held while a miss is pending;
* `Caching.plainBackend` — a backend that simply stores.

Main results:

* `Caching.computes_only_on_miss` — **without late releases coroutines compute only what the
  backend does not hold, and each late release lets one compute what it holds**;
* `Caching.not_computes_only_on_miss` — a value is computed twice.
-/

import Pysilience.Cache.Coalescing

set_option relaxedAutoImplicit false
set_option autoImplicit false

namespace Caching

open Python Transition SingleFlight

universe u v w x y z t

variable {T : Type t} {K : Type u} {V : Type v} {Exc : Type w} {B : Type x} {D : Type y}

/-! ### Late releases -/

/-- The action is a call of `execute`. -/
def Action.isExecute : Action T K V Exc D → Bool
  | .execute .. => true
  | _ => false

/-- The coroutine releases its key in the step: it handles an exception of its function, or resumes
after `aput`. -/
def Phase.asyncReleases {Cls : Type z} [Exceptions Exc Cls] :
    Phase V Exc → CallEvent V Exc → Bool
  | .awaiting, .throw exc => caught exc
  | .put _ (.ok ()), .turn => true
  | _, _ => false

namespace System

/-- The coroutine has found nothing for the key and was not resumed since. -/
def MissPending (s : System T K V Exc B) (caller : T) (k : K) : Prop :=
  ∃ c, s.calls caller = some c ∧ c.key = k ∧ c.phase = .gotten (.ok none)

/-- The step releases a key that the backend holds while a miss of the key is pending. -/
def LateRelease {Cls : Type z} [Exceptions Exc Cls] (Holds : B → K → V → Prop)
    (s : System T K V Exc B) : Action T K V Exc D → Prop
  | .advance caller event =>
      ∃ c, s.calls caller = some c ∧ c.phase.asyncReleases event = true ∧
        (∃ v, Holds s.state.backend c.key v) ∧ ∃ u, s.MissPending u c.key
  | _ => False

variable [DecidableEq K] {Cls : Type z} [Exceptions Exc Cls] {cache : Cache K V Exc B D}
  {Holds : B → K → V → Prop}

/-! ### What a coroutine does to the backend and to the keys in flight -/

/-- With a backend that does I/O a coroutine that hands a value to the backend owns its key, and
leaves the keys in flight. -/
theorem io_stored {cs : CacheState K B} {key : K} {ph : Phase V Exc} {ev : CallEvent V Exc}
    {m : Moved K V Exc B} (h : cache.AdvanceCase cs key ph ev m)
    (hfit : ph.fits .async false = true) {w : V} (hnotes : m.notes = [.stored w]) :
    ph.asyncOwns = true ∧ m.state.asyncInflight = cs.asyncInflight := by
  cases h with
  | stored | putRaises | asyncStored | asyncPutRaises => cases hfit
  | aput => exact ⟨rfl, rfl⟩
  | _ => cases hnotes

/-- A key leaves `_async_inflight` only by a release. -/
theorem io_inflight {cs : CacheState K B} {key : K} {ph : Phase V Exc} {ev : CallEvent V Exc}
    {m : Moved K V Exc B} (h : cache.AdvanceCase cs key ph ev m)
    (hfit : ph.fits .async false = true) {l : K} (hl : cs.asyncInflight l ≠ none)
    (hgone : m.state.asyncInflight l = none) : l = key ∧ ph.asyncReleases ev = true := by
  have hun : (cs.asyncUnreserve key).asyncInflight l = none → l = key := by
    intro hn
    by_contra hne
    exact hl (by simpa [hne] using hn)
  cases h with
  | hit | getRaises | reserve | wait | finish | failed | escaped | unreserved | stored | putRaises
  | asyncStored | asyncPutRaises => cases hfit
  | asyncReserve ph b _ hn =>
      by_cases hkey : l = key
      · exact absurd (hkey ▸ hn) hl
      · exact absurd (by simpa [hkey] using hgone) hl
  | asyncFailed e he => exact ⟨hun hgone, he⟩
  | putDone => exact ⟨hun hgone, rfl⟩
  | _ => exact absurd hgone hl

/-- A coroutine that releases its key leaves the backend as it is and its key out of flight. -/
theorem released_of_asyncReleases {cs : CacheState K B} {key : K} {ph : Phase V Exc}
    {ev : CallEvent V Exc} {m : Moved K V Exc B} (h : cache.AdvanceCase cs key ph ev m)
    (hrel : ph.asyncReleases ev = true) :
    m.state.backend = cs.backend ∧ m.state.asyncInflight key = none := by
  cases h with
  | asyncFailed | putDone => simp
  | asyncEscaped e he =>
      rw [Phase.asyncReleases, he] at hrel
      cases hrel
  | asyncHit ph v b hl | asyncGetRaises ph e b hl | asyncReserve ph b hl
  | asyncWait ph b event hl => cases hl <;> cases hrel
  | cancelled ph e hph =>
      match ph, hph with
      | .suspended _, _ | .getting, _ | .gotten _, _ => cases hrel
  | putCancelled ph e hph =>
      match ph, hph with
      | .putting _, _ | .put _ (.ok ()), _ | .put _ (.error _), _ => cases hrel
  | _ => cases hrel

/-! ### Misses stay misses until a late release -/

/-- Every call is one of `execute_async`, and a key whose miss is pending is in flight as soon as
the backend holds it. -/
structure MissInv (Holds : B → K → V → Prop) (s : System T K V Exc B) : Prop where
  path : ∀ caller c, s.calls caller = some c → c.path = .async
  fresh : ∀ caller k, s.MissPending caller k → ∀ v, Holds s.state.backend k v →
    s.state.asyncInflight k ≠ none

variable [DecidableEq T]

/-- A miss that is pending after a step was pending before, or is a miss in the state before. -/
theorem missPending_step (hb : LawfulBackend cache.ops Holds) {s s' : System T K V Exc B}
    {a : Action T K V Exc D} (hstep : s.step cache a = some s') {caller : T} {k : K}
    (h : s'.MissPending caller k) :
    s.MissPending caller k ∨ ∀ v, ¬ Holds s'.state.backend k v := by
  obtain ⟨d, hd, rfl, hph⟩ := h
  obtain hd' | ⟨c, ev, m, hc, -, hcase, rfl, rfl⟩ :=
    kept_or_advanced hstep hd (P := (· = .gotten (.ok none))) hph nofun nofun nofun
  · exact .inl ⟨d, hd', rfl, hph⟩
  · right
    intro v hv
    generalize c.phase = ph at hcase
    cases hcase with
    | aget r b hg =>
        cases hph
        have hv : Holds (cache.ops.aget s.state.backend c.key).2 c.key v := by
          rw [hg]
          exact hv
        exact hb.aget.miss _ _ (by rw [hg]) v (hb.aget.keeps _ _ _ _ hv)
    | asyncFinish w => cases hm : cache.isMemory <;> simp [hm] at hph
    | _ => cases hph

/-- Without calls of `execute` only calls of `execute_async` begin. -/
theorem path_step {s s' : System T K V Exc B} {a : Action T K V Exc D}
    (h : ∀ caller c, s.calls caller = some c → c.path = .async) (hexec : a.isExecute = false)
    (hstep : s.step cache a = some s') {caller : T} {d : Call K V Exc}
    (hd : s'.calls caller = some d) : d.path = .async := by
  cases call_cases hstep hd with
  | begun hnew =>
      cases step_cases hstep with
      | execute => cases hexec
      | executeAsync =>
          rcases begin_calls hd with ⟨-, rfl⟩ | ⟨-, hd⟩
          · rfl
          · exact h caller d hd
      | advance u ev c m hc =>
          by_cases hu : caller = u
          · rw [hu, hc] at hnew
            cases hnew
          · obtain ⟨d₀, hd₀, -⟩ := moved_calls_of_ne hu hd
            rw [hd₀] at hnew
            cases hnew
      | invalidate | invalidateAll | drift => exact h caller d hd
  | kept hd' => exact h caller d hd'
  | woken c hc _ hd' => exact hd' ▸ h caller c hc
  | advanced c ev m hc _ _ hd' => exact hd' ▸ h caller c hc

/-- Every step but a late release keeps the invariant. -/
theorem missInv_step (hio : cache.isMemory = false) (hb : LawfulBackend cache.ops Holds)
    {s s' : System T K V Exc B} {a : Action T K V Exc D} (hfits : FitsOk cache s)
    (horder : Table.Orderly s.asyncTable) (h : MissInv Holds s) (hexec : a.isExecute = false)
    (hlate : ¬ s.LateRelease Holds a) (hstep : s.step cache a = some s') : MissInv Holds s' := by
  refine ⟨fun u d hd => path_step h.path hexec hstep hd, fun u k hmiss v hv => ?_⟩
  rcases missPending_step hb hstep hmiss with hpend | hnone
  · -- the miss was pending before the step
    cases step_cases hstep with
    | execute => cases hexec
    | executeAsync => exact h.fresh u k hpend v hv
    | advance caller ev c m hc hm =>
        have hcase := Cache.advance_cases hm
        have hfit : c.phase.fits .async false = true := by
          have := hfits caller c hc
          rwa [h.path caller c hc, hio] at this
        intro hgone
        rcases holds_advance hb hcase hv with hv | ⟨rfl, hnotes⟩
        · -- the key was held and in flight, and only a release takes it out of flight
          obtain ⟨rfl, hrel⟩ := io_inflight hcase hfit (h.fresh u k hpend v hv) hgone
          exact hlate ⟨c, hc, hrel, ⟨v, hv⟩, u, hpend⟩
        · -- the key has just been stored, by the coroutine that owns it
          obtain ⟨howns, hin⟩ := io_stored hcase hfit hnotes
          have hown := asyncTable_computing.2 ⟨c, hc, rfl, howns⟩
          exact horder.reserved caller c.key hown (hin ▸ hgone)
    | invalidate => exact h.fresh u k hpend v (hb.delete_keeps _ _ _ _ hv)
    | invalidateAll => exact h.fresh u k hpend v (hb.clear_keeps _ _ _ hv)
    | drift => exact h.fresh u k hpend v (hb.drift_keeps _ _ _ _ hv)
  · exact absurd hv (hnone v)

/-- After a late release the coroutine whose miss was pending reserves its key, which the backend
holds. -/
theorem computes_after_lateRelease {s s' : System T K V Exc B} {a : Action T K V Exc D}
    (hstep : s.step cache a = some s') (hlate : s.LateRelease Holds a) :
    ∃ u k v s'', s'.step cache (.advance u .turn) = some s'' ∧ ¬ s'.AsyncOwner u k ∧
      s''.AsyncOwner u k ∧ Holds s'.state.backend k v := by
  cases step_cases hstep with
  | execute | executeAsync | invalidate | invalidateAll | drift => cases hlate
  | advance caller ev c m hc hm =>
      obtain ⟨c', hc', hrel, ⟨v, hv⟩, u, d, hd, hkey, hph⟩ := hlate
      rw [hc, Option.some_inj] at hc'
      subst hc'
      obtain ⟨hb, hin⟩ := released_of_asyncReleases (Cache.advance_cases hm) hrel
      have hu : u ≠ caller := by
        rintro rfl
        rw [hc, Option.some_inj] at hd
        rw [hd, hph] at hrel
        cases hrel
      -- the pending miss is untouched by the step
      have hd' : (s.moved caller c m).calls u = some d := by
        have hwake : d.wake = d := by
          rcases d.wake_phase with ⟨hblocked, -⟩ | hw
          · rw [hph] at hblocked
            cases hblocked
          · exact hw
        simp only [moved, Function.update_of_ne hu]
        split
        · simp [notifyAll, hd, hwake]
        · exact hd
      have hin' : (s.moved caller c m).state.asyncInflight d.key = none := hkey ▸ hin
      have hturn : ∃ m', cache.advance (s.moved caller c m).state d.key d.phase .turn = some m' ∧
          m'.phase = .awaiting := by
        rw [hph]
        refine ⟨_, rfl, ?_⟩
        simp [CacheState.asyncReserve, hin', Checked.resume]
      obtain ⟨m', hm', hph'⟩ := hturn
      refine ⟨u, c.key, v, (s.moved caller c m).moved u d m', ?_, ?_, ?_, ?_⟩
      · simp only [step, hd', hm', Option.map_some]
      · rintro ⟨d', hd'', -, howns⟩
        rw [hd', Option.some_inj] at hd''
        rw [← hd'', hph] at howns
        cases howns
      · refine ⟨_, moved_calls_self, hkey, ?_⟩
        rw [hph']
        rfl
      · change Holds m.state.backend c.key v
        rw [hb]
        exact hv

end System

/-! ### Every run of coroutines -/

section Runs

variable [DecidableEq K] [DecidableEq T] {Cls : Type z} [Exceptions Exc Cls]

/-- **Without late releases coroutines compute only what the backend does not hold, and each late
release lets one compute what it holds.**  With a backend that does I/O, after every run of calls of
`execute_async` without late releases, a coroutine that reserves a key, and so invokes its function,
finds no live entry for the key in the backend; and after a step that is a late release some
coroutine can reserve a key for which there is one. -/
theorem computes_only_on_miss (cache : Cache K V Exc B D) (hio : cache.isMemory = false)
    (Holds : B → K → V → Prop) (hb : LawfulBackend cache.ops Holds) (backend : B)
    (as : List (Action T K V Exc D)) (s : System T K V Exc B)
    (h : (callers T cache backend).Run
      (fun s a => a.isExecute = false ∧ ¬ s.LateRelease Holds a) as s) :
    (∀ a s', s.step cache a = some s' → ∀ t k, ¬ s.AsyncOwner t k → s'.AsyncOwner t k →
      ∀ v, ¬ Holds s.state.backend k v) ∧
    ∀ a s', s.step cache a = some s' → s.LateRelease Holds a →
      ∃ t k v s'', s'.step cache (.advance t .turn) = some s'' ∧ ¬ s'.AsyncOwner t k ∧
        s''.AsyncOwner t k ∧ Holds s'.state.backend k v := by
  have hinv : System.MissInv Holds s := by
    refine h.invariant (I := System.MissInv Holds) ⟨?_, ?_⟩ ?_
    · intro t c hc
      cases hc
    · rintro t k ⟨c, hc, -⟩
      cases hc
    · rintro as s a s' hr hi ⟨hexec, hlate⟩ hstep
      have hfits := System.fitsOk_of_reachable hr.reachable
      have horder := System.asyncOrderly_of_reachable hr.reachable
      exact System.missInv_step hio hb hfits horder hi hexec hlate hstep
  refine ⟨fun a s' hstep t k hn ho v hv => ?_,
    fun a s' hstep hlate => System.computes_after_lateRelease hstep hlate⟩
  obtain ⟨c, b, hc, rfl, hl, hin⟩ := System.async_reserves hstep hn ho
  have hfit := System.fitsOk_of_reachable h.reachable t c hc
  rw [hio] at hfit
  generalize hph : c.phase = ph at hl hfit
  cases hl with
  | first => simp [Phase.fits] at hfit
  | again event _ _ _ hm =>
      rw [hio] at hm
      cases hm
  | gotten => exact hinv.fresh t c.key ⟨c, hc, rfl, hph⟩ v hv hin

end Runs

/-! ### Computing twice -/

/-- A backend that simply stores. -/
def plainBackend (K : Type u) [DecidableEq K] (V : Type v) (Exc : Type w) :
    CacheBackend K V Exc (K → Option V) Unit where
  get b k := (.ok (b k), b)
  put b k v _ := (.ok (), Function.update b k (some v))
  delete b k := (.ok (b k).isSome, Function.update b k none)
  clear _ := (.ok (), fun _ => none)
  aget b k := (.ok (b k), b)
  aput b k v _ := (.ok (), Function.update b k (some v))
  drift _ b := b

theorem plainBackend_lawful [DecidableEq K] :
    LawfulBackend (plainBackend K V Exc) (fun b k v => b k = some v) := by
  have hlookup : LawfulLookup (plainBackend K V Exc).get (fun b k v => b k = some v) := by
    constructor
    · intro b k v h
      exact Except.ok.inj h
    · intro b k h v
      rw [show b k = none from Except.ok.inj h]
      simp
    · exact fun _ _ _ _ h => h
  have hadds : ∀ (b : K → Option V) k v l w,
      Function.update b k (some v) l = some w → b l = some w ∨ l = k ∧ w = v := by
    intro b k v l w h
    by_cases hlk : l = k
    · rw [hlk, Function.update_self, Option.some_inj] at h
      exact .inr ⟨hlk, h.symm⟩
    · rw [Function.update_of_ne hlk] at h
      exact .inl h
  refine ⟨hlookup, hlookup, fun b k v _ => hadds b k v, fun b k v _ => hadds b k v, ?_, ?_, ?_, ?_,
    fun _ _ _ _ h => h⟩
  · intro b k r _ w
    simp [plainBackend]
  · intro b k l w h
    by_cases hlk : l = k
    · simp [plainBackend, hlk] at h
    · simpa [plainBackend, hlk] using h
  · intro b _ l w
    simp [plainBackend]
  · intro b l w h
    cases h

/-- A cache on such a backend, with the default configuration. -/
def ioCache : Cache ℕ ℕ Builtin (ℕ → Option ℕ) Unit where
  config := { accepted := CacheConfig.accepted_default }
  ops := plainBackend ℕ ℕ Builtin
  isMemory := false

/-- A coroutine has stored a value for the key `7`, and no one computes the key again. -/
theorem computes_only_on_miss_after_store :
    ∃ s : System Bool ℕ ℕ Builtin (ℕ → Option ℕ), s.state.backend 7 = some 1 ∧
      ∀ a s', s.step ioCache a = some s' → ∀ t, ¬ s.AsyncOwner t 7 → ¬ s'.AsyncOwner t 7 := by
  -- a coroutine that is alone makes no late release
  have hok : ∀ (s : System Bool ℕ ℕ Builtin (ℕ → Option ℕ)) (a : Action Bool ℕ ℕ Builtin Unit),
      (!a.isExecute && (s.calls true).isNone) = true →
        a.isExecute = false ∧ ¬ s.LateRelease (fun b k v => b k = some v) a := by
    intro s a h
    simp only [Bool.and_eq_true, Bool.not_eq_true', Option.isNone_iff_eq_none] at h
    obtain ⟨hexec, halone⟩ := h
    refine ⟨hexec, fun hlate => ?_⟩
    cases a with
    | advance caller ev =>
        obtain ⟨c, hc, hrel, -, u, d, hd, -, hph⟩ := hlate
        have hof : ∀ t e, s.calls t = some e → t = false := by
          rintro (_ | _) e he
          · rfl
          · rw [halone] at he
            cases he
        rw [hof caller c hc] at hc
        rw [hof u d hd, hc, Option.some_inj] at hd
        rw [hd, hph] at hrel
        cases hrel
    | _ => exact hlate
  obtain ⟨s, hr, hs⟩ := Machine.exists_run_of_exec (callers Bool ioCache fun _ => none) _ hok
    [.executeAsync false 7, .advance false .effect, .advance false .turn,
      .advance false (.finish 1), .advance false .effect, .advance false .turn]
    (fun s => decide (s.state.backend 7 = some 1)) (by decide +kernel)
  have hv : s.state.backend 7 = some 1 := of_decide_eq_true hs
  refine ⟨s, hv, fun a s' hstep t hn ho => ?_⟩
  exact (computes_only_on_miss ioCache rfl _ plainBackend_lawful _ _ s hr).1 a s' hstep t 7 hn ho
    1 hv

/-- Between the lookup of a coroutine and its reservation another one stores the value. -/
theorem not_computes_only_on_miss :
    ¬ ∀ as (s : System Bool ℕ ℕ Builtin (ℕ → Option ℕ)),
      (callers Bool ioCache fun _ => none).Run (fun _ a => a.isExecute = false) as s →
        ∀ a s', s.step ioCache a = some s' → ∀ t k, ¬ s.AsyncOwner t k → s'.AsyncOwner t k →
          ∀ v, s.state.backend k ≠ some v := by
  obtain ⟨s, hr, hs⟩ := Machine.exists_run_of_exec (callers Bool ioCache fun _ => none)
    (fun _ a => !a.isExecute) (fun _ _ ha => by simpa using ha)
    [.executeAsync false 7, .advance false .effect, .executeAsync true 7, .advance true .effect,
      .advance true .turn, .advance true (.finish 1), .advance true .effect, .advance true .turn]
    (fun s => decide (s.state.backend 7 = some 1 ∧ s.asyncTable.computing false = none ∧
      (s.step ioCache (.advance false .turn)).map (fun s' => s'.asyncTable.computing false) =
        some (some 7))) (by decide +kernel)
  obtain ⟨hv, hn, hstep⟩ := of_decide_eq_true hs
  obtain ⟨s', hs', ho⟩ := Option.map_eq_some_iff.1 hstep
  intro h
  refine h _ s hr _ s' hs' false 7 (fun hown => ?_) (System.asyncTable_computing.1 ho) 1 hv
  have hown := System.asyncTable_computing.2 hown
  rw [hn] at hown
  cases hown

end Caching
