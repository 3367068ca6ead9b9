/-
Concurrent callers of one key are coalesced.

Looking for a key and reserving it are one section, both for threads and, with a `MemoryBackend`,
for coroutines.  So the function of a call is invoked only if the backend held nothing for the key
at the moment of the reservation, nobody else is computing the key then, and whoever finds the key
reserved waits for the one that is.

Main definitions:

* `Caching.Phase.fits`, `Caching.System.FitsOk` — which phases belong to which path;
* `Caching.System.noLeak` — the step leaks no reservation.

Main results:

* `Caching.coalescing_is_correct` — **coalescing is correct**.
-/

import Pysilience.Cache.Release

set_option relaxedAutoImplicit false
set_option autoImplicit false

namespace Caching

open Python Transition SingleFlight

universe u v w x y z t

variable {T : Type t} {K : Type u} {V : Type v} {Exc : Type w} {B : Type x} {D : Type y}

/-! ### The phases of each path -/

/-- The phase is one of a call of `execute` (`sync`), or of `execute_async`, with a `MemoryBackend`
or with another backend. -/
def Phase.fits (path : Path) (isMemory : Bool) : Phase V Exc → Bool
  | .checking | .blocked | .computing | .storing _ | .unreserving _ => path == .sync
  | .asyncChecking | .asyncStoring _ => path == .async && isMemory
  | .getting | .gotten _ | .putting _ | .put .. => path == .async && !isMemory
  | .suspended _ | .awaiting => path == .async
  | .returned .. | .raised _ => true

namespace System

variable [DecidableEq K] {Cls : Type z} [Exceptions Exc Cls] {cache : Cache K V Exc B D}

/-- A call stays on its path. -/
theorem fits_advance {cs : CacheState K B} {key : K} {ph : Phase V Exc} {ev : CallEvent V Exc}
    {m : Moved K V Exc B} (h : cache.AdvanceCase cs key ph ev m) {path : Path}
    (hph : ph.fits path cache.isMemory = true) : m.phase.fits path cache.isMemory = true := by
  cases h with
  | reserve | wait | finish | failed | aput => exact hph
  | asyncReserve ph b hl | asyncWait ph b event hl =>
      cases hl <;> simp [Phase.fits] at hph ⊢ <;> simp [hph]
  | retry event _ hm =>
      simp [Phase.fits, hm] at hph ⊢
      exact hph
  | aget => exact hph
  | asyncFinish v =>
      cases hm : cache.isMemory <;> simp [Phase.fits] at hph ⊢ <;> exact hph
  | _ => rfl

/-- Every call is in a phase of its path. -/
def FitsOk (cache : Cache K V Exc B D) (s : System T K V Exc B) : Prop :=
  ∀ caller c, s.calls caller = some c → c.phase.fits c.path cache.isMemory = true

variable [DecidableEq T]

theorem fitsOk_step {s s' : System T K V Exc B} {a : Action T K V Exc D} (h : FitsOk cache s)
    (hstep : s.step cache a = some s') : FitsOk cache s' := by
  intro u d hd
  cases call_cases hstep hd with
  | begun _ _ hpath =>
      rcases hpath with ⟨hp, hph⟩ | ⟨hp, hph⟩
      · rw [hp, hph]
        rfl
      · rw [hp, hph]
        unfold Cache.firstPhase
        cases cache.isMemory <;> rfl
  | kept hd' => exact h u d hd'
  | woken c hc hb hd' =>
      have := h u c hc
      rw [hb] at this
      rw [hd']
      exact this
  | advanced c ev m hc _ hcase hd' =>
      rw [hd']
      exact fits_advance hcase (h u c hc)

theorem fitsOk_of_reachable {backend : B} {s : System T K V Exc B}
    (h : (callers T cache backend).Reachable s) : FitsOk cache s := by
  refine h.invariant (I := FitsOk cache) ?_ fun s a s' hi hs => fitsOk_step hi hs
  intro caller c hc
  cases hc

/-! ### Reservations and hits -/

/-- The step leaks no reservation. -/
def noLeak (cache : Cache K V Exc B D) (s : System T K V Exc B) (a : Action T K V Exc D) : Bool :=
  !s.syncLeak cache a && !s.asyncLeak cache a

variable {Holds : B → K → V → Prop}

omit [DecidableEq T] in
/-- A step of a call adds an entry to the backend only for the key of the call, with the value that
the call hands to the backend. -/
theorem holds_advance (hb : LawfulBackend cache.ops Holds) {cs : CacheState K B} {key : K}
    {ph : Phase V Exc} {ev : CallEvent V Exc} {m : Moved K V Exc B}
    (h : cache.AdvanceCase cs key ph ev m) {l : K} {w : V} (hw : Holds m.state.backend l w) :
    Holds cs.backend l w ∨ l = key ∧ m.notes = [.stored w] := by
  have hget : ∀ {r b}, cache.ops.get cs.backend key = (r, b) → Holds b l w →
      Holds cs.backend l w := by
    intro r b hg hw
    exact hb.get.keeps _ key _ _ (by rw [hg]; exact hw)
  have hput : ∀ {v r b}, cache.ops.put cs.backend key v cache.config.ttl = (r, b) →
      Holds b l w → Holds cs.backend l w ∨ l = key ∧ [Note.stored v] = [Note.stored w] := by
    intro v r b hp hw
    rcases hb.put_adds cs.backend key v _ l w (by rw [hp]; exact hw) with hw | ⟨hl, rfl⟩
    · exact .inl hw
    · exact .inr ⟨hl, rfl⟩
  cases h with
  | hit v b hg | getRaises e b hg | reserve b hg | wait b hg => exact .inl (hget hg hw)
  | stored v b hp | putRaises v e b hp | asyncPutRaises v e b hp => exact hput hp hw
  | asyncStored v b hp =>
      rw [CacheState.asyncUnreserve_backend] at hw
      exact hput hp hw
  | asyncHit ph v b hl | asyncGetRaises ph e b hl | asyncReserve ph b hl
  | asyncWait ph b event hl =>
      cases hl with
      | first _ _ hg | again _ _ _ _ _ hg => exact .inl (hget hg hw)
      | gotten => exact .inl hw
  | aget r b hg => exact .inl (hb.aget.keeps _ key _ _ (by rw [hg]; exact hw))
  | aput v r b hp =>
      rcases hb.aput_adds cs.backend key v _ l w (by rw [hp]; exact hw) with hw | ⟨hl, rfl⟩
      · exact .inl hw
      · exact .inr ⟨hl, rfl⟩
  | asyncFailed | putDone =>
      rw [CacheState.asyncUnreserve_backend] at hw
      exact .inl hw
  | finish | failed | escaped | unreserved | retry | asyncFinish | asyncEscaped | putFailed
  | cancelled | putCancelled => exact .inl hw

/-- A thread that becomes the owner of a key has looked for it under the lock and found nothing. -/
theorem sync_reserves (hget : LawfulLookup cache.ops.get Holds) {s s' : System T K V Exc B}
    {a : Action T K V Exc D} (hstep : s.step cache a = some s') {caller : T} {k : K}
    (hbefore : ¬ s.SyncOwner caller k) (hafter : s'.SyncOwner caller k) (v : V) :
    ¬ Holds s.state.backend k v := by
  obtain ⟨d, hd, rfl, howns⟩ := hafter
  obtain hd' | ⟨c, ev, m, hc, -, hcase, rfl, -⟩ :=
    kept_or_advanced hstep hd (P := (·.syncOwns = true)) howns nofun nofun nofun
  · exact absurd ⟨d, hd', rfl, howns⟩ hbefore
  · have hnot : c.phase.syncOwns ≠ true := fun ho => hbefore ⟨c, hc, rfl, ho⟩
    generalize c.phase = ph at hcase hnot
    cases hcase with
    | reserve b hg => exact hget.miss _ _ (by rw [hg]) v
    | finish | failed => exact absurd rfl hnot
    | asyncFinish v => cases hm : cache.isMemory <;> simp [hm, Phase.syncOwns] at howns
    | _ => cases howns

/-- A coroutine that becomes the owner of a key had found nothing for it: under the lock, or in the
result of `aget`. -/
theorem async_reserves {s s' : System T K V Exc B} {a : Action T K V Exc D}
    (hstep : s.step cache a = some s') {caller : T} {k : K} (hbefore : ¬ s.AsyncOwner caller k)
    (hafter : s'.AsyncOwner caller k) :
    ∃ c b, s.calls caller = some c ∧ c.key = k ∧
      cache.AsyncLookup s.state k c.phase (.ok none) b ∧ s.state.asyncInflight k = none := by
  obtain ⟨d, hd, rfl, howns⟩ := hafter
  obtain hd' | ⟨c, ev, m, hc, -, hcase, rfl, -⟩ :=
    kept_or_advanced hstep hd (P := (·.asyncOwns = true)) howns nofun nofun nofun
  · exact absurd ⟨d, hd', rfl, howns⟩ hbefore
  · refine ⟨c, ?_⟩
    have hnot : c.phase.asyncOwns ≠ true := fun ho => hbefore ⟨c, hc, rfl, ho⟩
    generalize hph : c.phase = ph at hcase hnot
    cases hcase with
    | asyncReserve ph b hl hn => exact ⟨b, hc, rfl, hl, hn⟩
    | asyncFinish | aput => exact absurd rfl hnot
    | _ => cases howns

/-- A call that returns without having invoked its function returns what the backend held when it
looked for the key under the lock. -/
theorem hit_holds (hget : LawfulLookup cache.ops.get Holds) {s s' : System T K V Exc B}
    (hfits : FitsOk cache s) {a : Action T K V Exc D} (hstep : s.step cache a = some s')
    {caller : T} {c d : Call K V Exc} (hends : Ends s s' caller c)
    (hd : s'.calls caller = some d) {v : V} (hhit : d.phase = .returned v true)
    (hpath : c.path = .sync ∨ cache.isMemory = true) : Holds s.state.backend c.key v := by
  obtain ⟨ev, m, -, hcase, rfl, -⟩ := hends.advance hstep
  have hfit := hfits caller c hends.1
  rw [moved_calls_self, Option.some_inj] at hd
  subst hd
  generalize c.phase = ph at hcase hfit
  cases hcase with
  | hit w b hg =>
      cases hhit
      exact hget.hit _ _ _ (by rw [hg])
  | asyncHit ph w b hl =>
      cases hhit
      cases hl with
      | first _ _ hg => exact hget.hit _ _ _ (by rw [hg])
      | again _ _ _ _ _ hg => exact hget.hit _ _ _ (by rw [hg])
      | gotten =>
          -- neither a thread nor a coroutine with a `MemoryBackend` awaits `aget`
          simp only [Phase.fits, Bool.and_eq_true, beq_iff_eq, Bool.not_eq_true'] at hfit
          rcases hpath with hpath | hpath
          · rw [hpath] at hfit
            cases hfit.1
          · rw [hpath] at hfit
            cases hfit.2
  | asyncFinish w => cases hm : cache.isMemory <;> simp [hm] at hhit
  | _ => cases hhit

end System

/-! ### Coalescing -/

section Runs

variable [DecidableEq K] [DecidableEq T] {Cls : Type z} [Exceptions Exc Cls]

/-- **Coalescing is correct.**  In every run in which functions return or raise an `Exception` and
storing raises nothing, threads calling `execute`, and coroutines calling `execute_async` with a
`MemoryBackend`, are coalesced: at most one of them owns a key, and whoever waits for a key waits
for one that owns it; a caller reserves its key, and so invokes its function, only if the backend
held no live entry for it; and a caller that returns without having invoked its function returns a
value that the backend held for its key when it looked.  All that is asked of the backend is that
`get` tells what it holds. -/
theorem coalescing_is_correct (cache : Cache K V Exc B D) (Holds : B → K → V → Prop)
    (hget : LawfulLookup cache.ops.get Holds) (backend : B) (as : List (Action T K V Exc D))
    (s : System T K V Exc B)
    (h : (callers T cache backend).Run (fun s a => s.noLeak cache a = true) as s) :
    ((∀ t u k, s.SyncOwner t k → s.SyncOwner u k → t = u) ∧
      ∀ t u k, s.AsyncOwner t k → s.AsyncOwner u k → t = u) ∧
    ((∀ t k, s.SyncWaiter t k → ∃ u, s.SyncOwner u k) ∧
      ∀ t k, s.AsyncWaiter t k → ∃ u, s.AsyncOwner u k) ∧
    ∀ a s', s.step cache a = some s' → ∀ t,
      (∀ k, ¬ s.SyncOwner t k → s'.SyncOwner t k → ∀ v, ¬ Holds s.state.backend k v) ∧
      (cache.isMemory = true → ∀ k, ¬ s.AsyncOwner t k → s'.AsyncOwner t k →
        ∀ v, ¬ Holds s.state.backend k v) ∧
      ∀ c d v, System.Ends s s' t c → s'.calls t = some d → d.phase = .returned v true →
        (c.path = .sync ∨ cache.isMemory = true) → Holds s.state.backend c.key v := by
  have hsync : (callers T cache backend).Run (fun s a => s.syncLeak cache a = false) as s :=
    h.mono fun s a ha => by simpa [System.noLeak] using (Bool.and_eq_true_iff.1 ha).1
  have hasync : (callers T cache backend).Run (fun s a => s.asyncLeak cache a = false) as s :=
    h.mono fun s a ha => by simpa [System.noLeak] using (Bool.and_eq_true_iff.1 ha).2
  have horder := System.syncOrderly_of_reachable h.reachable
  have horder' := System.asyncOrderly_of_reachable h.reachable
  have hfits := System.fitsOk_of_reachable h.reachable
  refine ⟨⟨fun t u k ht hu => ?_, fun t u k ht hu => ?_⟩,
    ⟨System.syncOwner_of_waiter hsync, System.asyncOwner_of_waiter hasync⟩,
    fun a s' hstep t => ?_⟩
  · exact horder.unique t u k (System.syncTable_computing.2 ht) (System.syncTable_computing.2 hu)
  · exact horder'.unique t u k (System.asyncTable_computing.2 ht)
      (System.asyncTable_computing.2 hu)
  · refine ⟨fun k hn ho => System.sync_reserves hget hstep hn ho, fun hm k hn ho v => ?_,
      fun c d v hends hd hhit hpath => System.hit_holds hget hfits hstep hends hd hhit hpath⟩
    obtain ⟨c, b, hc, rfl, hl, -⟩ := System.async_reserves hstep hn ho
    have hfit := hfits t c hc
    generalize c.phase = ph at hl hfit
    cases hl with
    | first _ _ hg => exact hget.miss _ _ (by rw [hg]) v
    | again _ _ _ _ _ hg => exact hget.miss _ _ (by rw [hg]) v
    | gotten => simp [Phase.fits, hm] at hfit

end Runs

/-- A thread waits for the key `7`, which another one is computing. -/
theorem coalescing_is_correct_while_computing :
    ∃ s : System Bool ℕ ℕ Builtin (MemoryBackend ℕ ℕ × ℚ),
      s.SyncWaiter true 7 ∧ (∃ u, s.SyncOwner u 7) ∧
        ∀ t u k, s.SyncOwner t k → s.SyncOwner u k → t = u := by
  obtain ⟨s, hr, hs⟩ := Machine.exists_run_of_exec
    (callers Bool tinyCache (MemoryBackend.init 128 none, 0))
    (fun s a => s.noLeak tinyCache a) (fun _ _ ha => ha)
    [.execute false 7, .advance false .turn, .execute true 7, .advance true .turn]
    (fun s => decide (s.syncTable.waiting true = some 7)) (by decide +kernel)
  have hw := System.syncTable_waiting.1 (of_decide_eq_true hs)
  obtain ⟨⟨hunique, -⟩, ⟨howner, -⟩, -⟩ := coalescing_is_correct tinyCache MemoryBackend.HoldsNow
    (memoryBackend_lawful Builtin.keyError).get _ _ s hr
  exact ⟨s, hw, howner true 7 hw, hunique⟩

end Caching
