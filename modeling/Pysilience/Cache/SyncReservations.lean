/-
The reservations of the threads as a single-flight table.

The keys in `_inflight` are reserved and waited for by threads: a call of `execute` that is between
reserving and releasing its key computes it, and a thread in `_condition.wait()` waits for its key.
Every step of the machine is a step of this table, or a leak; which of the two is decided by the
state and the event before the step.  The condition is shared by all keys, but a release notifies
all threads, so that whoever waits for the released key is woken.

Main definitions:

* `Caching.System.syncTable` — the table of the threads;
* `Caching.System.syncLeak` — the steps that leak a reservation.

Main results:

* `Caching.System.sync_step` — **every step is a step of the table, or a leak**;
* `Caching.System.sync_refines`, `Caching.System.sync_refines_of_run` — the runs of the cache are
  runs of the table.
-/

import Pysilience.Cache.Callers
import Pysilience.Lib.SingleFlight

set_option relaxedAutoImplicit false
set_option autoImplicit false

namespace Caching

open Python Transition SingleFlight

universe u v w x y z t

variable {T : Type t} {K : Type u} {V : Type v} {Exc : Type w} {B : Type x} {D : Type y}

/-! ### The steps that leak a reservation -/

section Leaks

variable {Cls : Type z} [Exceptions Exc Cls]

/-- The call leaves with its key in `_inflight`: its function raises something other than an
`Exception`, or `put` raises. -/
def Phase.syncLeaks (cache : Cache K V Exc B D) (cs : CacheState K B) (key : K) :
    Phase V Exc → CallEvent V Exc → Bool
  | .computing, .throw exc => !caught exc
  | .storing value, .turn => !(cache.ops.put cs.backend key value cache.config.ttl).1.isOk
  | _, _ => false

namespace System

/-- The step leaks a reservation of a thread. -/
def syncLeak (cache : Cache K V Exc B D) (s : System T K V Exc B) : Action T K V Exc D → Bool
  | .advance caller event =>
      match s.calls caller with
      | none => false
      | some c => c.phase.syncLeaks cache s.state c.key event
  | _ => false

end System

end Leaks

/-! ### The table of the threads -/

/-- The thread waits in `_condition.wait()`. -/
def Phase.isBlocked : Phase V Exc → Bool
  | .blocked => true
  | _ => false

/-- The key the call owns in `_inflight`. -/
def Call.syncOwned (c : Call K V Exc) : Option K := Effect.slot c.phase.syncOwns c.key

/-- The key the thread waits for. -/
def Call.syncAwaited (c : Call K V Exc) : Option K := Effect.slot c.phase.isBlocked c.key

theorem Call.syncOwned_wake (c : Call K V Exc) : c.wake.syncOwned = c.syncOwned := by
  unfold Call.wake
  split
  · next h => simp [Call.syncOwned, h, Phase.syncOwns]
  · rfl

theorem Call.syncAwaited_wake (c : Call K V Exc) : c.wake.syncAwaited = none := by
  unfold Call.wake
  split
  · rfl
  · next h =>
    have : c.phase.isBlocked = false := by
      unfold Phase.isBlocked
      split
      · next hb => exact absurd hb h
      · rfl
    simp [Call.syncAwaited, this, Effect.slot]

namespace System

/-- The reservations of the threads. -/
def syncTable (s : System T K V Exc B) : Table K T where
  reserved := {k | k ∈ s.state.inflight}
  computing := onCalls Call.syncOwned s.calls
  waiting := onCalls Call.syncAwaited s.calls

/-- The call is between reserving and releasing the key in `_inflight`. -/
def SyncOwner (s : System T K V Exc B) (caller : T) (k : K) : Prop :=
  ∃ c, s.calls caller = some c ∧ c.key = k ∧ c.phase.syncOwns = true

/-- The thread waits for the key in `_condition.wait()`. -/
def SyncWaiter (s : System T K V Exc B) (caller : T) (k : K) : Prop :=
  ∃ c, s.calls caller = some c ∧ c.key = k ∧ c.phase = .blocked

theorem syncTable_computing {s : System T K V Exc B} {caller : T} {k : K} :
    s.syncTable.computing caller = some k ↔ s.SyncOwner caller k := by
  simp only [syncTable, onCalls, Option.bind_eq_some_iff, Call.syncOwned, Effect.slot,
    Option.ite_none_right_eq_some, Option.some_inj, SyncOwner]
  exact exists_congr fun c => and_congr_right fun _ => and_comm

theorem syncTable_waiting {s : System T K V Exc B} {caller : T} {k : K} :
    s.syncTable.waiting caller = some k ↔ s.SyncWaiter caller k := by
  have hblocked : ∀ ph : Phase V Exc, ph.isBlocked = true ↔ ph = .blocked := by
    intro ph
    cases ph <;> simp [Phase.isBlocked]
  simp only [syncTable, onCalls, Option.bind_eq_some_iff, Call.syncAwaited, Effect.slot,
    Option.ite_none_right_eq_some, Option.some_inj, SyncWaiter, hblocked]
  exact exists_congr fun c => and_congr_right fun _ => and_comm

section Moves

variable [DecidableEq T]

/-- A thread that waits after a step waited before, or is the one that made the step. -/
theorem syncWaiting_moved {s : System T K V Exc B} {caller u : T} {c : Call K V Exc}
    {m : Moved K V Exc B} (hu : u ≠ caller) {l : K}
    (h : (s.moved caller c m).syncTable.waiting u = some l) :
    m.notify = false ∧ s.syncTable.waiting u = some l := by
  simp only [syncTable, moved, onCalls_update, Function.update_of_ne hu] at h
  split at h
  · -- nobody waits once all were notified
    obtain ⟨d, hd, hl⟩ := Option.bind_eq_some_iff.1 h
    obtain ⟨d₀, -, rfl⟩ := Option.map_eq_some_iff.1 hd
    rw [Call.syncAwaited_wake] at hl
    cases hl
  · next hn => exact ⟨Bool.not_eq_true _ ▸ hn, h⟩

/-- What a step of a call does to the keys that threads compute. -/
theorem syncComputing_moved (s : System T K V Exc B) (caller : T) (c : Call K V Exc)
    (m : Moved K V Exc B) :
    (s.moved caller c m).syncTable.computing =
      Function.update s.syncTable.computing caller (Effect.slot m.phase.syncOwns c.key) := by
  simp only [syncTable, moved, onCalls_update]
  congr 1
  split
  · exact onCalls_notifyAll Call.syncOwned_wake s.calls
  · rfl

/-- A step that begins a call, or changes the backend only, leaves the table of the threads. -/
theorem sync_stay {s s' : System T K V Exc B} (hR : s'.state.inflight = s.state.inflight)
    (hcomputing : s'.syncTable.computing = s.syncTable.computing)
    (hwaiting : s'.syncTable.waiting = s.syncTable.waiting) :
    Table.Step s.syncTable s'.syncTable :=
  .stay (by simp only [syncTable, hR]) hcomputing fun t k h => hwaiting ▸ h

/-- A call that begins neither computes nor waits. -/
theorem onCalls_begin {f : Call K V Exc → Option K} {s : System T K V Exc B} {caller : T}
    (hnew : s.calls caller = none) {key : K} {path : Path} {ph : Phase V Exc}
    (hf : f ⟨key, path, s.log.length, ph⟩ = none) :
    onCalls f (s.begin caller key path ph).calls = onCalls f s.calls := by
  rw [begin, onCalls_update, hf]
  refine Function.update_eq_self_iff.2 ?_
  simp [onCalls, hnew]

end Moves

section Steps

variable [DecidableEq K] {Cls : Type z} [Exceptions Exc Cls] {cache : Cache K V Exc B D}

/-- What a call does to the reservations of the threads. -/
theorem sync_effect {cs : CacheState K B} {key : K} {ph : Phase V Exc} {ev : CallEvent V Exc}
    {m : Moved K V Exc B} (h : cache.AdvanceCase cs key ph ev m) :
    Effect {k | k ∈ cs.inflight} {k | k ∈ m.state.inflight} key ph.syncOwns m.phase.syncOwns
      m.phase.isBlocked (ph.syncLeaks cache cs key ev) := by
  have herase : ∀ cs : CacheState K B,
      {k | k ∈ (cs.syncUnreserve key).inflight} = {k | k ∈ cs.inflight} \ {key} := by
    intro cs
    ext k
    simp [CacheState.syncUnreserve, and_comm]
  cases h with
  | hit | getRaises => exact .stay false rfl
  | reserve b hg hk =>
      refine .reserve hk ?_
      ext k
      simp
  | wait b hg hk => exact .wait hk rfl
  | finish => exact .stay true rfl
  | failed e he =>
      rw [Phase.syncLeaks, he]
      exact .stay true rfl
  | escaped e he =>
      rw [Phase.syncLeaks, he]
      exact .leak rfl
  | unreserved e => exact .release (herase cs)
  | stored v b hp =>
      rw [Phase.syncLeaks, hp]
      exact .release (herase { cs with backend := b })
  | putRaises v e b hp =>
      rw [Phase.syncLeaks, hp]
      exact .leak rfl
  | asyncHit ph v b hl | asyncGetRaises ph e b hl | asyncReserve ph b hl
  | asyncWait ph b event hl => cases hl <;> exact .stay false rfl
  | retry | aget | asyncEscaped | asyncPutRaises | aput | putFailed => exact .stay false rfl
  | asyncFinish v => cases cache.isMemory <;> exact .stay false rfl
  | asyncFailed | asyncStored | putDone => exact .stay false (by simp)
  | cancelled ph e hph =>
      match ph, hph with
      | .suspended _, _ | .getting, _ | .gotten _, _ => exact .stay false rfl
  | putCancelled ph e hph =>
      match ph, hph with
      | .putting _, _ | .put .., _ => exact .stay false rfl

/-- A release by a thread notifies. -/
theorem notify_of_syncRelease {cs : CacheState K B} {key : K} {ph : Phase V Exc}
    {ev : CallEvent V Exc} {m : Moved K V Exc B} (h : cache.AdvanceCase cs key ph ev m)
    (hbefore : ph.syncOwns = true) (hafter : m.phase.syncOwns = false)
    (hleak : ph.syncLeaks cache cs key ev = false) : m.notify = true := by
  cases h with
  | stored | unreserved => rfl
  | finish | failed => cases hafter
  | escaped e he => rw [Phase.syncLeaks, he] at hleak; cases hleak
  | putRaises v e b hp => rw [Phase.syncLeaks, hp] at hleak; cases hleak
  | asyncHit ph v b hl | asyncGetRaises ph e b hl | asyncReserve ph b hl
  | asyncWait ph b event hl => cases hl <;> cases hbefore
  | cancelled ph e hph =>
      match ph, hph with
      | .suspended _, _ | .getting, _ | .gotten _, _ => cases hbefore
  | putCancelled ph e hph =>
      match ph, hph with
      | .putting _, _ | .put .., _ => cases hbefore
  | _ => cases hbefore

/-- **Every step is a step of the table of the threads, or a leak.** -/
theorem sync_step [DecidableEq T] {s s' : System T K V Exc B} {a : Action T K V Exc D}
    (h : s.step cache a = some s') :
    (s.syncLeak cache a = false → Table.Step s.syncTable s'.syncTable) ∧
      (s.syncLeak cache a = true → Table.Leak s.syncTable s'.syncTable) := by
  cases step_cases h with
  | execute caller key hnew =>
      refine ⟨fun _ => sync_stay rfl (onCalls_begin hnew rfl) (onCalls_begin hnew rfl), ?_⟩
      exact fun hl => by cases hl
  | executeAsync caller key hnew =>
      refine ⟨fun _ => sync_stay rfl (onCalls_begin hnew ?_) (onCalls_begin hnew ?_), ?_⟩
      · rcases cache.firstPhase_cases with hph | hph <;> rw [hph] <;> rfl
      · rcases cache.firstPhase_cases with hph | hph <;> rw [hph] <;> rfl
      · exact fun hl => by cases hl
  | advance caller ev c m hc hm =>
      have hcase := Cache.advance_cases hm
      have heff := sync_effect hcase
      have hbefore : s.syncTable.computing caller = Effect.slot c.phase.syncOwns c.key := by
        simp [syncTable, onCalls, hc, Call.syncOwned]
      have hwaits : (s.moved caller c m).syncTable.waiting caller =
          Effect.slot m.phase.isBlocked c.key := by
        simp [syncTable, onCalls, moved, Call.syncAwaited]
      have hothers : ∀ u, u ≠ caller → ∀ l, (s.moved caller c m).syncTable.waiting u = some l →
          s.syncTable.waiting u = some l := fun u hu l hw => (syncWaiting_moved hu hw).2
      have hleak : s.syncLeak cache (.advance caller ev) =
          c.phase.syncLeaks cache s.state c.key ev := by
        simp only [syncLeak, hc]
      rw [hleak]
      constructor
      · intro hl
        rw [hl] at heff
        refine heff.step hbefore (syncComputing_moved s caller c m) hothers hwaits ?_
        -- a release notifies everybody, so nobody goes on waiting
        intro h1 h2 u hu hw
        have := (syncWaiting_moved hu hw).1
        rw [notify_of_syncRelease hcase h1 h2 hl] at this
        cases this
      · intro hl
        rw [hl] at heff
        exact heff.leak_of hbefore (syncComputing_moved s caller c m) hothers hwaits
  | invalidate | invalidateAll | drift =>
      exact ⟨fun _ => sync_stay rfl rfl rfl, fun hl => by cases hl⟩

end Steps

/-! ### The invariants of the threads -/

section Runs

variable [DecidableEq K] [DecidableEq T] {Cls : Type z} [Exceptions Exc Cls]
  {cache : Cache K V Exc B D} {backend : B}

omit [DecidableEq K] [DecidableEq T] in
theorem syncTable_init (backend : B) :
    (init backend : System T K V Exc B).syncTable = Table.empty := by
  simp [syncTable, init, CacheState.init, Table.empty]

/-- **The runs of the cache are runs of the table of the threads**, with leaks. -/
theorem sync_refines {s : System T K V Exc B} (h : (callers T cache backend).Reachable s) :
    Relation.ReflTransGen Table.Next Table.empty s.syncTable := by
  obtain ⟨as, h⟩ := h
  rw [← syncTable_init backend]
  refine h.simulation (I := fun _ => True) (fun _ _ _ => trivial) fun s a s' _ _ hs => ?_
  cases hl : s.syncLeak cache a with
  | false => exact .single (.inl ((sync_step hs).1 hl))
  | true => exact .single (.inr ((sync_step hs).2 hl))

/-- **The runs without leaks of threads are runs of their table without leaks.** -/
theorem sync_refines_of_run {as : List (Action T K V Exc D)} {s : System T K V Exc B}
    (h : (callers T cache backend).Run (fun s a => s.syncLeak cache a = false) as s) :
    Relation.ReflTransGen Table.Step Table.empty s.syncTable := by
  rw [← syncTable_init backend]
  exact h.simulation (I := fun _ => True) (fun _ _ _ => trivial) fun s a s' _ hl hs =>
    .single ((sync_step hs).1 hl)

/-- In every reachable state the table of the threads is orderly. -/
theorem syncOrderly_of_reachable {s : System T K V Exc B}
    (h : (callers T cache backend).Reachable s) : Table.Orderly s.syncTable :=
  Table.orderly_of_reaches (sync_refines h)

/-- In a run without leaks of threads whoever waits, waits for a thread in progress. -/
theorem syncOwner_of_waiter {as : List (Action T K V Exc D)} {s : System T K V Exc B}
    (h : (callers T cache backend).Run (fun s a => s.syncLeak cache a = false) as s) (caller : T)
    (k : K) (hw : s.SyncWaiter caller k) : ∃ u, s.SyncOwner u k := by
  have horder := syncOrderly_of_reachable h.reachable
  have howned := Table.owned_of_reaches (sync_refines_of_run h)
  obtain ⟨u, hu⟩ := horder.awaited howned (syncTable_waiting.2 hw)
  exact ⟨u, syncTable_computing.1 hu⟩

end Runs

end System

end Caching
