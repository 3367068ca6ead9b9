/-
Reservations are released when the call that made them ends.

Whether they are is decided by how the computing call ends.  If its function returns, or raises an
`Exception`, and storing the result raises nothing, the key is released and all waiters are woken;
so in a run in which all calls end so, whoever waits for a key waits for a call in progress.  But
the handlers are `except Exception` around the function alone: if the function raises anything else,
or a coroutine is cancelled while it awaits the function or the backend, or the backend raises
while the result is stored, the call ends with its key in flight, and all later callers of the key
wait for ever.

Main definitions:

* `Caching.System.Ends` — the call ends with the step.

Main results:

* `Caching.async_reservations_are_released`, `Caching.sync_reservations_are_released` — **a
  reservation is released exactly where the step is no leak, and without leaks nobody waits in
  vain**;
* `Caching.not_async_reservations_are_released`, `Caching.not_sync_reservations_are_released` — a
  coroutine and a thread that wait in vain.
-/

import Pysilience.Cache.AsyncReservations
import Pysilience.Cache.MemoryBackend

set_option relaxedAutoImplicit false
set_option autoImplicit false

namespace Caching

open Python Transition SingleFlight

universe u v w x y z t

variable {T : Type t} {K : Type u} {V : Type v} {Exc : Type w} {B : Type x} {D : Type y}

namespace System

/-- The call `c` of the caller was in progress in the state `s` and has ended in `s'`. -/
def Ends (s s' : System T K V Exc B) (caller : T) (c : Call K V Exc) : Prop :=
  s.calls caller = some c ∧ c.phase.exited = false ∧
    ∃ d, s'.calls caller = some d ∧ d.phase.exited = true

variable [DecidableEq K] [DecidableEq T] {Cls : Type z} [Exceptions Exc Cls]
  {cache : Cache K V Exc B D} {backend : B}

/-- A call ends by a step of its own. -/
theorem Ends.advance {s s' : System T K V Exc B} {a : Action T K V Exc D} {caller : T}
    {c : Call K V Exc} (h : Ends s s' caller c) (hstep : s.step cache a = some s') :
    ∃ ev m, a = .advance caller ev ∧ cache.AdvanceCase s.state c.key c.phase ev m ∧
      s' = s.moved caller c m ∧ m.phase.exited = true := by
  obtain ⟨hc, hbefore, d, hd, hafter⟩ := h
  cases call_cases hstep hd with
  | begun hnew =>
      rw [hc] at hnew
      cases hnew
  | kept hd' =>
      rw [hc, Option.some_inj] at hd'
      rw [← hd', hbefore] at hafter
      cases hafter
  | woken c' _ _ hd' =>
      rw [hd'] at hafter
      cases hafter
  | advanced c' ev m hc' ha hcase hd' hs' =>
      rw [hc, Option.some_inj] at hc'
      subst hc'
      rw [hd'] at hafter
      exact ⟨ev, m, ha, hcase, hs', hafter⟩

/-- A call that has ended owns nothing. -/
theorem not_owns_of_exited {ph : Phase V Exc} (h : ph.exited = true) :
    ph.syncOwns = false ∧ ph.asyncOwns = false := by
  cases ph <;> first | exact ⟨rfl, rfl⟩ | cases h

/-! ### The end of a call that owns its key -/

/-- A thread that ends while it owns its key releases it and notifies all waiters, unless the step
leaks it. -/
theorem sync_released_iff {s s' : System T K V Exc B} {a : Action T K V Exc D}
    (horder : Table.Orderly s.syncTable) (hstep : s.step cache a = some s') {caller : T}
    {c : Call K V Exc} (hends : Ends s s' caller c) (howns : c.phase.syncOwns = true) :
    (c.key ∉ s'.state.inflight ∧ ∀ u k, ¬ s'.SyncWaiter u k) ↔ s.syncLeak cache a = false := by
  have hc := hends.1
  obtain ⟨ev, m, rfl, hcase, rfl, hexit⟩ := hends.advance hstep
  have heff := sync_effect hcase
  have hafter := (not_owns_of_exited hexit).1
  have hleak : s.syncLeak cache (.advance caller ev) =
      c.phase.syncLeaks cache s.state c.key ev := by
    simp only [syncLeak, hc]
  rw [howns, hafter] at heff
  rw [hleak]
  cases hl : c.phase.syncLeaks cache s.state c.key ev with
  | false =>
      rw [hl] at heff
      refine iff_of_true ⟨heff.freed, fun u k hw => ?_⟩ rfl
      -- nobody else waits after `notify_all`, and the call itself has ended
      have hnotify := notify_of_syncRelease hcase howns hafter hl
      rw [← syncTable_waiting] at hw
      by_cases hu : u = caller
      · subst hu
        obtain ⟨d, hd, -, hblocked⟩ := syncTable_waiting.1 hw
        rw [moved_calls_self, Option.some_inj] at hd
        subst hd
        rw [show m.phase = .blocked from hblocked] at hexit
        cases hexit
      · have := (syncWaiting_moved hu hw).1
        rw [hnotify] at this
        cases this
  | true =>
      -- the key was in flight, and a leak leaves it there
      rw [hl] at heff
      refine iff_of_false (fun h => h.1 ?_) (by simp)
      have hin : c.key ∈ s.state.inflight :=
        horder.reserved caller c.key (syncTable_computing.2 ⟨c, hc, rfl, howns⟩)
      exact (Set.ext_iff.1 heff.kept c.key).2 hin

/-- A coroutine that ends while it owns its key pops it and sets its event, unless the step leaks
it. -/
theorem async_released_iff {s s' : System T K V Exc B} {a : Action T K V Exc D}
    (hok : EventsOk s) (horder : Table.Orderly s.asyncTable) (hstep : s.step cache a = some s')
    {caller : T} {c : Call K V Exc} (hends : Ends s s' caller c)
    (howns : c.phase.asyncOwns = true) :
    (s'.state.asyncInflight c.key = none ∧
      ∃ event, s.state.asyncInflight c.key = some event ∧ s'.state.events[event]? = some true) ↔
    s.asyncLeak cache a = false := by
  have hc := hends.1
  obtain ⟨ev, m, rfl, hcase, rfl, hexit⟩ := hends.advance hstep
  have heff := async_effect hcase fun event he => hok.unset c.key event he
  have hafter := (not_owns_of_exited hexit).2
  have hleak : s.asyncLeak cache (.advance caller ev) =
      c.phase.asyncLeaks cache s.state c.key ev := by
    simp only [asyncLeak, hc]
  have hin : s.state.asyncInflight c.key ≠ none :=
    horder.reserved caller c.key (asyncTable_computing.2 ⟨c, hc, rfl, howns⟩)
  rw [howns, hafter] at heff
  rw [hleak]
  cases hl : c.phase.asyncLeaks cache s.state c.key ev with
  | false =>
      rw [hl] at heff
      have hgone : m.state.asyncInflight c.key = none := by simpa using heff.freed
      refine iff_of_true ⟨hgone, ?_⟩ rfl
      cases async_change hcase with
      | same hsame => exact absurd (hsame ▸ hgone) hin
      | reserve hn => exact absurd hn hin
      | release event he _ hev =>
          refine ⟨event, he, ?_⟩
          have hlt := (List.getElem?_eq_some_iff.1 (hok.unset c.key event he)).1
          change m.state.events[event]? = some true
          rw [hev, List.getElem?_set_self hlt]
  | true =>
      rw [hl] at heff
      exact iff_of_false (fun h => (Set.ext_iff.1 heff.kept c.key).2 hin h.1) (by simp)

end System

/-! ### Every run -/

section Runs

variable [DecidableEq K] [DecidableEq T] {Cls : Type z} [Exceptions Exc Cls]

/-- **A coroutine's reservation is released exactly where the step is no leak.**  In a run without
leaks of coroutines, whoever is suspended on an event that is not set waits for a key that a
coroutine in progress owns; whenever a coroutine ends while it owns its key, the key is out of
`_async_inflight` and its event is set if, and only if, the step is no leak; and a leak leaves a key
in `_async_inflight` that nobody owns. -/
theorem async_reservations_are_released (cache : Cache K V Exc B D) (backend : B)
    (as : List (Action T K V Exc D)) (s : System T K V Exc B)
    (h : (callers T cache backend).Run (fun s a => s.asyncLeak cache a = false) as s) :
    (∀ caller k, s.AsyncWaiter caller k → ∃ u, s.AsyncOwner u k) ∧
    ∀ a s', s.step cache a = some s' →
      (∀ caller c, System.Ends s s' caller c → c.phase.asyncOwns = true →
        ((s'.state.asyncInflight c.key = none ∧
          ∃ event, s.state.asyncInflight c.key = some event ∧
            s'.state.events[event]? = some true) ↔ s.asyncLeak cache a = false)) ∧
      (s.asyncLeak cache a = true →
        ∃ k, s'.state.asyncInflight k ≠ none ∧ ∀ u, ¬ s'.AsyncOwner u k) := by
  have hok := System.eventsOk_of_reachable h.reachable
  have horder := System.asyncOrderly_of_reachable h.reachable
  refine ⟨System.asyncOwner_of_waiter h, fun a s' hstep => ⟨fun caller c hends howns => ?_, ?_⟩⟩
  · exact System.async_released_iff hok horder hstep hends howns
  · intro hleak
    obtain ⟨k, hk, hnobody⟩ := ((System.async_step hok hstep).2 hleak).orphan horder
    exact ⟨k, hk, fun u hu => hnobody u (System.asyncTable_computing.2 hu)⟩

/-- **A thread's reservation is released exactly where the step is no leak.**  In a run without
leaks of threads, whoever waits in `_condition.wait()` waits for a key that a thread in progress
owns; whenever a thread ends while it owns its key, the key is out of `_inflight` and all waiters
have been notified if, and only if, the step is no leak; and a leak leaves a key in `_inflight` that
nobody owns. -/
theorem sync_reservations_are_released (cache : Cache K V Exc B D) (backend : B)
    (as : List (Action T K V Exc D)) (s : System T K V Exc B)
    (h : (callers T cache backend).Run (fun s a => s.syncLeak cache a = false) as s) :
    (∀ caller k, s.SyncWaiter caller k → ∃ u, s.SyncOwner u k) ∧
    ∀ a s', s.step cache a = some s' →
      (∀ caller c, System.Ends s s' caller c → c.phase.syncOwns = true →
        ((c.key ∉ s'.state.inflight ∧ ∀ u k, ¬ s'.SyncWaiter u k) ↔
          s.syncLeak cache a = false)) ∧
      (s.syncLeak cache a = true →
        ∃ k ∈ s'.state.inflight, ∀ u, ¬ s'.SyncOwner u k) := by
  have horder := System.syncOrderly_of_reachable h.reachable
  refine ⟨System.syncOwner_of_waiter h, fun a s' hstep => ⟨fun caller c hends howns => ?_, ?_⟩⟩
  · exact System.sync_released_iff horder hstep hends howns
  · intro hleak
    obtain ⟨k, hk, hnobody⟩ := ((System.sync_step hstep).2 hleak).orphan horder
    exact ⟨k, hk, fun u hu => hnobody u (System.syncTable_computing.2 hu)⟩

end Runs

/-! ### Waiting in vain -/

/-- A cache in memory with the default configuration. -/
def tinyCache : Cache ℕ ℕ Builtin (MemoryBackend ℕ ℕ × ℚ) {d : ℚ // 0 ≤ d} where
  config := { accepted := CacheConfig.accepted_default }
  ops := memoryBackend ℕ ℕ .keyError
  isMemory := true

/-- A coroutine waits for the key `7`, which another one is computing. -/
theorem async_reservations_are_released_while_computing :
    ∃ s : System Bool ℕ ℕ Builtin (MemoryBackend ℕ ℕ × ℚ),
      s.AsyncWaiter true 7 ∧ ∃ u, s.AsyncOwner u 7 := by
  obtain ⟨s, hr, hs⟩ := Machine.exists_run_of_exec
    (callers Bool tinyCache (MemoryBackend.init 128 none, 0))
    (fun s a => !s.asyncLeak tinyCache a) (fun s a ha => by simpa using ha)
    [.executeAsync false 7, .advance false .turn, .executeAsync true 7, .advance true .turn]
    (fun s => decide (s.asyncTable.waiting true = some 7)) (by decide +kernel)
  have hw := System.asyncTable_waiting.1 (of_decide_eq_true hs)
  exact ⟨s, hw, (async_reservations_are_released tinyCache _ _ s hr).1 true 7 hw⟩

/-- A thread waits for the key `7`, which another one is computing. -/
theorem sync_reservations_are_released_while_computing :
    ∃ s : System Bool ℕ ℕ Builtin (MemoryBackend ℕ ℕ × ℚ),
      s.SyncWaiter true 7 ∧ ∃ u, s.SyncOwner u 7 := by
  obtain ⟨s, hr, hs⟩ := Machine.exists_run_of_exec
    (callers Bool tinyCache (MemoryBackend.init 128 none, 0))
    (fun s a => !s.syncLeak tinyCache a) (fun s a ha => by simpa using ha)
    [.execute false 7, .advance false .turn, .execute true 7, .advance true .turn]
    (fun s => decide (s.syncTable.waiting true = some 7)) (by decide +kernel)
  have hw := System.syncTable_waiting.1 (of_decide_eq_true hs)
  exact ⟨s, hw, (sync_reservations_are_released tinyCache _ _ s hr).1 true 7 hw⟩

/-- The computing coroutine is cancelled: the other one waits, and nobody computes its key. -/
theorem not_async_reservations_are_released :
    ¬ ∀ s : System Bool ℕ ℕ Builtin (MemoryBackend ℕ ℕ × ℚ),
      (callers Bool tinyCache (MemoryBackend.init 128 none, 0)).Reachable s →
        ∀ caller k, s.AsyncWaiter caller k → ∃ u, s.AsyncOwner u k := by
  obtain ⟨s, hr, hs⟩ := Machine.exists_reachable_of_exec
    (callers Bool tinyCache (MemoryBackend.init 128 none, 0))
    [.executeAsync false 7, .advance false .turn, .executeAsync true 7, .advance true .turn,
      .advance false (.throw .cancelledError)]
    (fun s => decide (s.asyncTable.waiting true = some 7 ∧
      ∀ u, s.asyncTable.computing u ≠ some 7)) (by decide +kernel)
  obtain ⟨hw, hnobody⟩ := of_decide_eq_true hs
  intro h
  obtain ⟨u, hu⟩ := h s hr true 7 (System.asyncTable_waiting.1 hw)
  exact hnobody u (System.asyncTable_computing.2 hu)

/-- The computing thread is interrupted: the other one waits, and nobody computes its key. -/
theorem not_sync_reservations_are_released :
    ¬ ∀ s : System Bool ℕ ℕ Builtin (MemoryBackend ℕ ℕ × ℚ),
      (callers Bool tinyCache (MemoryBackend.init 128 none, 0)).Reachable s →
        ∀ caller k, s.SyncWaiter caller k → ∃ u, s.SyncOwner u k := by
  obtain ⟨s, hr, hs⟩ := Machine.exists_reachable_of_exec
    (callers Bool tinyCache (MemoryBackend.init 128 none, 0))
    [.execute false 7, .advance false .turn, .execute true 7, .advance true .turn,
      .advance false (.throw .keyboardInterrupt)]
    (fun s => decide (s.syncTable.waiting true = some 7 ∧
      ∀ u, s.syncTable.computing u ≠ some 7)) (by decide +kernel)
  obtain ⟨hw, hnobody⟩ := of_decide_eq_true hs
  intro h
  obtain ⟨u, hu⟩ := h s hr true 7 (System.syncTable_waiting.1 hw)
  exact hnobody u (System.syncTable_computing.2 hu)

end Caching
