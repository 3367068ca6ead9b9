/-
The synchronous side of a bulkhead.

`Bulkhead.execute` takes a permit from a semaphore, calls the function and gives the permit back in
a clause `finally`.  Other threads share the semaphore; what they do while a call waits for a permit
is an argument of the call, and the permits they hold are those that are missing when it begins.

Main definitions:

* `Bulkheads.Semaphore` — `threading.Semaphore`;
* `Bulkheads.Bulkhead.syncAcquire`, `Bulkheads.Bulkhead.execute` — the methods.

Main results:

* `Bulkheads.Bulkhead.exec_execute_rejected`, `Bulkheads.Bulkhead.exec_execute_admitted` — what
  a call does;
* `Bulkheads.Bulkhead.permits_execute` — **a call gives back the permit it takes**;
* `Bulkheads.Bulkhead.coupled_execute` — listeners are not noticed.
-/

import Pysilience.Bulkhead.Bulkhead
import Pysilience.Core.Listeners

set_option relaxedAutoImplicit false
set_option autoImplicit false

namespace Bulkheads

open Python Programs Listeners

variable {Exc Cls ω V : Type} [Exceptions Exc Cls]

/-! ### The semaphore -/

/-- `threading.Semaphore`: the number of permits that are left. -/
structure Semaphore where
  value : ℤ
  deriving DecidableEq

namespace Semaphore

/-- `acquire(blocking=False)`. -/
def acquire (sem : Semaphore) : Bool × Semaphore :=
  if 0 < sem.value then (true, ⟨sem.value - 1⟩) else (false, sem)

/-- `acquire(blocking=True, timeout=…)`, when other threads release `released` permits while it
waits. -/
def acquireWithin (released : ℕ) (sem : Semaphore) : Bool × Semaphore :=
  if 0 < sem.value then sem.acquire else acquire ⟨sem.value + released⟩

/-- `release()`. -/
def release (sem : Semaphore) : Semaphore := ⟨sem.value + 1⟩

end Semaphore

/-! ### The method -/

/-- What `execute` raises: an exception of the function, or the rejection. -/
inductive Raised (Exc : Type)
  | original (exc : Exc)
  | bulkheadRejected (error : BulkheadRejected)
  deriving DecidableEq

instance : Raises Exc (Raised Exc) := ⟨.original⟩

/-- What `execute` runs on; besides calling the function and emitting events it does nothing. -/
abbrev SyncStage (Exc ω : Type) := Stage Semaphore Empty (BulkheadEvent Exc) ω

namespace Bulkhead

variable {cfg : BulkheadConfig}

/-- `_sync_sem` of a new bulkhead. -/
def syncSem (cfg : BulkheadConfig) : Semaphore := ⟨cfg.maxConcurrent⟩

/-- `_sync_acquire`. -/
def syncAcquire (cfg : BulkheadConfig) (released : ℕ) :
    Program (SyncStage Exc ω) (Raised Exc) Bool :=
  if cfg.maxWait = 0 then update Semaphore.acquire
  else update (Semaphore.acquireWithin released)

variable (b : Bulkhead cfg) (listeners : List (Listener (BulkheadEvent Exc) ω Exc))

/-- The statement `try: …; except Exception: …; else: …` of `execute`. -/
def callAndReport (outcomes : ℕ → Except Exc V) : Program (SyncStage Exc ω) (Raised Exc) V :=
  tryExcept (invoke outcomes) caught
    (fun exc => do
      emitEvent listeners (b.event .error (some (.inl exc)))
      throw (.original exc))
    (fun result => do
      emitEvent listeners (b.event .success none)
      return result)

/-- `execute`, when other threads release `released` permits while the call waits for one. -/
def execute (outcomes : ℕ → Except Exc V) (released : ℕ) :
    Program (SyncStage Exc ω) (Raised Exc) V := do
  let acquired ← syncAcquire cfg released
  if acquired = false then
    emitEvent listeners (b.event .rejected (some (.inr b.reject)))
    throw (.bulkheadRejected b.reject)
  else
    tryFinally (b.callAndReport listeners outcomes) (update fun sem => ((), sem.release))

/-! ### What a call does -/

/-- The permits a call finds in the end: those that were left when it began, or those there were
after it had waited. -/
def available (cfg : BulkheadConfig) (released : ℕ) (sem : Semaphore) : Semaphore :=
  if cfg.maxWait = 0 ∨ 0 < sem.value then sem else ⟨sem.value + released⟩

theorem exec_syncAcquire (cfg : BulkheadConfig) (released : ℕ) (s : SyncStage Exc ω) :
    exec (syncAcquire cfg released : Program (SyncStage Exc ω) (Raised Exc) Bool) s =
      (.ok (available cfg released s.inner).acquire.1,
        { s with inner := (available cfg released s.inner).acquire.2 }) := by
  unfold syncAcquire available
  by_cases hwait : cfg.maxWait = 0
  · rw [if_pos hwait, if_pos (Or.inl hwait), exec_update]
  · rw [if_neg hwait, exec_update, Semaphore.acquireWithin]
    by_cases hleft : 0 < s.inner.value
    · rw [if_pos hleft, if_pos (Or.inr hleft)]
    · rw [if_neg hleft, if_neg (not_or.2 ⟨hwait, hleft⟩)]

/-- The function is called, and what becomes of it is reported. -/
theorem exec_callAndReport (outcomes : ℕ → Except Exc V) (s : SyncStage Exc ω) : ∃ s',
    exec (b.callAndReport listeners outcomes) s =
      (match outcomes (s.calls + 1) with
        | .ok value => .ok value
        | .error exc => .error (.original exc), s') ∧
    s'.inner = s.inner ∧ s'.calls = s.calls + 1 ∧
    s'.emitted = s.emitted ++ b.outcomeEvents (outcomes (s.calls + 1)) := by
  have hnote : (s.note .invoked).emitted = s.emitted := by
    simp [Stage.emitted, Entry.event?]
  have hcall : exec (invoke outcomes) s = (outcomes (s.calls + 1), s.note .invoked) :=
    exec_invoke outcomes s
  unfold callAndReport outcomeEvents
  cases hout : outcomes (s.calls + 1) with
  | ok value =>
      rw [hout] at hcall
      refine ⟨(s.note .invoked).notified listeners (b.event .success none), ?_, rfl, ?_, ?_⟩
      · rw [exec_tryExcept_ok hcall, exec_bind_ok (exec_emitEvent _ _ _), exec_pure]
      · rw [Stage.notified_calls, Stage.note_invoked_calls]
      · rw [Stage.emitted_notified, hnote]
  | error exc =>
      rw [hout] at hcall
      cases hc : caught exc with
      | true =>
          refine ⟨(s.note .invoked).notified listeners (b.event .error (some (.inl exc))), ?_, rfl,
            ?_, ?_⟩
          · rw [exec_tryExcept_caught hcall hc, exec_bind_ok (exec_emitEvent _ _ _), exec_throw]
          · rw [Stage.notified_calls, Stage.note_invoked_calls]
          · simp only [hc, if_true]
            rw [Stage.emitted_notified, hnote]
      | false =>
          refine ⟨s.note .invoked, exec_tryExcept_passed hcall hc _ _, rfl,
            Stage.note_invoked_calls s, ?_⟩
          simp [hc, hnote]

/-- **A rejected call** calls nothing, and reports the rejection. -/
theorem exec_execute_rejected {released : ℕ} {s : SyncStage Exc ω}
    (h : (available cfg released s.inner).value ≤ 0) (outcomes : ℕ → Except Exc V) :
    exec (b.execute listeners outcomes released) s =
      (.error (.bulkheadRejected b.reject),
        { s with inner := available cfg released s.inner }.notified listeners
          (b.event .rejected (some (.inr b.reject)))) := by
  have hacquire := exec_syncAcquire cfg released s
  rw [Semaphore.acquire, if_neg (not_lt.2 h)] at hacquire
  rw [execute, exec_bind_ok hacquire, if_pos rfl, exec_bind_ok (exec_emitEvent _ _ _), exec_throw]

/-- **An admitted call** calls the function once and reports what becomes of it; it leaves the
permits as it found them. -/
theorem exec_execute_admitted {released : ℕ} {s : SyncStage Exc ω}
    (h : 0 < (available cfg released s.inner).value) (outcomes : ℕ → Except Exc V) : ∃ s',
    exec (b.execute listeners outcomes released) s =
      (match outcomes (s.calls + 1) with
        | .ok value => .ok value
        | .error exc => .error (.original exc), s') ∧
    s'.inner = available cfg released s.inner ∧ s'.calls = s.calls + 1 ∧
    s'.emitted = s.emitted ++ b.outcomeEvents (outcomes (s.calls + 1)) := by
  have hacquire := exec_syncAcquire cfg released s
  rw [Semaphore.acquire, if_pos h] at hacquire
  obtain ⟨s', hcall, hinner, hcalls, hemitted⟩ := b.exec_callAndReport listeners outcomes
    { s with inner := ⟨(available cfg released s.inner).value - 1⟩ }
  refine ⟨{ s' with inner := s'.inner.release }, ?_, ?_, hcalls, hemitted⟩
  · rw [execute, exec_bind_ok hacquire, if_neg Bool.true_eq_false.mp, exec_tryFinally, hcall]
    rfl
  · rw [hinner, Semaphore.release]
    exact congrArg Semaphore.mk (sub_add_cancel _ _)

/-- **A call gives back the permit it takes**: when it ends, the permits are those it found. -/
theorem permits_execute (outcomes : ℕ → Except Exc V) (released : ℕ) (s : SyncStage Exc ω) :
    (exec (b.execute listeners outcomes released) s).2.inner = available cfg released s.inner := by
  rcases lt_or_ge 0 (available cfg released s.inner).value with h | h
  · obtain ⟨s', hrun, hinner, -⟩ := b.exec_execute_admitted listeners h outcomes
    rw [hrun]
    exact hinner
  · rw [b.exec_execute_rejected listeners h outcomes]
    rfl

/-! ### Runs with listeners and without -/

theorem coupled_callAndReport (outcomes : ℕ → Except Exc V) :
    Coupled (Unnoticed listeners)
      (b.callAndReport listeners outcomes : Program (SyncStage Exc ω) (Raised Exc) V)
      (b.callAndReport [] outcomes) := by
  refine (coupled_invoke listeners outcomes).tryExcept (fun exc => ?_) fun result => ?_
  · exact (coupled_emitEvent listeners _).bind fun _ => Coupled.throw _
  · exact (coupled_emitEvent listeners _).bind fun _ => Coupled.pure result

/-- **Listeners are not noticed** by `execute`. -/
theorem coupled_execute (outcomes : ℕ → Except Exc V) (released : ℕ) :
    Coupled (Unnoticed listeners)
      (b.execute listeners outcomes released : Program (SyncStage Exc ω) (Raised Exc) V)
      (b.execute [] outcomes released) := by
  have hacquire : Coupled (Unnoticed listeners)
      (syncAcquire cfg released : Program (SyncStage Exc ω) (Raised Exc) Bool)
      (syncAcquire cfg released) := by
    unfold syncAcquire
    exact (coupled_update listeners _).ite (coupled_update listeners _)
  refine hacquire.bind fun acquired => Coupled.ite ?_ ?_
  · exact (coupled_emitEvent listeners _).bind fun _ => Coupled.throw _
  · exact (b.coupled_callAndReport listeners outcomes).tryFinally (coupled_update listeners _)

end Bulkhead

end Bulkheads
