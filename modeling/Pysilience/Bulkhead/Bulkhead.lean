/-
The asynchronous side of a bulkhead.

`Bulkhead.execute_async` takes a permit, awaits what the factory returns, and gives the permit back.
The permits are a counter `_async_n` that is guarded by the lock `_async_mu`; `_async_wake` is an
event that tells the calls that wait for a permit to look again.  The code is modelled statement by
statement: a call is in a *phase*, which says where it stands, and either has control (`run`) or is
suspended and is given control back for some reason (`resume`).

Main definitions:

* `Bulkheads.BulkheadConfig`, `Bulkheads.Bulkhead` — the configuration and the fields of the object;
* `Bulkheads.Phase` — where a call of `execute_async` stands;
* `Bulkheads.Bulkhead.run` — the next statement of the call that has control;
* `Bulkheads.Bulkhead.resume` — how a suspended call gets control back.
-/

import Pysilience.Lib.Asyncio
import Pysilience.Lib.Python
import Mathlib.Algebra.Order.Ring.Unbundled.Rat

set_option relaxedAutoImplicit false
set_option autoImplicit false

namespace Bulkheads

open Python

universe u v

/-! ### Configuration and errors -/

/-- The fields of a configuration, before they are checked. -/
structure ConfigFields where
  maxConcurrent : ℤ := 10
  maxWait : ℚ := 0
  deriving DecidableEq

/-- The checks of `BulkheadConfig.__post_init__`, in order. -/
def ConfigFields.postInit (c : ConfigFields) : Except FString Unit :=
  checks [
    (decide (c.maxConcurrent < 1),
      [.text "max_concurrent must be >= 1, got ", .int c.maxConcurrent]),
    (decide (c.maxWait < 0), [.text "max_wait must be non-negative, got ", .float c.maxWait])]

/-- A configuration that was accepted: `__post_init__` raised nothing. -/
structure BulkheadConfig extends ConfigFields where
  accepted : toConfigFields.postInit = .ok ()

/-- What acceptance guarantees. -/
theorem BulkheadConfig.bounds (cfg : BulkheadConfig) : 1 ≤ cfg.maxConcurrent ∧ 0 ≤ cfg.maxWait := by
  have h := cfg.accepted
  rw [ConfigFields.postInit, checks_eq_ok] at h
  simp only [List.forall_mem_cons, decide_eq_false_iff_not, not_lt] at h
  exact ⟨h.1, h.2.1⟩

/-- `BulkheadRejected`, the exception a rejected call raises. -/
structure BulkheadRejected where
  message : String
  name : String
  maxConcurrent : ℤ
  deriving DecidableEq

inductive BulkheadEventType
  | success | rejected | error
  deriving DecidableEq, Repr

/-- `BulkheadEvent`; its exception is the factory's or the rejection. -/
structure BulkheadEvent (Exc : Type u) where
  eventType : BulkheadEventType
  name : String
  maxConcurrent : ℤ
  exception : Option (Exc ⊕ BulkheadRejected)
  deriving DecidableEq

/-! ### State -/

/-- The fields of a bulkhead that its asynchronous side uses; calls are told apart by numbers. -/
structure Bulkhead (cfg : BulkheadConfig) where
  name : String
  asyncMu : Asyncio.Lock ℕ
  asyncN : ℤ
  asyncWake : Asyncio.Event ℕ

/-- How a call of `execute_async` ends. -/
inductive Ending (V : Type v) (Exc : Type u)
  | returned (value : V)
  | raised (exc : Exc)
  | rejected (err : BulkheadRejected)
  /-- `CancelledError` was thrown into the call while it was suspended outside the factory. -/
  | cancelled
  /-- The assertion `deadline is not None` failed. -/
  | assertionError
  deriving DecidableEq

/-- What the body of an `async with self._async_mu` has decided when it is left. -/
inductive Exit (V : Type v) (Exc : Type u)
  /-- `_async_acquire` returns `True`. -/
  | acquired
  /-- `_async_acquire` returns `False`. -/
  | full
  /-- `_async_acquire` goes on to wait. -/
  | mustWait (deadline : Option ℚ) (remaining : ℚ)
  | assertionError
  /-- The body was that of `_async_release`. -/
  | released (outcome : Except Exc V)
  deriving DecidableEq

/-- Where a call of `execute_async` stands. -/
inductive Phase (V : Type v) (Exc : Type u)
  /-- The coroutine was created and has not run yet. -/
  | created
  /-- At the beginning of `_async_acquire`. -/
  | entering
  /-- At `async with self._async_mu` in `_async_acquire`, or suspended there. -/
  | locking (deadline : Option ℚ)
  | lockBlocked (deadline : Option ℚ)
  /-- At the body of that statement, which holds the lock. -/
  | checking (deadline : Option ℚ)
  /-- At the end of the body of either `async with`, which still holds the lock. -/
  | leaving (exit : Exit V Exc)
  /-- At `await asyncio.wait_for(self._async_wake.wait(), ...)`, or suspended there. -/
  | awaiting (deadline : Option ℚ) (remaining : ℚ)
  | waiting (deadline : Option ℚ) (remaining : ℚ)
  /-- `_async_acquire` has returned `False`. -/
  | rejecting
  /-- `_async_acquire` has returned `True`; suspended at `await factory()`. -/
  | running
  /-- At `async with self._async_mu` in `_async_release`, or suspended there. -/
  | releasing (outcome : Except Exc V)
  | releaseBlocked (outcome : Except Exc V)
  /-- At the body of that statement, which holds the lock. -/
  | givingBack (outcome : Except Exc V)
  | ended (ending : Ending V Exc)
  deriving DecidableEq

/-- Why a suspended call gets control back. -/
inductive Wakeup (V : Type v) (Exc : Type u)
  | started
  | lockFree
  | woken
  | timedOut
  | cancelled
  /-- The awaited factory returned or raised; what a factory does with a cancellation is its own
  affair. -/
  | finished (outcome : Except Exc V)
  deriving DecidableEq

namespace Phase

variable {V : Type v} {Exc : Type u}

/-- The call has control in this phase. -/
def executing : Phase V Exc → Bool
  | entering | locking _ | checking _ | leaving _ | awaiting _ _ | rejecting | releasing _
  | givingBack _ => true
  | _ => false

/-- The call holds `_async_mu` in this phase. -/
def locked : Phase V Exc → Bool
  | checking _ | leaving _ | givingBack _ => true
  | _ => false

/-- The call is between a successful `_async_acquire` and the completion of its
`_async_release`. -/
def holding : Phase V Exc → Bool
  | running | releasing _ | releaseBlocked _ | givingBack _ | leaving (.released _) => true
  | _ => false

/-- The factory of the call is running. -/
def isRunning : Phase V Exc → Bool
  | running => true
  | _ => false

/-- The call is suspended on `_async_wake`. -/
def isWaiting : Phase V Exc → Bool
  | waiting _ _ => true
  | _ => false

/-- The call is suspended on `_async_mu`. -/
def isBlocked : Phase V Exc → Bool
  | lockBlocked _ | releaseBlocked _ => true
  | _ => false

def isEnded : Phase V Exc → Bool
  | ended _ => true
  | _ => false

/-- The call has been refused a permit. -/
def refused : Phase V Exc → Bool
  | leaving .full | rejecting | ended (.rejected _) => true
  | _ => false

end Phase

/-- How a call ends whose factory had this outcome. -/
def Ending.ofOutcome {V : Type v} {Exc : Type u} : Except Exc V → Ending V Exc
  | .ok value => .returned value
  | .error exc => .raised exc

namespace Bulkhead

variable {cfg : BulkheadConfig} {V : Type v} {Exc : Type u} {Cls : Type v} [Exceptions Exc Cls]

/-- `__init__`. -/
def init (cfg : BulkheadConfig) (name : Option String) : Bulkhead cfg where
  name := match name with
    | some name => if name = "" then "bulkhead" else name
    | none => "bulkhead"
  asyncMu := .new
  asyncN := cfg.maxConcurrent
  asyncWake := if 0 < cfg.maxConcurrent then Asyncio.Event.new.set else .new

/-- `_reject`. -/
def reject (b : Bulkhead cfg) : BulkheadRejected :=
  ⟨"Bulkhead is full and could not acquire a permit within max_wait", b.name, cfg.maxConcurrent⟩

def event (b : Bulkhead cfg) (eventType : BulkheadEventType)
    (exception : Option (Exc ⊕ BulkheadRejected)) : BulkheadEvent Exc :=
  ⟨eventType, b.name, cfg.maxConcurrent, exception⟩

/-- What `execute_async` emits when the factory has finished. -/
def outcomeEvents (b : Bulkhead cfg) : Except Exc V → List (BulkheadEvent Exc)
  | .ok _ => [b.event .success none]
  | .error exc => if caught exc then [b.event .error (some (.inl exc))] else []

/-- `_async_acquire` takes a permit; the last one clears the event. -/
def take (b : Bulkhead cfg) : Bulkhead cfg :=
  let n := b.asyncN - 1
  { b with asyncN := n, asyncWake := if n = 0 then b.asyncWake.clear else b.asyncWake }

/-- The body of `async with self._async_mu` in `_async_acquire`, at the reading `now`. -/
def check (b : Bulkhead cfg) (deadline : Option ℚ) (now : ℚ) : Bulkhead cfg × Exit V Exc :=
  if 0 < b.asyncN then (b.take, .acquired)
  else if cfg.maxWait = 0 then (b, .full)
  else
    match deadline with
    | none => (b, .assertionError)
    | some due =>
        let remaining := due - now
        if remaining ≤ 0 then (b, .full) else (b, .mustWait deadline remaining)

/-- The body of `async with self._async_mu` in `_async_release`. -/
def giveBack (b : Bulkhead cfg) : Bulkhead cfg :=
  { b with asyncN := b.asyncN + 1, asyncWake := b.asyncWake.set }

/-- Where a call goes on after it has left the body of an `async with`. -/
def after : Exit V Exc → Phase V Exc
  | .acquired => .running
  | .full => .rejecting
  | .mustWait deadline remaining => .awaiting deadline remaining
  | .assertionError => .ended .assertionError
  | .released outcome => .ended (.ofOutcome outcome)

/-- The next statement of the call `i`, which has control, at the reading `now` of the clock: the
phase it leads to, and the events emitted. -/
def run (b : Bulkhead cfg) (i : ℕ) (now : ℚ) :
    Phase V Exc → Option (Bulkhead cfg × Phase V Exc × List (BulkheadEvent Exc))
  | .entering =>
      some (b, .locking (if 0 < cfg.maxWait then some (now + cfg.maxWait) else none), [])
  | .locking deadline =>
      let (got, mu) := b.asyncMu.acquire i
      some ({ b with asyncMu := mu }, if got then .checking deadline else .lockBlocked deadline, [])
  | .checking deadline =>
      let (b, exit) := b.check deadline now
      some (b, .leaving exit, [])
  | .leaving exit => some ({ b with asyncMu := b.asyncMu.release }, after exit, [])
  | .awaiting deadline remaining =>
      let (set, wake) := b.asyncWake.wait i
      some ({ b with asyncWake := wake },
        if set then .locking deadline else .waiting deadline remaining, [])
  | .rejecting =>
      some (b, .ended (.rejected b.reject), [b.event .rejected (some (.inr b.reject))])
  | .releasing outcome =>
      let (got, mu) := b.asyncMu.acquire i
      some ({ b with asyncMu := mu }, if got then .givingBack outcome else .releaseBlocked outcome,
        [])
  | .givingBack outcome => some (b.giveBack, .leaving (.released outcome), [])
  | _ => none

/-- The call `i`, which is suspended, gets control back. -/
def resume (b : Bulkhead cfg) (i : ℕ) :
    Phase V Exc → Wakeup V Exc → Option (Bulkhead cfg × Phase V Exc × List (BulkheadEvent Exc))
  | .created, .started => some (b, .entering, [])
  | .created, .cancelled => some (b, .ended .cancelled, [])
  | .lockBlocked deadline, .lockFree =>
      (b.asyncMu.resume i).map fun mu => ({ b with asyncMu := mu }, .checking deadline, [])
  | .lockBlocked _, .cancelled =>
      some ({ b with asyncMu := b.asyncMu.cancel i }, .ended .cancelled, [])
  | .waiting deadline _, .woken =>
      if i ∈ b.asyncWake.waiters then none else some (b, .locking deadline, [])
  | .waiting deadline _, .timedOut =>
      -- `wait_for` raises a `TimeoutError`, and the loop continues
      some ({ b with asyncWake := b.asyncWake.forget i }, .locking deadline, [])
  | .waiting _ _, .cancelled =>
      some ({ b with asyncWake := b.asyncWake.forget i }, .ended .cancelled, [])
  | .running, .finished outcome => some (b, .releasing outcome, b.outcomeEvents outcome)
  | .releaseBlocked outcome, .lockFree =>
      (b.asyncMu.resume i).map fun mu => ({ b with asyncMu := mu }, .givingBack outcome, [])
  | .releaseBlocked _, .cancelled =>
      some ({ b with asyncMu := b.asyncMu.cancel i }, .ended .cancelled, [])
  | _, _ => none

end Bulkhead

end Bulkheads
