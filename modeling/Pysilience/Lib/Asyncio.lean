/-
The lock and the event of an asyncio event loop.

Tasks of one event loop run one at a time and give up control only where they suspend.  Both
primitives are therefore plain data: a flag, and the tasks that are suspended on it in the order in
which they came.

* A *lock* is taken without suspending if it is free and nobody waits for it; otherwise the task
  queues up.  Once the lock is free the first task of the queue takes it.
* An *event* is a flag.  Waiting for a set event returns without suspending.  Setting the event
  resolves the future of every task that is suspended on it, so that these tasks go on even if the
  event is cleared before they are resumed.

Main definitions:

* `Asyncio.Lock`, with `acquire`, `resume`, `cancel` and `release`;
* `Asyncio.Event`, with `wait`, `forget`, `set` and `clear`.

Main results:

* `Asyncio.Lock.acquire_of_free` — a free lock without a queue is taken at once;
* `Asyncio.Event.Settled` and its lemmas — **nobody is suspended on an event that is set**.
-/

import Mathlib.Data.List.Basic

set_option relaxedAutoImplicit false
set_option autoImplicit false

namespace Asyncio

universe u

variable {T : Type u} [DecidableEq T]

/-! ### Locks -/

/-- An `asyncio.Lock`: whether it is held, and the tasks suspended in `acquire`. -/
structure Lock (T : Type u) where
  locked : Bool
  waiters : List T
  deriving DecidableEq

namespace Lock

/-- A new lock. -/
def new : Lock T := ⟨false, []⟩

/-- `acquire` by the task `i`: whether it has the lock, or is suspended. -/
def acquire (l : Lock T) (i : T) : Bool × Lock T :=
  if !l.locked && l.waiters.isEmpty then (true, { l with locked := true })
  else (false, { l with waiters := l.waiters ++ [i] })

/-- The suspended task `i` is resumed with the lock. -/
def resume (l : Lock T) (i : T) : Option (Lock T) :=
  if !l.locked && l.waiters.head? == some i then some ⟨true, l.waiters.tail⟩ else none

/-- The suspended task `i` is cancelled. -/
def cancel (l : Lock T) (i : T) : Lock T := { l with waiters := l.waiters.erase i }

/-- `release`. -/
def release (l : Lock T) : Lock T := { l with locked := false }

omit [DecidableEq T] in
/-- A free lock without a queue is taken at once. -/
theorem acquire_of_free (l : Lock T) (i : T) (hl : l.locked = false) (hw : l.waiters = []) :
    l.acquire i = (true, { l with locked := true }) := by
  rw [acquire, hl, hw]
  rfl

end Lock

/-! ### Events -/

/-- An `asyncio.Event`: whether it is set, and the tasks suspended in `wait` whose future has not
been resolved. -/
structure Event (T : Type u) where
  isSet : Bool
  waiters : List T
  deriving DecidableEq

namespace Event

/-- A new event. -/
def new : Event T := ⟨false, []⟩

/-- `wait` by the task `i`: whether it returns at once, or the task is suspended. -/
def wait (e : Event T) (i : T) : Bool × Event T :=
  if e.isSet then (true, e) else (false, { e with waiters := e.waiters ++ [i] })

/-- The suspended task `i` no longer waits: it was cancelled, or its time is up. -/
def forget (e : Event T) (i : T) : Event T := { e with waiters := e.waiters.erase i }

/-- `set`, which resolves the futures of all that wait. -/
def set (e : Event T) : Event T := if e.isSet then e else ⟨true, []⟩

/-- `clear`. -/
def clear (e : Event T) : Event T := { e with isSet := false }

/-- Nobody is suspended on the event while it is set. -/
def Settled (e : Event T) : Prop := e.isSet = true → e.waiters = []

omit [DecidableEq T] in
@[simp] theorem set_isSet (e : Event T) : e.set.isSet = true := by
  unfold set
  split
  · assumption
  · rfl

omit [DecidableEq T] in
@[simp] theorem clear_isSet (e : Event T) : e.clear.isSet = false := rfl

@[simp] theorem forget_isSet (e : Event T) (i : T) : (e.forget i).isSet = e.isSet := rfl

omit [DecidableEq T] in
theorem wait_isSet (e : Event T) (i : T) : (e.wait i).2.isSet = e.isSet := by
  unfold wait
  split <;> rfl

namespace Settled

omit [DecidableEq T] in
protected theorem set {e : Event T} (h : e.Settled) : e.set.Settled := by
  intro _
  unfold Event.set
  split
  · next hset => exact h hset
  · rfl

omit [DecidableEq T] in
protected theorem clear (e : Event T) : e.clear.Settled := by
  intro hset
  cases hset

protected theorem forget {e : Event T} (h : e.Settled) (i : T) : (e.forget i).Settled := by
  intro hset
  rw [forget, h hset]
  rfl

omit [DecidableEq T] in
/-- Whoever is suspended waits for an event that is not set. -/
protected theorem wait {e : Event T} (h : e.Settled) (i : T) : (e.wait i).2.Settled := by
  unfold Event.wait
  split
  · exact h
  · next hunset => exact fun hset => absurd hset hunset

end Settled

end Event

end Asyncio
