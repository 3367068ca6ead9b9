/-
The thread pool of the timeouts.

`execute` hands the function to an executor and waits for its future for as long as the limit
allows. All timeouts that were not given an executor of their own share one, with a fixed number of
threads. A timeout ends the wait, but not the function: it only cancels a future that is still
pending, and a thread that runs a function goes on until the function is through.  So functions that
were given up keep others from being tried.

A call submits its function, waits, and gives up; a worker takes the next work item from the queue,
then runs it unless it was cancelled, and sets the outcome.  The steps of any number of calls and of
the workers interleave.  So a worker may be overtaken between taking a work item and running it,
functions may be started in another order than that of their work items, and a function may be
started in the moment between the end of the wait and the cancellation.  Whoever waits may also be
interrupted; that cancels nothing.

The events of the calls concern none of this and are left out.

Main definitions:

* `Timeouts.Future`, `Timeouts.PoolCall`, `Timeouts.Executor` — the futures, the calls, and the
  executor;
* `Timeouts.PoolCall.advance`, `Timeouts.Executor.step`, `Timeouts.executor` — the machine;
* `Timeouts.Executor.pool` — the executor as a pool of workers.

Main results:

* `Timeouts.functions_run_once` — **work items are taken in order, functions are started once at
  most, and not after they were given up**;
* `Timeouts.untried_call_waited_for_others` — **a call that times out before it was tried has waited
  for the functions before it**.
-/

import Pysilience.Lib.Transition
import Pysilience.Lib.WorkerPool
import Pysilience.Timeout.Timeout

set_option relaxedAutoImplicit false
set_option autoImplicit false

namespace Timeouts

open Python Transition WorkerPool

variable {Exc Cls V : Type}

/-! ### Calls and futures -/

/-- The states of a `Future`, with the instants at which it got there. -/
inductive Future (Exc V : Type)
  | pending
  | cancelled (till : ℚ)
  | running (since : ℚ)
  | finished (since till : ℚ) (outcome : Except Exc V)

/-- How a call of `_execute_with_thread` ended. -/
inductive Ending (Exc V : Type)
  | returned (value : V)
  | raised (exc : Exc)
  /-- With an `OperationTimeout`. -/
  | timedOut
  /-- With an exception that was raised where it waited. -/
  | interrupted

/-- What a call is about to do. -/
inductive Waiter (Exc V : Type)
  /-- To call `future.result`. -/
  | submitted
  /-- To be woken, or to give up at the deadline. -/
  | waiting (deadline : ℚ)
  /-- To call `future.cancel` in the handler of the `TimeoutError`. -/
  | cancelling
  | ended (ending : Ending Exc V)

/-- A call and its future. -/
structure PoolCall (Exc V : Type) where
  duration : ℚ
  submittedAt : ℚ
  future : Future Exc V
  waiter : Waiter Exc V

namespace Future

def isPending : Future Exc V → Bool
  | .pending => true
  | _ => false

def isFinished : Future Exc V → Bool
  | .finished .. => true
  | _ => false

/-- What has become of the function. -/
def status : Future Exc V → Status ℚ
  | .pending => .waiting
  | .cancelled till => .dropped till
  | .running since => .running since
  | .finished since till _ => .done since till

end Future

/-- What can happen to a call. -/
inductive WaiterEvent
  | await | wake | expire | cancel | interrupt
  deriving DecidableEq

/-- One step of a call. -/
def PoolCall.advance [TimeoutErrors Exc Cls] (now : ℚ) (c : PoolCall Exc V) :
    WaiterEvent → Option (PoolCall Exc V)
  -- `future.result(timeout=self.config.duration)`
  | .await =>
      match c.waiter with
      | .submitted => some { c with waiter := .waiting (now + c.duration) }
      | _ => none
  | .wake =>
      match c.waiter, c.future with
      | .waiting _, .finished _ _ (.ok value) =>
          some { c with waiter := .ended (.returned value) }
      | .waiting _, .finished _ _ (.error exc) =>
          some { c with waiter := if isTimeoutError exc then .cancelling else .ended (.raised exc) }
      | _, _ => none
  | .expire =>
      match c.waiter with
      | .waiting deadline =>
          if deadline ≤ now ∧ c.future.isFinished = false then some { c with waiter := .cancelling }
          else none
      | _ => none
  -- `future.cancel()` and `raise error from None`
  | .cancel =>
      match c.waiter with
      | .cancelling =>
          if c.future.isPending then
            some { c with future := .cancelled now, waiter := .ended .timedOut }
          else some { c with waiter := .ended .timedOut }
      | _ => none
  | .interrupt =>
      match c.waiter with
      | .ended _ => none
      | _ => some { c with waiter := .ended .interrupted }

/-! ### The executor -/

/-- A `ThreadPoolExecutor`: its bound on the threads, its queue of work items, those that a worker
has taken and not yet run, and the calls in the order in which they submitted their functions.
`taken` and `invoked` tell in which order work items were taken and functions were started; no step
reads them. -/
structure Executor (Exc V : Type) where
  maxWorkers : ℕ
  now : ℚ
  shut : Bool
  queue : List ℕ
  held : List ℕ
  calls : List (PoolCall Exc V)
  taken : List ℕ
  invoked : List ℕ

/-- What can happen: a call submits its function or makes a step, a worker takes the next work item
or runs the one it has taken, a function finishes, time passes, or the executor is shut down. -/
inductive PoolAction (Exc V : Type)
  | submit (config : TimeoutConfig)
  | advance (i : ℕ) (event : WaiterEvent)
  | take
  | run (i : ℕ)
  | finish (i : ℕ) (outcome : Except Exc V)
  | pass (d : ℚ≥0)
  | shutdown

namespace Executor

/-- The executor as a pool of workers. -/
def pool (e : Executor Exc V) : Pool ℚ where
  workers := e.maxWorkers
  now := e.now
  jobs := e.calls.map fun c => ⟨c.submittedAt, c.future.status⟩

/-- The threads that run a function. -/
def busy (e : Executor Exc V) : ℕ := e.pool.busy

/-- Another state of a call. -/
def become (e : Executor Exc V) (i : ℕ) (c : PoolCall Exc V) : Executor Exc V :=
  { e with calls := e.calls.set i c }

/-- A worker runs a work item that it has taken: `set_running_or_notify_cancel`, and if the future
was not cancelled the function. -/
def run (e : Executor Exc V) (i : ℕ) : Option (Executor Exc V) :=
  e.calls[i]?.bind fun c =>
    match c.future with
    | .pending =>
        some { e.become i { c with future := .running e.now } with
          held := e.held.erase i
          invoked := e.invoked ++ [i] }
    | .cancelled _ => some { e with held := e.held.erase i }
    | _ => none

/-- One step.  Once the executor is shut down, `submit` raises and nothing else happens. -/
def step [TimeoutErrors Exc Cls] (e : Executor Exc V) :
    PoolAction Exc V → Option (Executor Exc V)
  | .submit config =>
      if e.shut then some e
      else some { e with
        queue := e.queue ++ [e.calls.length]
        calls := e.calls ++ [⟨config.duration, e.now, .pending, .submitted⟩] }
  | .advance i event =>
      e.calls[i]?.bind fun c => (c.advance e.now event).map (e.become i)
  -- `work_queue.get()`, by a worker that neither runs a function nor is about to
  | .take =>
      match e.queue with
      | [] => none
      | i :: rest =>
          if e.busy + e.held.length < e.maxWorkers then
            some { e with queue := rest, held := e.held ++ [i], taken := e.taken ++ [i] }
          else none
  | .run i => if i ∈ e.held then e.run i else none
  | .finish i outcome =>
      e.calls[i]?.bind fun c =>
        match c.future with
        | .running since => some (e.become i { c with future := .finished since e.now outcome })
        | _ => none
  | .pass d => some { e with now := e.now + d }
  | .shutdown => some { e with shut := true }

end Executor

/-- An executor with any number of calls. -/
def executor (Exc V : Type) {Cls : Type} [TimeoutErrors Exc Cls] (maxWorkers : ℕ) :
    Machine (Executor Exc V) (PoolAction Exc V) where
  init := ⟨maxWorkers, 0, false, [], [], [], [], []⟩
  step := Executor.step

/-- The side condition on a step: no time passes between taking a work item and running it, or while
a thread is idle and there is a work item. -/
def Diligent (e : Executor Exc V) : PoolAction Exc V → Prop
  | .pass _ => e.held = [] ∧ (e.queue = [] ∨ e.busy = e.maxWorkers)
  | _ => True

instance (e : Executor Exc V) : (a : PoolAction Exc V) → Decidable (Diligent e a)
  | .pass _ => inferInstanceAs (Decidable (e.held = [] ∧ (e.queue = [] ∨ e.busy = e.maxWorkers)))
  | .submit _ | .advance .. | .take | .run _ | .finish .. | .shutdown => .isTrue trivial

/-! ### What the steps do -/

section Steps

variable [TimeoutErrors Exc Cls]

/-- The cases of a step of a call. -/
inductive PoolCall.AdvanceCase (now : ℚ) (c : PoolCall Exc V) : PoolCall Exc V → Prop
  | await : c.waiter = .submitted →
      AdvanceCase now c { c with waiter := .waiting (now + c.duration) }
  | returned (deadline since till : ℚ) (value : V) : c.waiter = .waiting deadline →
      c.future = .finished since till (.ok value) →
      AdvanceCase now c { c with waiter := .ended (.returned value) }
  | raised (deadline since till : ℚ) (exc : Exc) : c.waiter = .waiting deadline →
      c.future = .finished since till (.error exc) → isTimeoutError exc = false →
      AdvanceCase now c { c with waiter := .ended (.raised exc) }
  /-- The function has raised a `TimeoutError` itself. -/
  | mistaken (deadline since till : ℚ) (exc : Exc) : c.waiter = .waiting deadline →
      c.future = .finished since till (.error exc) → isTimeoutError exc = true →
      AdvanceCase now c { c with waiter := .cancelling }
  | expired (deadline : ℚ) : c.waiter = .waiting deadline → deadline ≤ now →
      AdvanceCase now c { c with waiter := .cancelling }
  | cancelled : c.waiter = .cancelling → c.future = .pending →
      AdvanceCase now c { c with future := .cancelled now, waiter := .ended .timedOut }
  | gaveUp : c.waiter = .cancelling → c.future.isPending = false →
      AdvanceCase now c { c with waiter := .ended .timedOut }
  | interrupted : (∀ ending, c.waiter ≠ .ended ending) →
      AdvanceCase now c { c with waiter := .ended .interrupted }

/-- All a call can do in one step. -/
theorem PoolCall.advance_cases {now : ℚ} {c c' : PoolCall Exc V} {event : WaiterEvent}
    (h : c.advance now event = some c') : c.AdvanceCase now c' := by
  obtain ⟨duration, submittedAt, future, waiter⟩ := c
  cases event with
  | await =>
      cases waiter with
      | submitted =>
          cases h
          exact .await rfl
      | waiting | cancelling | ended => cases h
  | wake =>
      cases waiter with
      | waiting deadline =>
          cases future with
          | finished since till outcome =>
              cases outcome with
              | ok value =>
                  cases h
                  exact .returned deadline since till value rfl rfl
              | error exc =>
                  cases hexc : isTimeoutError exc with
                  | true =>
                      simp only [advance, hexc, if_true, Option.some_inj] at h
                      subst h
                      exact .mistaken deadline since till exc rfl rfl hexc
                  | false =>
                      simp only [advance, hexc, Bool.false_eq_true, if_false, Option.some_inj] at h
                      subst h
                      exact .raised deadline since till exc rfl rfl hexc
          | pending | cancelled | running => cases h
      | submitted | cancelling | ended => cases h
  | expire =>
      cases waiter with
      | waiting deadline =>
          simp only [advance] at h
          split at h
          · next hlate =>
            cases h
            exact .expired deadline rfl hlate.1
          · cases h
      | submitted | cancelling | ended => cases h
  | cancel =>
      cases waiter with
      | cancelling =>
          cases future with
          | pending =>
              cases h
              exact .cancelled rfl rfl
          | cancelled | running | finished =>
              cases h
              exact .gaveUp rfl rfl
      | submitted | waiting | ended => cases h
  | interrupt =>
      cases waiter with
      | ended => cases h
      | submitted | waiting | cancelling =>
          cases h
          exact .interrupted nofun

namespace Executor

/-- The cases of a step. -/
inductive StepCase (e : Executor Exc V) : PoolAction Exc V → Executor Exc V → Prop
  | refused (config : TimeoutConfig) : e.shut = true → StepCase e (.submit config) e
  | submit (config : TimeoutConfig) : StepCase e (.submit config) { e with
      queue := e.queue ++ [e.calls.length]
      calls := e.calls ++ [⟨config.duration, e.now, .pending, .submitted⟩] }
  | advance (i : ℕ) (event : WaiterEvent) (c c' : PoolCall Exc V) : e.calls[i]? = some c →
      c.AdvanceCase e.now c' → StepCase e (.advance i event) (e.become i c')
  | take (i : ℕ) (rest : List ℕ) : e.queue = i :: rest → e.busy + e.held.length < e.maxWorkers →
      StepCase e .take { e with queue := rest, held := e.held ++ [i], taken := e.taken ++ [i] }
  | start (i : ℕ) (c : PoolCall Exc V) : i ∈ e.held → e.calls[i]? = some c → c.future = .pending →
      StepCase e (.run i) { e.become i { c with future := .running e.now } with
        held := e.held.erase i
        invoked := e.invoked ++ [i] }
  | skip (i : ℕ) (c : PoolCall Exc V) (till : ℚ) : i ∈ e.held → e.calls[i]? = some c →
      c.future = .cancelled till → StepCase e (.run i) { e with held := e.held.erase i }
  | finish (i : ℕ) (outcome : Except Exc V) (c : PoolCall Exc V) (since : ℚ) :
      e.calls[i]? = some c → c.future = .running since →
      StepCase e (.finish i outcome) (e.become i { c with future := .finished since e.now outcome })
  | pass (d : ℚ≥0) : StepCase e (.pass d) { e with now := e.now + d }
  | shutdown : StepCase e .shutdown { e with shut := true }

/-- **All a step can do.** -/
theorem step_cases {e e' : Executor Exc V} {a : PoolAction Exc V} (h : e.step a = some e') :
    StepCase e a e' := by
  cases a with
  | submit config =>
      simp only [step] at h
      split at h
      · next hshut =>
        cases h
        exact .refused config hshut
      · cases h
        exact .submit config
  | advance i event =>
      obtain ⟨c, hc, h⟩ := Option.bind_eq_some_iff.1 h
      obtain ⟨c', hc', rfl⟩ := Option.map_eq_some_iff.1 h
      exact .advance i event c c' hc (PoolCall.advance_cases hc')
  | take =>
      simp only [step] at h
      split at h
      · cases h
      · next i rest hqueue =>
        split at h
        · next hfree =>
          cases h
          exact .take i rest hqueue hfree
        · cases h
  | run i =>
      simp only [step] at h
      split at h
      · next hheld =>
        obtain ⟨c, hc, h⟩ := Option.bind_eq_some_iff.1 h
        split at h
        · next hf =>
          cases h
          exact .start i c hheld hc hf
        · next till hf =>
          cases h
          exact .skip i c till hheld hc hf
        · cases h
      · cases h
  | finish i outcome =>
      obtain ⟨c, hc, h⟩ := Option.bind_eq_some_iff.1 h
      split at h
      · next since hf =>
        cases h
        exact .finish i outcome c since hc hf
      · cases h
  | pass d =>
      cases h
      exact .pass d
  | shutdown =>
      cases h
      exact .shutdown

end Executor

end Steps

/-! ### What every step keeps -/

/-- What the steps keep of a call. -/
structure PoolCall.Ok (now : ℚ) (c : PoolCall Exc V) : Prop where
  submitted_le : c.submittedAt ≤ now
  waiting : ∀ deadline, c.waiter = .waiting deadline → c.submittedAt + c.duration ≤ deadline
  cancelling : c.waiter = .cancelling →
    c.future.isFinished = true ∨ c.submittedAt + c.duration ≤ now
  returned : ∀ value, c.waiter = .ended (.returned value) →
    ∃ since till, c.future = .finished since till (.ok value)
  raised : ∀ exc, c.waiter = .ended (.raised exc) →
    ∃ since till, c.future = .finished since till (.error exc)
  timedOut : c.waiter = .ended .timedOut → c.future.isPending = false
  cancelled : ∀ till, c.future = .cancelled till →
    c.waiter = .ended .timedOut ∧ c.submittedAt + c.duration ≤ till

namespace PoolCall.Ok

variable {now : ℚ} {c : PoolCall Exc V}

/-- A call that has just submitted its function. -/
theorem new (duration now : ℚ) : Ok now (⟨duration, now, .pending, .submitted⟩ : PoolCall Exc V) :=
  ⟨le_refl _, nofun, nofun, nofun, nofun, nofun, nofun⟩

theorem pass (h : c.Ok now) {d : ℚ} (hd : 0 ≤ d) : c.Ok (now + d) :=
  { h with
    submitted_le := h.submitted_le.trans (le_add_of_nonneg_right hd)
    cancelling := fun hw => (h.cancelling hw).imp_right
      fun hle => hle.trans (le_add_of_nonneg_right hd) }

/-- A worker starts the function. -/
theorem start (h : c.Ok now) (hf : c.future = .pending) :
    Ok now { c with future := .running now } where
  submitted_le := h.submitted_le
  waiting := h.waiting
  cancelling hw := by
    have := h.cancelling hw
    rw [hf] at this
    exact .inr (this.resolve_left nofun)
  returned value hw := by
    obtain ⟨since, till, hfinished⟩ := h.returned value hw
    rw [hf] at hfinished
    cases hfinished
  raised exc hw := by
    obtain ⟨since, till, hfinished⟩ := h.raised exc hw
    rw [hf] at hfinished
    cases hfinished
  timedOut _ := rfl
  cancelled _ := nofun

/-- The function finishes. -/
theorem finish (h : c.Ok now) {since : ℚ} (hf : c.future = .running since)
    (outcome : Except Exc V) : Ok now { c with future := .finished since now outcome } where
  submitted_le := h.submitted_le
  waiting := h.waiting
  cancelling _ := .inl rfl
  returned value hw := by
    obtain ⟨_, _, hfinished⟩ := h.returned value hw
    rw [hf] at hfinished
    cases hfinished
  raised exc hw := by
    obtain ⟨_, _, hfinished⟩ := h.raised exc hw
    rw [hf] at hfinished
    cases hfinished
  timedOut _ := rfl
  cancelled _ := nofun

/-- A call whose future was not cancelled. -/
theorem not_cancelled (h : c.Ok now) (hw : c.waiter ≠ .ended .timedOut) (till : ℚ) :
    c.future ≠ .cancelled till := fun hf => hw (h.cancelled till hf).1

/-- The call makes a step. -/
theorem advance [TimeoutErrors Exc Cls] (h : c.Ok now) {c' : PoolCall Exc V}
    (hcase : c.AdvanceCase now c') : c'.Ok now := by
  obtain ⟨duration, submittedAt, future, waiter⟩ := c
  cases hcase with
  | await hw =>
      have hnot := h.not_cancelled (by rw [hw]; exact nofun)
      refine ⟨h.submitted_le, fun deadline hd => ?_, nofun, nofun, nofun, nofun,
        fun till hf => absurd hf (hnot till)⟩
      obtain rfl := Waiter.waiting.inj hd
      exact add_le_add_left h.submitted_le _
  | returned deadline since till value hw hf =>
      have hnot := h.not_cancelled (by rw [hw]; exact nofun)
      refine ⟨h.submitted_le, nofun, nofun, fun value' hv => ?_, nofun, nofun,
        fun till hf => absurd hf (hnot till)⟩
      obtain rfl := Ending.returned.inj (Waiter.ended.inj hv)
      exact ⟨since, till, hf⟩
  | raised deadline since till exc hw hf hexc =>
      have hnot := h.not_cancelled (by rw [hw]; exact nofun)
      refine ⟨h.submitted_le, nofun, nofun, nofun, fun exc' he => ?_, nofun,
        fun till hf => absurd hf (hnot till)⟩
      obtain rfl := Ending.raised.inj (Waiter.ended.inj he)
      exact ⟨since, till, hf⟩
  | mistaken deadline since till exc hw hf hexc =>
      have hnot := h.not_cancelled (by rw [hw]; exact nofun)
      refine ⟨h.submitted_le, nofun, fun _ => .inl ?_, nofun, nofun, nofun,
        fun till hf => absurd hf (hnot till)⟩
      change future.isFinished = true
      rw [show future = _ from hf]
      rfl
  | expired deadline hw hlate =>
      have hnot := h.not_cancelled (by rw [hw]; exact nofun)
      exact ⟨h.submitted_le, nofun, fun _ => .inr ((h.waiting deadline hw).trans hlate), nofun,
        nofun, nofun, fun till hf => absurd hf (hnot till)⟩
  | cancelled hw hf =>
      refine ⟨h.submitted_le, nofun, nofun, nofun, nofun, fun _ => rfl, fun till hc => ⟨rfl, ?_⟩⟩
      obtain rfl := Future.cancelled.inj hc
      refine (h.cancelling hw).resolve_left fun hfinished => ?_
      rw [hf] at hfinished
      cases hfinished
  | gaveUp hw hf =>
      have hnot := h.not_cancelled (by rw [hw]; exact nofun)
      exact ⟨h.submitted_le, nofun, nofun, nofun, nofun, fun _ => hf,
        fun till hc => absurd hc (hnot till)⟩
  | interrupted hw =>
      have hnot := h.not_cancelled (hw _)
      exact ⟨h.submitted_le, nofun, nofun, nofun, nofun, nofun,
        fun till hc => absurd hc (hnot till)⟩

end PoolCall.Ok

namespace Executor

/-- What the steps keep of an executor.  The work items that were taken, and then those in the
queue, are all that were submitted, in this order. -/
structure Ok (e : Executor Exc V) : Prop where
  workers_le : e.busy + e.held.length ≤ e.maxWorkers
  order : e.taken ++ e.queue = List.range e.calls.length
  held : ∀ i ∈ e.held, i ∈ e.taken
  once : e.invoked.Nodup
  started : ∀ i ∈ e.invoked, i ∈ e.taken
  pending : ∀ i c, e.calls[i]? = some c → c.future = .pending → i ∈ e.held ∨ i ∈ e.queue
  invoked : ∀ i c, e.calls[i]? = some c →
    (i ∈ e.invoked ↔ c.future.status.isStarted = true)
  calls : ∀ c ∈ e.calls, c.Ok e.now

/-- The calls with another state of one of them. -/
theorem getElem?_become {e : Executor Exc V} {i : ℕ} {c : PoolCall Exc V}
    (hi : e.calls[i]? = some c) (c' : PoolCall Exc V) (j : ℕ) :
    (e.become i c').calls[j]? = if j = i then some c' else e.calls[j]? := by
  rw [become, List.getElem?_set]
  split
  · next h =>
    subst h
    rw [if_pos rfl, if_pos (List.getElem?_eq_some_iff.1 hi).1]
  · next h => rw [if_neg (Ne.symm h)]

/-- The pool of workers with another state of a call. -/
theorem pool_become {e : Executor Exc V} {i : ℕ} {c c' : PoolCall Exc V}
    (hsubmitted : c'.submittedAt = c.submittedAt) :
    (e.become i c').pool =
      e.pool.become i ⟨c.submittedAt, c.future.status⟩ c'.future.status := by
  simp only [become, pool, Pool.become, List.map_set, hsubmitted]

/-- The pool of workers with another call. -/
theorem pool_submit (e : Executor Exc V) (queue : List ℕ) (duration : ℚ) :
    pool { e with
        queue := queue
        calls := e.calls ++ [⟨duration, e.now, .pending, .submitted⟩] } =
      { e.pool with jobs := e.pool.jobs ++ [⟨e.now, .waiting⟩] } := by
  simp only [pool, List.map_append, List.map_cons, List.map_nil]
  rfl

theorem pool_getElem? {e : Executor Exc V} {i : ℕ} {c : PoolCall Exc V}
    (hi : e.calls[i]? = some c) : e.pool.jobs[i]? = some ⟨c.submittedAt, c.future.status⟩ := by
  rw [pool, List.getElem?_map, hi, Option.map_some]

/-- A call changes, and it is neither started nor pending anew. -/
theorem Ok.become {e : Executor Exc V} (h : e.Ok) {i : ℕ} {c c' : PoolCall Exc V}
    (hi : e.calls[i]? = some c) (hok : c'.Ok e.now)
    (hbusy : (e.become i c').busy ≤ e.busy)
    (hpending : c'.future = .pending → c.future = .pending)
    (hstarted : c'.future.status.isStarted = c.future.status.isStarted) : (e.become i c').Ok := by
  refine ⟨(Nat.add_le_add_right hbusy _).trans h.workers_le, ?_, h.held, h.once, h.started,
    fun j d hj hd => ?_, fun j d hj => ?_, fun d hd => ?_⟩
  · rw [Executor.become, List.length_set]
    exact h.order
  · rw [getElem?_become hi] at hj
    split at hj
    · next heq =>
      subst heq
      obtain rfl := Option.some_inj.1 hj
      exact h.pending j c hi (hpending hd)
    · exact h.pending j d hj hd
  · rw [getElem?_become hi] at hj
    split at hj
    · next heq =>
      subst heq
      obtain rfl := Option.some_inj.1 hj
      rw [hstarted]
      exact h.invoked j c hi
    · exact h.invoked j d hj
  · rcases List.mem_or_eq_of_mem_set hd with hd | rfl
    · exact h.calls d hd
    · exact hok

/-- What a step of a call does to its future. -/
theorem future_of_advanceCase [TimeoutErrors Exc Cls] {now : ℚ} {c c' : PoolCall Exc V}
    (h : c.AdvanceCase now c') : c'.submittedAt = c.submittedAt ∧
      (c'.future = c.future ∨ c.future = .pending ∧ c'.future = .cancelled now) := by
  cases h with
  | cancelled hw hf => exact ⟨rfl, .inr ⟨hf, rfl⟩⟩
  | _ => exact ⟨rfl, .inl rfl⟩

/-- A worker takes the next work item. -/
theorem Ok.take {e : Executor Exc V} (h : e.Ok) {i : ℕ} {rest : List ℕ}
    (hqueue : e.queue = i :: rest) (hfree : e.busy + e.held.length < e.maxWorkers) :
    Ok { e with queue := rest, held := e.held ++ [i], taken := e.taken ++ [i] } := by
  refine ⟨?_, ?_, fun j hj => ?_, h.once, fun j hj => List.mem_append_left _ (h.started j hj),
    fun j c hj hf => ?_, h.invoked, h.calls⟩
  · change e.busy + (e.held ++ [i]).length ≤ e.maxWorkers
    rw [List.length_append, List.length_singleton]
    exact hfree
  · rw [List.append_assoc, List.singleton_append, ← hqueue]
    exact h.order
  · exact (List.mem_append.1 hj).elim (fun hj => List.mem_append_left _ (h.held j hj))
      (List.mem_append_right _)
  · rcases h.pending j c hj hf with hmem | hmem
    · exact .inl (List.mem_append_left _ hmem)
    · rw [hqueue] at hmem
      rcases List.mem_cons.1 hmem with rfl | hmem
      · exact .inl (List.mem_append_right _ (List.mem_singleton_self _))
      · exact .inr hmem

/-- What was not the work item `i` is still held. -/
theorem Ok.held_erase {e : Executor Exc V} (h : e.Ok) (i : ℕ) :
    ∀ j ∈ e.held.erase i, j ∈ e.taken := fun j hj => h.held j (List.mem_of_mem_erase hj)

/-- A worker starts the function of a work item that it has taken. -/
theorem Ok.start {e : Executor Exc V} (h : e.Ok) {i : ℕ} {c : PoolCall Exc V} (hheld : i ∈ e.held)
    (hi : e.calls[i]? = some c) (hf : c.future = .pending) :
    Ok { e.become i { c with future := .running e.now } with
      held := e.held.erase i
      invoked := e.invoked ++ [i] } := by
  have hnot : i ∉ e.invoked := by
    rw [h.invoked i c hi, hf]
    exact Bool.false_ne_true
  refine ⟨?_, ?_, h.held_erase i, ?_, fun j hj => ?_, fun j d hj hd => ?_, fun j d hj => ?_,
    fun d hd => ?_⟩
  · have hpool : (e.become i { c with future := .running e.now }).pool =
        e.pool.become i ⟨c.submittedAt, c.future.status⟩ (.running e.now) := pool_become rfl
    have hbusy := Pool.busy_become (pool_getElem? hi) (.running e.now)
    rw [← hpool, hf] at hbusy
    have hone : (e.become i { c with future := .running e.now }).busy = e.busy + 1 := hbusy
    have hpos := List.length_pos_of_mem hheld
    have hle := h.workers_le
    change (e.become i { c with future := .running e.now }).busy + (e.held.erase i).length ≤
      e.maxWorkers
    rw [hone, List.length_erase_of_mem hheld]
    omega
  · change _ = List.range (e.calls.set i _).length
    rw [List.length_set]
    exact h.order
  · exact List.Nodup.append h.once (List.nodup_singleton i)
      (List.disjoint_singleton.2 hnot)
  · rcases List.mem_append.1 hj with hj | hj
    · exact h.started j hj
    · exact List.mem_singleton.1 hj ▸ h.held i hheld
  · change (e.become i _).calls[j]? = some d at hj
    rw [getElem?_become hi] at hj
    split at hj
    · obtain rfl := Option.some_inj.1 hj
      cases hd
    · next hne => exact (h.pending j d hj hd).imp_left (List.mem_erase_of_ne hne).2
  · change (e.become i _).calls[j]? = some d at hj
    rw [getElem?_become hi] at hj
    rw [List.mem_append, List.mem_singleton]
    split at hj
    · next heq =>
      obtain rfl := Option.some_inj.1 hj
      exact ⟨fun _ => rfl, fun _ => .inr heq⟩
    · next hne =>
      rw [or_iff_left hne]
      exact h.invoked j d hj
  · rcases List.mem_or_eq_of_mem_set hd with hd | rfl
    · exact h.calls d hd
    · exact (h.calls c (List.mem_of_getElem? hi)).start hf

/-- A worker drops a work item that was cancelled. -/
theorem Ok.skip {e : Executor Exc V} (h : e.Ok) {i : ℕ} {c : PoolCall Exc V} {till : ℚ}
    (hi : e.calls[i]? = some c) (hf : c.future = .cancelled till) :
    Ok { e with held := e.held.erase i } := by
  refine ⟨?_, h.order, h.held_erase i, h.once, h.started, fun j d hj hd => ?_, h.invoked, h.calls⟩
  · exact (Nat.add_le_add_left (List.length_erase_le ..) _).trans h.workers_le
  · refine (h.pending j d hj hd).imp_left (List.mem_erase_of_ne ?_).2
    rintro rfl
    cases hi.symm.trans hj
    rw [hf] at hd
    cases hd

/-- What was taken had been submitted. -/
theorem Ok.submitted {e : Executor Exc V} (h : e.Ok) {i : ℕ} (hi : i ∈ e.taken) :
    i < e.calls.length := by
  rw [← List.mem_range, ← h.order]
  exact List.mem_append_left _ hi

/-- What was taken had been submitted before what is in the queue. -/
theorem Ok.lt_of_mem {e : Executor Exc V} (h : e.Ok) {i j : ℕ} (hi : i ∈ e.taken)
    (hj : j ∈ e.queue) : i < j := by
  have hsorted : (e.taken ++ e.queue).Pairwise (· < ·) := h.order ▸ List.pairwise_lt_range
  exact (List.pairwise_append.1 hsorted).2.2 i hi j hj

/-- A call submits its function. -/
theorem Ok.submit {e : Executor Exc V} (h : e.Ok) (config : TimeoutConfig) :
    Ok { e with
      queue := e.queue ++ [e.calls.length]
      calls := e.calls ++ [⟨config.duration, e.now, .pending, .submitted⟩] } := by
  refine ⟨?_, ?_, h.held, h.once, h.started, fun i c hi hf => ?_, fun i c hi => ?_, fun c hc => ?_⟩
  · rw [busy, pool_submit, Pool.busy_submit]
    exact h.workers_le
  · rw [← List.append_assoc, h.order, List.length_append, List.length_singleton,
      List.range_succ]
  · rcases getElem?_concat_cases hi with ⟨hi, -⟩ | ⟨rfl, -⟩
    · exact (h.pending i c hi hf).imp_right (List.mem_append_left _)
    · exact .inr (List.mem_append_right _ List.mem_cons_self)
  · rcases getElem?_concat_cases hi with ⟨hi, -⟩ | ⟨rfl, rfl⟩
    · exact h.invoked i c hi
    · refine ⟨fun hmem => ?_, nofun⟩
      exact absurd (h.submitted (h.started _ hmem)) (Nat.lt_irrefl _)
  · rcases List.mem_append.1 hc with hc | hc
    · exact h.calls c hc
    · rw [List.mem_singleton.1 hc]
      exact .new _ _

/-- **Every step keeps an executor in order.** -/
theorem Ok.step [TimeoutErrors Exc Cls] {e e' : Executor Exc V} (h : e.Ok)
    {a : PoolAction Exc V} (hstep : e.step a = some e') : e'.Ok := by
  cases step_cases hstep with
  | refused => exact h
  | submit config => exact h.submit config
  | advance i event c c' hi hcase =>
      obtain ⟨hsubmitted, hfuture⟩ := future_of_advanceCase hcase
      have hbusy := Pool.busy_become (pool_getElem? hi) c'.future.status
      rw [← pool_become hsubmitted] at hbusy
      have hok := (h.calls c (List.mem_of_getElem? hi)).advance hcase
      rcases hfuture with hf | ⟨hf, hf'⟩
      · rw [hf] at hbusy
        exact h.become hi hok (Nat.add_right_cancel hbusy).le (fun hp => hf ▸ hp) (by rw [hf])
      · rw [hf, hf'] at hbusy
        refine h.become hi hok ?_ (fun _ => hf) (by rw [hf, hf']; rfl)
        exact (show (e.become i c').busy = e.busy from hbusy).le
  | take i rest hqueue hfree => exact h.take hqueue hfree
  | start i c hheld hi hf => exact h.start hheld hi hf
  | skip i c till hheld hi hf => exact h.skip hi hf
  | finish i outcome c since hi hf =>
      have hbusy := Pool.busy_become (pool_getElem? hi) (.done since e.now)
      have hpool : (e.become i { c with future := .finished since e.now outcome }).pool =
          e.pool.become i ⟨c.submittedAt, c.future.status⟩ (.done since e.now) := pool_become rfl
      rw [← hpool, hf] at hbusy
      refine h.become hi ((h.calls c (List.mem_of_getElem? hi)).finish hf outcome) ?_ nofun
        (by rw [hf]; rfl)
      exact (Nat.le_add_right _ 1).trans hbusy.le
  | pass d =>
      exact { h with calls := fun c hc => (h.calls c hc).pass d.coe_nonneg }
  | shutdown => exact { h with }

theorem ok_of_reachable [TimeoutErrors Exc Cls] {maxWorkers : ℕ} {e : Executor Exc V}
    (h : (executor Exc V maxWorkers).Reachable e) : e.Ok :=
  h.invariant ⟨Nat.zero_le _, rfl, nofun, .nil, nofun, nofun, nofun, nofun⟩ fun _ _ _ hi hstep =>
    hi.step hstep

/-- A function that is not pending any more is not started later. -/
theorem settled_step [TimeoutErrors Exc Cls] {e e' : Executor Exc V} {a : PoolAction Exc V}
    (hstep : e.step a = some e') {i : ℕ} {c : PoolCall Exc V} (hi : e.calls[i]? = some c)
    (hf : c.future ≠ .pending) : ∃ c', e'.calls[i]? = some c' ∧ c'.future ≠ .pending ∧
      c'.future.status.isStarted = c.future.status.isStarted := by
  have hkeep : ∀ {j d d'}, e.calls[j]? = some d →
      (j = i → d'.future ≠ .pending ∧
        d'.future.status.isStarted = d.future.status.isStarted) →
      ∃ c', (e.become j d').calls[i]? = some c' ∧ c'.future ≠ .pending ∧
        c'.future.status.isStarted = c.future.status.isStarted := by
    intro j d d' hj hd'
    rw [getElem?_become hj]
    split
    · next heq =>
      subst heq
      cases hi.symm.trans hj
      exact ⟨d', rfl, hd' rfl⟩
    · exact ⟨c, hi, hf, rfl⟩
  cases step_cases hstep with
  | refused | take | skip | pass | shutdown => exact ⟨c, hi, hf, rfl⟩
  | submit config =>
      exact ⟨c, by rw [List.getElem?_append_left (List.getElem?_eq_some_iff.1 hi).1, hi], hf, rfl⟩
  | advance j event d d' hj hcase =>
      refine hkeep hj fun heq => ?_
      subst heq
      cases hi.symm.trans hj
      rcases (future_of_advanceCase hcase).2 with hsame | ⟨hp, -⟩
      · rw [hsame]
        exact ⟨hf, rfl⟩
      · exact absurd hp hf
  | start j d hheld hj hp =>
      refine hkeep hj fun heq => ?_
      subst heq
      cases hi.symm.trans hj
      exact absurd hp hf
  | finish j outcome d since hj hd =>
      refine hkeep hj fun heq => ?_
      rw [hd]
      exact ⟨nofun, rfl⟩

/-- The bound on the threads stays. -/
theorem maxWorkers_of_run [TimeoutErrors Exc Cls] {maxWorkers : ℕ}
    {ok : Executor Exc V → PoolAction Exc V → Prop} {as : List (PoolAction Exc V)}
    {e : Executor Exc V} (h : (executor Exc V maxWorkers).Run ok as e) :
    e.maxWorkers = maxWorkers := by
  refine h.invariant (I := fun e => e.maxWorkers = maxWorkers) rfl ?_
  intro _ e a e' _ hi _ hstep
  cases step_cases hstep with
  | _ => exact hi

/-- A job that waits is in the queue, if no worker is about to run a work item. -/
theorem Ok.mem_queue {e : Executor Exc V} (h : e.Ok) (hheld : e.held = []) {i : ℕ} {job : Job ℚ}
    (hi : e.pool.jobs[i]? = some job) (hw : job.status.isWaiting = true) : i ∈ e.queue := by
  rw [pool, List.getElem?_map] at hi
  obtain ⟨c, hc, rfl⟩ := Option.map_eq_some_iff.1 hi
  have hmem := h.pending i c hc <| by
    cases hf : c.future with
    | pending => rfl
    | cancelled | running | finished =>
        rw [hf] at hw
        cases hw
  rw [hheld] at hmem
  exact hmem.resolve_left List.not_mem_nil

/-- A job that runs was taken from the queue. -/
theorem Ok.mem_taken {e : Executor Exc V} (h : e.Ok) {i : ℕ} {job : Job ℚ}
    (hi : e.pool.jobs[i]? = some job) (hr : job.status.isRunning = true) : i ∈ e.taken := by
  rw [pool, List.getElem?_map] at hi
  obtain ⟨c, hc, rfl⟩ := Option.map_eq_some_iff.1 hi
  refine h.started i ((h.invoked i c hc).2 ?_)
  cases hf : c.future with
  | running | finished => rfl
  | pending | cancelled =>
      rw [hf] at hr
      cases hr

/-- **An executor none of whose workers is about to run a work item is fair.** -/
theorem Ok.fair {e : Executor Exc V} (h : e.Ok) (hheld : e.held = []) : e.pool.Fair := by
  intro i j first second hij hfirst hsecond hw
  rw [Bool.eq_false_iff]
  intro hr
  have hqueue := h.mem_queue hheld hfirst (by rw [hw]; rfl)
  exact Nat.lt_asymm hij (h.lt_of_mem (h.mem_taken hsecond hr) hqueue)

/-- **An executor that is diligent is a diligent pool of workers.** -/
theorem moves_of_step [TimeoutErrors Exc Cls] {e e' : Executor Exc V} (h : e.Ok)
    {a : PoolAction Exc V} (ha : Diligent e a) (hstep : e.step a = some e') :
    Relation.ReflTransGen Pool.Moves e.pool e'.pool := by
  cases step_cases hstep with
  | refused | take | skip | shutdown => exact .refl
  | submit config =>
      rw [pool_submit]
      exact .single .submit
  | advance i event c c' hi hcase =>
      obtain ⟨hsubmitted, hfuture⟩ := future_of_advanceCase hcase
      have hjob := pool_getElem? hi
      rw [pool_become hsubmitted]
      rcases hfuture with hf | ⟨hf, hf'⟩
      · -- nothing has become of the function
        obtain ⟨hlt, hget⟩ := List.getElem?_eq_some_iff.1 hjob
        rw [hf, Pool.become, ← hget, List.set_getElem_self]
      · rw [hf']
        rw [hf] at hjob ⊢
        exact .single (.drop i _ hjob rfl)
  | start i c hheld hi hf =>
      have hjob := pool_getElem? hi
      have hpool : (e.become i { c with future := .running e.now }).pool =
          e.pool.become i ⟨c.submittedAt, c.future.status⟩ (.running e.now) := pool_become rfl
      have hfree : e.pool.busy < e.pool.workers :=
        (Nat.lt_add_of_pos_right (List.length_pos_of_mem hheld)).trans_le h.workers_le
      refine .single ?_
      change e.pool.Moves (e.become i { c with future := .running e.now }).pool
      rw [hpool]
      rw [hf] at hjob ⊢
      exact .start i _ hjob rfl hfree
  | finish i outcome c since hi hf =>
      have hjob := pool_getElem? hi
      have hpool : (e.become i { c with future := .finished since e.now outcome }).pool =
          e.pool.become i ⟨c.submittedAt, c.future.status⟩ (.done since e.now) := pool_become rfl
      rw [hpool]
      rw [hf] at hjob ⊢
      exact .single (.finish i _ since hjob rfl)
  | pass d =>
      obtain ⟨hheld, hdiligent⟩ := ha
      refine .single (.pass (d : ℚ) d.coe_nonneg ?_)
      refine hdiligent.imp (fun hempty job hjob => ?_) fun hbusy => ⟨hbusy, h.fair hheld⟩
      obtain ⟨i, hi⟩ := List.getElem?_of_mem hjob
      rw [Bool.eq_false_iff]
      intro hw
      have hmem := h.mem_queue hheld hi hw
      rw [hempty] at hmem
      cases hmem

end Executor

/-! ### The pool under its calls -/

/-- **Work items are taken in order, and functions are started once at most and not after they were
given up.**  In every interleaving of any number of calls, workers, interruptions and a shutdown: no
more functions run at once, or are about to, than there are threads; the work items that were taken
and then those in the queue are those of all calls, in the order in which they were submitted; the
functions that were started are different, and their work items were taken before; a call that
returns a value, or raises an exception of the function, has its function finished with it; and
whether the function of a call that raised an `OperationTimeout` is ever started was settled
then. -/
theorem functions_run_once [TimeoutErrors Exc Cls] (maxWorkers : ℕ)
    (as : List (PoolAction Exc V)) (e : Executor Exc V)
    (h : (executor Exc V maxWorkers).Run Machine.anything as e) :
    e.busy + e.held.length ≤ maxWorkers ∧ e.taken ++ e.queue = List.range e.calls.length ∧
    (e.invoked.Nodup ∧ ∀ i ∈ e.invoked, i ∈ e.taken) ∧
    ∀ i c, e.calls[i]? = some c →
      (∀ value, c.waiter = .ended (.returned value) →
        i ∈ e.invoked ∧ ∃ since till, c.future = .finished since till (.ok value)) ∧
      (∀ exc, c.waiter = .ended (.raised exc) →
        i ∈ e.invoked ∧ ∃ since till, c.future = .finished since till (.error exc)) ∧
      (c.waiter = .ended .timedOut → ∀ bs e',
        (executor Exc V maxWorkers).exec (fun _ _ => true) e bs = some e' →
          (i ∈ e'.invoked ↔ i ∈ e.invoked)) := by
  have hok := Executor.ok_of_reachable h.reachable
  have hmax := Executor.maxWorkers_of_run h
  refine ⟨hmax ▸ hok.workers_le, hok.order, ⟨hok.once, hok.started⟩, fun i c hi => ?_⟩
  have hcall := hok.calls c (List.mem_of_getElem? hi)
  refine ⟨fun value hw => ?_, fun exc hw => ?_, fun hw bs e' hexec => ?_⟩
  · obtain ⟨since, till, hf⟩ := hcall.returned value hw
    exact ⟨(hok.invoked i c hi).2 (by rw [hf]; rfl), since, till, hf⟩
  · obtain ⟨since, till, hf⟩ := hcall.raised exc hw
    exact ⟨(hok.invoked i c hi).2 (by rw [hf]; rfl), since, till, hf⟩
  · have hf : c.future ≠ .pending := fun hf => by
      have := hcall.timedOut hw
      rw [hf] at this
      cases this
    have hlater : e'.Ok ∧ ∃ c', e'.calls[i]? = some c' ∧ c'.future ≠ .pending ∧
        c'.future.status.isStarted = c.future.status.isStarted := by
      refine Machine.exec_invariant (M := executor Exc V maxWorkers)
        (I := fun e' => e'.Ok ∧ ∃ c', e'.calls[i]? = some c' ∧ c'.future ≠ .pending ∧
          c'.future.status.isStarted = c.future.status.isStarted) ?_ bs
        ⟨hok, c, hi, hf, rfl⟩ hexec
      rintro s a s' - ⟨hs, d, hd, hdf, hstarted⟩ hstep
      obtain ⟨d', hd', hdf', hstarted'⟩ := Executor.settled_step hstep hd hdf
      exact ⟨hs.step hstep, d', hd', hdf', hstarted'.trans hstarted⟩
    obtain ⟨hok', c', hi', -, hstarted⟩ := hlater
    rw [hok'.invoked i c' hi', hok.invoked i c hi, hstarted]

/-- The call has raised an `OperationTimeout`. -/
def Waiter.hasTimedOut : Waiter Exc V → Bool
  | .ended .timedOut => true
  | _ => false

/-- A limit of two seconds. -/
def limitOfTwoSeconds : TimeoutConfig where
  duration := 2
  accepted := rfl

/-- Two threads take a work item each.  The second one starts its function while the first one is
delayed; the first call times out meanwhile, and its function is never started. -/
theorem functions_run_once_overtaken :
    ∃ e : Executor Failure ℕ, e.taken = [0, 1] ∧ e.invoked = [1] ∧ ∀ bs e',
      (executor Failure ℕ 2).exec (fun _ _ => true) e bs = some e' → 0 ∉ e'.invoked := by
  obtain ⟨e, hr, he⟩ := Machine.exists_run_of_exec (executor Failure ℕ 2)
    (fun _ _ => true) (fun _ _ _ => trivial)
    [.submit limitOfTwoSeconds, .submit limitOfTwoSeconds, .take, .take, .run 1,
      .advance 0 .await, .pass 2, .advance 0 .expire, .advance 0 .cancel]
    (fun e => decide (e.taken = [0, 1] ∧ e.invoked = [1]) &&
      e.calls[0]?.any fun c => c.waiter.hasTimedOut) (by decide +kernel)
  obtain ⟨hlogs, hcall⟩ := Bool.and_eq_true_iff.1 he
  obtain ⟨htaken, hinvoked⟩ := of_decide_eq_true hlogs
  obtain ⟨c, hc, htimedOut⟩ := (Option.any_eq_true _ _).1 hcall
  have hw : c.waiter = .ended .timedOut := by
    cases hw : c.waiter with
    | ended ending =>
        cases ending with
        | timedOut => rfl
        | returned | raised | interrupted =>
            rw [hw] at htimedOut
            cases htimedOut
    | submitted | waiting | cancelling =>
        rw [hw] at htimedOut
        cases htimedOut
  obtain ⟨-, -, hsettled⟩ := (functions_run_once 2 _ e hr).2.2.2 0 c hc
  refine ⟨e, htaken, hinvoked, fun bs e' hexec hmem => ?_⟩
  have hbefore := (hsettled hw bs e' hexec).1 hmem
  rw [hinvoked] at hbefore
  exact absurd hbefore (by decide)

/-- **A call that times out before it was tried has waited for the functions before it.**  Let idle
threads take work items at once, and run them at once.  Then the time from the submission of a
function until it is cancelled, or until now if it is still pending, is, once for every thread of
the pool, the time for which the functions run meanwhile that were submitted before it; and a
function is not cancelled before the limit has passed.  So if the functions before it never need as
much as the limit, once for every thread, a function is not cancelled untried, and it is not pending
any more when its limit has passed. -/
theorem untried_call_waited_for_others [TimeoutErrors Exc Cls] (maxWorkers : ℕ)
    (as : List (PoolAction Exc V)) (e : Executor Exc V)
    (h : (executor Exc V maxWorkers).Run Diligent as e) (i : ℕ) (c : PoolCall Exc V)
    (hi : e.calls[i]? = some c) :
    (∀ till, c.future = .cancelled till → maxWorkers • (till - c.submittedAt) =
        ((e.calls.take i).map fun d =>
          d.future.status.ranWithin c.submittedAt till e.now).sum ∧
      c.duration ≤ till - c.submittedAt ∧ i ∉ e.invoked) ∧
    (c.future = .pending → maxWorkers • (e.now - c.submittedAt) =
      ((e.calls.take i).map fun d =>
        d.future.status.ranWithin c.submittedAt e.now e.now).sum) ∧
    ((∀ till, ((e.calls.take i).map fun d =>
          d.future.status.ranWithin c.submittedAt till e.now).sum < maxWorkers • c.duration) →
      (∀ till, c.future ≠ .cancelled till) ∧
        (c.future = .pending → e.now < c.submittedAt + c.duration)) := by
  have hok := Executor.ok_of_reachable h.reachable
  have hmax := Executor.maxWorkers_of_run h
  have hmoves : Relation.ReflTransGen Pool.Moves (⟨maxWorkers, 0, []⟩ : Pool ℚ) e.pool :=
    h.simulation (fun _ _ hr => Executor.ok_of_reachable hr.reachable)
      fun _ _ _ hs ha hstep => Executor.moves_of_step hs ha hstep
  have hpool := (Pool.Ok.empty maxWorkers (0 : ℚ)).of_moves hmoves
  have haccount : ∀ till, c.future.status.waitedTill e.now = some till →
      maxWorkers • (till - c.submittedAt) = ((e.calls.take i).map fun d =>
        d.future.status.ranWithin c.submittedAt till e.now).sum := by
    intro till htill
    have hjob := hpool.account i _ till (Executor.pool_getElem? hi) htill
    simpa only [Executor.pool, List.map_take, List.map_map, Function.comp_def, hmax] using hjob
  have hlimit : ∀ till, c.future = .cancelled till → c.duration ≤ till - c.submittedAt := by
    intro till hf
    have hlate := ((hok.calls c (List.mem_of_getElem? hi)).cancelled till hf).2
    linarith
  refine ⟨fun till hf => ⟨haccount till (by rw [hf]; rfl), hlimit till hf, fun hmem => ?_⟩,
    fun hf => haccount e.now (by rw [hf]; rfl),
    fun hless => ⟨fun till hf => ?_, fun hf => ?_⟩⟩
  · have hstarted := (hok.invoked i c hi).1 hmem
    rw [hf] at hstarted
    cases hstarted
  · have hwork := hless till
    rw [← haccount till (by rw [hf]; rfl)] at hwork
    exact absurd (nsmul_le_nsmul_right (hlimit till hf) maxWorkers) (not_le.2 hwork)
  · have hwork := hless e.now
    rw [← haccount e.now (by rw [hf]; rfl)] at hwork
    by_contra hlate
    have hle : c.duration ≤ e.now - c.submittedAt := by linarith
    exact absurd (nsmul_le_nsmul_right hle maxWorkers) (not_le.2 hwork)

/-- Two calls share one thread.  The first one gives up a function that goes on for seven
seconds, and the function of the second one is never tried: for all of its two seconds the thread
runs the other. -/
theorem untried_call_waited_for_others_one_thread :
    ∃ (e : Executor Failure ℕ) (c : PoolCall Failure ℕ), e.calls[1]? = some c ∧
      c.future = .cancelled 4 ∧ 1 ∉ e.invoked ∧ 1 • (4 - c.submittedAt) =
        ((e.calls.take 1).map fun d =>
          d.future.status.ranWithin c.submittedAt 4 e.now).sum := by
  obtain ⟨e, hr, he⟩ := Machine.exists_run_of_exec (executor Failure ℕ 1)
    (fun e a => decide (Diligent e a)) (fun _ _ ha => of_decide_eq_true ha)
    [.submit limitOfTwoSeconds, .advance 0 .await, .take, .run 0, .pass 2, .advance 0 .expire,
      .advance 0 .cancel, .submit limitOfTwoSeconds, .advance 1 .await, .pass 2,
      .advance 1 .expire, .advance 1 .cancel, .pass 3, .finish 0 (.ok 42)]
    (fun e => decide (e.calls.map (fun c => c.future.status) = [.done 0 7, .dropped 4]))
    (by decide +kernel)
  have hmap := congrArg (fun l => l[1]?) (of_decide_eq_true he)
  simp only [List.getElem?_map] at hmap
  obtain ⟨c, hc, hstatus⟩ := Option.map_eq_some_iff.1 hmap
  have hf : c.future = .cancelled 4 := by
    cases hf : c.future with
    | cancelled till =>
        rw [hf] at hstatus
        rw [Status.dropped.inj hstatus]
    | pending | running | finished =>
        rw [hf] at hstatus
        cases hstatus
  obtain ⟨hwaited, -, huntried⟩ := (untried_call_waited_for_others 1 _ e hr 1 c hc).1 4 hf
  exact ⟨e, c, hc, hf, huntried, hwaited⟩

end Timeouts
