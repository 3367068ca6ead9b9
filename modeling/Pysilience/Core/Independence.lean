/-
Listeners cannot influence the patterns they listen to.

A sequence of calls on one instance is one program: the caller gets what each call returns or
raises, and goes on.  Of each pattern, the calls with listeners and the calls without are coupled,
statement by statement, whatever the listeners return, raise or do to the world they live in.

Main definitions:

* `Independence.session` — a sequence of calls;
* `Independence.Uninfluenced` — the run with listeners and the run without.

Main results:

* `Independence.uninfluenced_of_coupled` — coupled runs are those of uninfluenced calls;
* `Independence.uninfluenced` — **listeners cannot influence** `Retry.execute`,
  `CircuitBreaker.execute` and `Bulkhead.execute`.
-/

import Pysilience.Bulkhead.Execute
import Pysilience.CircuitBreaker.Execute
import Pysilience.Retry.Attempts

set_option relaxedAutoImplicit false
set_option autoImplicit false

open Python Programs Listeners

variable {Exc Cls ω V : Type} [Exceptions Exc Cls]

/-! ### Sequences of calls -/

namespace Independence

variable {σ A E R I : Type}

/-- One call of a method for each of the inputs, and what each of them returns or raises. -/
def session (method : I → Program (Stage σ A E ω) R V) (inputs : List I) :
    Program (Stage σ A E ω) Empty (List (Except R V)) :=
  inputs.mapM fun input => attempt (method input)

/-- The run with `n` listeners, and the run without any: the results and exceptions are the same,
and so are the number of calls of the function, what else was done (the sleeps), the events, and the
fields in the end; and every listener received every event once, in the order of their emission. -/
structure Uninfluenced (n : ℕ) (run silent : Except Empty (List (Except R V)) × Stage σ A E ω) :
    Prop where
  results : run.1 = silent.1
  calls : run.2.calls = silent.2.calls
  actions : run.2.actions = silent.2.actions
  emitted : run.2.emitted = silent.2.emitted
  fields : run.2.inner = silent.2.inner
  received : ∀ i < n, run.2.received i = run.2.emitted

/-- Calls whose listeners are not noticed are uninfluenced. -/
theorem uninfluenced_of_coupled {listeners : List (Listener E ω Exc)}
    {method method' : I → Program (Stage σ A E ω) R V}
    (h : ∀ input, Coupled (Unnoticed listeners) (method input) (method' input)) (inputs : List I)
    (fields : σ) (outside outside' : ω) :
    Uninfluenced listeners.length (exec (session method inputs) (Stage.start fields outside))
      (exec (session method' inputs) (Stage.start fields outside')) := by
  have hsession : Coupled (Unnoticed listeners) (session method inputs) (session method' inputs) :=
    Coupled.mapM (fun input => (h input).attempt) inputs
  obtain ⟨hresults, hstages⟩ := hsession _ _ (Unnoticed.start listeners fields outside outside')
  exact ⟨hresults, congrArg (List.countP Entry.isInvoked) hstages.trace,
    congrArg (List.filterMap Entry.action?) hstages.trace,
    congrArg (List.filterMap Entry.event?) hstages.trace, hstages.inner, hstages.received⟩

open Bulkheads CircuitBreaker Retries in
/-- **Listeners cannot influence the calls**: for every configuration, all outcomes of the
function and all listeners, a sequence of calls of `Retry.execute`, of `CircuitBreaker.execute` or
of `Bulkhead.execute` comes to what it comes to without listeners, and every listener receives every
event once and in order. -/
theorem uninfluenced (outcomes : ℕ → Except Exc V) (outside : ω) :
    (∀ (retry : Retry Exc Cls ω) (draws : List (ℕ → ℚ)),
      Uninfluenced retry.listeners.length
        (exec (session (fun d => retry.execute outcomes d) draws) (Stage.start () outside))
        (exec (session (fun d => retry.silent.execute outcomes d) draws)
          (Stage.start () outside))) ∧
    (∀ (cfg : CircuitBreakerConfig Cls) (cb : Breaker cfg)
      (listeners : List (Listener (CircuitBreakerEvent Exc) ω Exc)) (readings : List (ℚ × ℚ)),
      Uninfluenced listeners.length
        (exec (session (fun r => CircuitBreaker.execute listeners outcomes r.1 r.2) readings)
          (Stage.start cb outside))
        (exec (session (fun r => CircuitBreaker.execute [] outcomes r.1 r.2) readings)
          (Stage.start cb outside))) ∧
    ∀ (cfg : BulkheadConfig) (b : Bulkhead cfg) (sem : Semaphore)
      (listeners : List (Listener (BulkheadEvent Exc) ω Exc)) (released : List ℕ),
      Uninfluenced listeners.length
        (exec (session (fun r => b.execute listeners outcomes r) released)
          (Stage.start sem outside))
        (exec (session (fun r => b.execute [] outcomes r) released) (Stage.start sem outside)) := by
  refine ⟨fun retry draws => ?_, fun cfg cb listeners readings => ?_,
    fun cfg b sem listeners released => ?_⟩
  · have hcoupled : ∀ d, Coupled (Unnoticed retry.listeners) (retry.execute outcomes d)
        (retry.silent.execute outcomes d) := fun d => retry.coupled_execute outcomes d
    exact uninfluenced_of_coupled hcoupled draws () outside outside
  · have hcoupled : ∀ r : ℚ × ℚ, Coupled (Unnoticed listeners)
        (CircuitBreaker.execute listeners outcomes r.1 r.2 :
          Program (BreakerStage cfg Exc ω) (CircuitBreaker.Raised Exc) V)
        (CircuitBreaker.execute [] outcomes r.1 r.2) :=
      fun r => CircuitBreaker.coupled_execute listeners outcomes r.1 r.2
    exact uninfluenced_of_coupled hcoupled readings cb outside outside
  · have hcoupled : ∀ r : ℕ, Coupled (Unnoticed listeners) (b.execute listeners outcomes r)
        (b.execute [] outcomes r) := fun r => b.coupled_execute listeners outcomes r
    exact uninfluenced_of_coupled hcoupled released sem outside outside

open CircuitBreaker Retries in
/-- Two listeners that raise an exception at every event: both receive every event. -/
example :
    let retry : Retry Builtin Builtin (List (RetryEvent Builtin)) :=
      ((Retry.init Retry.doubling none).onEvent (Listener.journal _)).onEvent (Listener.journal _)
    let stage := (exec (session (fun d => retry.execute
      (fun k => if k = 1 then .error .valueError else .ok k) d) [fun _ => 1, fun _ => 1])
      (Stage.start () [])).2
    stage.emitted.map (·.eventType) = [.attemptFailure, .success, .success] ∧
      stage.received 0 = stage.emitted ∧ stage.received 1 = stage.emitted ∧
      stage.outside = stage.emitted.flatMap fun event => [event, event] := by
  decide +kernel

open CircuitBreaker in
/-- A listener of a breaker that a failure opens, and that rejects the next call. -/
example :
    let stage := (exec (session (fun r => CircuitBreaker.execute [Listener.journal _]
      (fun _ => (.error .keyError : Except Builtin ℕ)) r.1 r.2) [(0, 1 / 2), (1, 1)])
      (Stage.start (Breaker.init tinyConfig) [])).2
    stage.emitted.map (·.eventType) = [.error, .stateTransition, .rejected] ∧
      (stage.received 0).map (·.eventType) = [.error, .stateTransition, .rejected] := by
  decide +kernel

end Independence
