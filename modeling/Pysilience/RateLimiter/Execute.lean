/-
`RateLimiter.execute`, with the events it emits.

The method acquires a permit, calls the function and reports what became of it.  Here it is a
program on a stage whose field is the strategy; what `acquire` comes to, and what it and other
callers make of the strategy meanwhile, is an argument of the call.

Main definitions:

* `RateLimiter.execute` — the method.

Main results:

* `RateLimiter.exec_execute_rejected`, `RateLimiter.exec_execute_admitted` — what a call does;
* `RateLimiter.coupled_execute` — listeners are not noticed.
-/

import Pysilience.Core.Listeners
import Pysilience.RateLimiter.Callers

set_option relaxedAutoImplicit false
set_option autoImplicit false

namespace RateLimiter

open Python Programs Listeners

variable {S Exc Cls ω V : Type} [Exceptions Exc Cls]

instance : Raises Exc (Raised Exc) := ⟨.other⟩

/-- What `execute` runs on; besides calling the function and emitting events it does nothing. -/
abbrev LimiterStage (S Exc ω : Type) := Stage S Empty (RateLimiterEvent Exc) ω

/-- What a call of `acquire` comes to, and the strategy as it is then. -/
abbrev Acquisition (S : Type) := S → Except RateLimitExceeded Grant × S

variable (σ : RateLimitStrategy S) (name : String)
  (listeners : List (Listener (RateLimiterEvent Exc) ω Exc))

/-- The event of a call whose function has ended, with the `available_permits` of that instant. -/
def report (grant : Grant) (now : ℚ) (outcome : Except Exc V) :
    Program (LimiterStage S Exc ω) (Raised Exc) Unit := do
  let permits ← update fun strategy => σ.permits strategy now
  emitEvent listeners (executedEvent name permits grant outcome)

/-- `execute`, where `acquire` is what becomes of the call of `acquire`, and the permits are read at
`now` for the event. -/
def execute (outcomes : ℕ → Except Exc V) (acquire : Acquisition S) (now : ℚ) :
    Program (LimiterStage S Exc ω) (Raised Exc) V := do
  match ← update acquire with
  | .error err =>
      emitEvent listeners (rejectedEvent name err)
      throw (.rateLimitExceeded err)
  | .ok grant =>
      tryExcept (invoke outcomes) caught
        (fun exc => do
          report σ name listeners grant now (.error exc : Except Exc V)
          throw (.other exc))
        (fun result => do
          report σ name listeners grant now (.ok result : Except Exc V)
          return result)

/-! ### What a call does -/

theorem exec_report (grant : Grant) (now : ℚ) (outcome : Except Exc V) (s : LimiterStage S Exc ω) :
    ∃ s', exec (report σ name listeners grant now outcome) s = (.ok (), s') ∧
      s'.calls = s.calls := by
  refine ⟨_, exec_bind_ok (exec_update _ s) _ |>.trans (exec_emitEvent _ _ _), ?_⟩
  exact Stage.notified_calls _ _ _

variable {acquire : Acquisition S} {s : LimiterStage S Exc ω}

/-- **A call that gets no permit** calls nothing, and raises what `acquire` raises. -/
theorem exec_execute_rejected {err : RateLimitExceeded} {strategy : S}
    (h : acquire s.inner = (.error err, strategy)) (outcomes : ℕ → Except Exc V) (now : ℚ) :
    ∃ s', exec (execute σ name listeners outcomes acquire now) s =
        (.error (.rateLimitExceeded err), s') ∧ s'.calls = s.calls := by
  refine ⟨{ s with inner := strategy }.notified listeners (rejectedEvent name err), ?_,
    Stage.notified_calls _ _ _⟩
  rw [execute, exec_bind_ok (exec_update acquire s), h]
  exact (exec_bind_ok (exec_emitEvent _ _ _) _).trans (exec_throw _ _)

/-- **A call that gets a permit** calls the function once, and comes to what the function comes
to. -/
theorem exec_execute_admitted {grant : Grant} {strategy : S}
    (h : acquire s.inner = (.ok grant, strategy)) (outcomes : ℕ → Except Exc V) (now : ℚ) :
    ∃ s', exec (execute σ name listeners outcomes acquire now) s =
        (match outcomes (s.calls + 1) with
          | .ok value => .ok value
          | .error exc => .error (.other exc), s') ∧ s'.calls = s.calls + 1 := by
  have hacquired : exec (execute σ name listeners outcomes acquire now) s =
      exec (tryExcept (invoke outcomes) caught
        (fun exc => do
          report σ name listeners grant now (.error exc : Except Exc V)
          throw (.other exc))
        (fun result => do
          report σ name listeners grant now (.ok result : Except Exc V)
          return result)) { s with inner := strategy } := by
    rw [execute, exec_bind_ok (exec_update acquire s), h]
  have hcall : exec (invoke outcomes) { s with inner := strategy } =
      (outcomes (s.calls + 1), { s with inner := strategy }.note .invoked) :=
    exec_invoke outcomes _
  have hcalls : ({ s with inner := strategy }.note .invoked : LimiterStage S Exc ω).calls =
      s.calls + 1 := Stage.note_invoked_calls _
  rw [hacquired]
  cases hout : outcomes (s.calls + 1) with
  | ok value =>
      rw [hout] at hcall
      obtain ⟨s', hrun, hs'⟩ :=
        exec_report σ name listeners grant now (.ok value : Except Exc V)
          ({ s with inner := strategy }.note .invoked)
      exact ⟨s', by rw [exec_tryExcept_ok hcall, exec_bind_ok hrun, exec_pure], hs'.trans hcalls⟩
  | error exc =>
      rw [hout] at hcall
      cases hc : caught exc with
      | true =>
          obtain ⟨s', hrun, hs'⟩ :=
            exec_report σ name listeners grant now (.error exc : Except Exc V)
              ({ s with inner := strategy }.note .invoked)
          exact ⟨s', by rw [exec_tryExcept_caught hcall hc, exec_bind_ok hrun, exec_throw],
            hs'.trans hcalls⟩
      | false => exact ⟨_, exec_tryExcept_passed hcall hc _ _, hcalls⟩

/-! ### Runs with listeners and without -/

/-- **Listeners are not noticed** by `execute`. -/
theorem coupled_execute (outcomes : ℕ → Except Exc V) (acquire : Acquisition S) (now : ℚ) :
    Coupled (Unnoticed listeners)
      (execute σ name listeners outcomes acquire now :
        Program (LimiterStage S Exc ω) (Raised Exc) V)
      (execute σ name [] outcomes acquire now) := by
  have hreport : ∀ grant (outcome : Except Exc V), Coupled (Unnoticed listeners)
      (report σ name listeners grant now outcome :
        Program (LimiterStage S Exc ω) (Raised Exc) Unit)
      (report σ name [] grant now outcome) := by
    intro grant outcome
    exact (coupled_update listeners _).bind fun permits => coupled_emitEvent listeners _
  refine (coupled_update listeners acquire).bind fun result => ?_
  cases result with
  | error err => exact (coupled_emitEvent listeners _).bind fun _ => Coupled.throw _
  | ok grant =>
      refine (coupled_invoke listeners outcomes).tryExcept (fun exc => ?_) fun value => ?_
      · exact (hreport grant (.error exc)).bind fun _ => Coupled.throw _
      · exact (hreport grant (.ok value)).bind fun _ => Coupled.pure value

end RateLimiter
