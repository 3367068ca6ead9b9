/-
Patterns around patterns.

Patterns are stacked: the function that one of them calls is another pattern around another
function, and so on down to a function of the application.  In a stack the exceptions of the inner
patterns are failures for the outer ones: a retry repeats calls that a bulkhead has rejected, and a
fallback recovers from the exhaustion of a retry.

The calls of one call of a stack that reach the function are at most the product of the maximal
numbers of attempts in the stack.  All of them but the last have failed, so that a value of the
function is never thrown away and never computed again; and what the stack returns or raises can be
traced back to what these calls came to, to a rejection, or to the action of a fallback.

A layer may be used by others between two calls, so what they do to it is an argument of each call,
as are the readings of the clock and what `random.uniform` returns.

Main definitions:

* `Composition.LibraryErrors` — the exceptions of the library among all exceptions;
* `Composition.Layer`, `Composition.Layer.call` — the patterns of a stack, and their methods;
* `Composition.Decorator`, `Composition.decorate` — stacks, the outermost pattern first;
* `Composition.Stems` — where a result comes from.

Main results:

* `Composition.Layer.ends` — how a layer uses the function it is around;
* `Composition.stacks_are_economical` — **the calls of a stack**.
-/

import Pysilience.Bulkhead.Execute
import Pysilience.CircuitBreaker.Execute
import Pysilience.Fallback.Fallback
import Pysilience.Lib.Services
import Pysilience.RateLimiter.Execute
import Pysilience.Retry.Retry

set_option relaxedAutoImplicit false
set_option autoImplicit false

/-! ### The calls of a retry -/

namespace Retries.Retry

open Python Programs Listeners

variable {Exc Cls ω V : Type} [Exceptions Exc Cls]

/-- How a call of a retry ends that made its last attempt with this outcome. -/
inductive EndsWith (self : Retry Exc Cls ω) : Except Exc V → Except (Raised Exc) V → Prop
  | value (value : V) : EndsWith self (.ok value) (.ok value)
  | original (exc : Exc) : EndsWith self (.error exc) (.error (.original exc))
  | exhausted {exc : Exc} : caught exc = true → EndsWith self (.error exc)
      (.error (.retriesExhausted
        ⟨"Maximum retry attempts reached", self.name, self.config.maxAttempts, exc⟩))
  | overflow {exc : Exc} : caught exc = true → EndsWith self (.error exc) (.error .overflowError)

/-- **The attempts of the loop**, from any of them on: all but the last have failed. -/
theorem loop_attempts (self : Retry Exc Cls ω) (outcomes : ℕ → Except Exc V) (sleeper : Sleeper)
    (draws : ℕ → ℚ) (left : ℕ) : ∀ (attempt : ℕ) (s : RetryStage Exc ω), 1 ≤ left →
      (attempt + left : ℤ) = self.config.maxAttempts + 1 → ∃ n, 1 ≤ n ∧ n ≤ left ∧
        (exec (self.loop (invoke outcomes) sleeper draws left attempt) s).2.calls = s.calls + n ∧
        (∀ k, 1 ≤ k → k < n → ∃ exc, outcomes (s.calls + k) = .error exc ∧ caught exc = true) ∧
        self.EndsWith (outcomes (s.calls + n))
          (exec (self.loop (invoke outcomes) sleeper draws left attempt) s).1 := by
  induction left with
  | zero => exact fun _ _ h => absurd h (by omega)
  | succ left ih =>
      intro attempt s _ hattempt
      -- an attempt after which the loop does not go on
      have hends : ∀ {result s'},
          exec (self.loop (invoke outcomes) sleeper draws (left + 1) attempt) s = (result, s') →
          s'.calls = s.calls + 1 → self.EndsWith (outcomes (s.calls + 1)) result →
          ∃ n, 1 ≤ n ∧ n ≤ left + 1 ∧
            (exec (self.loop (invoke outcomes) sleeper draws (left + 1) attempt) s).2.calls =
              s.calls + n ∧
            (∀ k, 1 ≤ k → k < n →
              ∃ exc, outcomes (s.calls + k) = .error exc ∧ caught exc = true) ∧
            self.EndsWith (outcomes (s.calls + n))
              (exec (self.loop (invoke outcomes) sleeper draws (left + 1) attempt) s).1 := by
        intro result s' hloop hcalls hend
        rw [hloop]
        exact ⟨1, le_rfl, by omega, hcalls, by omega, hend⟩
      have hcalls : ∀ event, ((s.note .invoked).notified self.listeners event).calls =
          s.calls + 1 := by
        intro event
        rw [Stage.notified_calls, Stage.note_invoked_calls]
      have hturn := self.turn_cases outcomes sleeper (draws attempt) attempt s
      generalize hrun : exec (self.turn (invoke outcomes) sleeper (draws attempt) attempt) s = run
        at hturn
      cases hturn with
      | value h =>
          exact hends (exec_loop_returns hrun) (hcalls _) (by rw [h]; exact .value _)
      | passed h hc =>
          exact hends (exec_loop_raises hrun) (Stage.note_invoked_calls s)
            (by rw [h]; exact .original _)
      | nonRetryable h hc hr =>
          exact hends (exec_loop_raises hrun) (hcalls _) (by rw [h]; exact .original _)
      | exhausted h hc hr hlast =>
          have hmax : (attempt : ℤ) = self.config.maxAttempts := by omega
          exact hends (exec_loop_raises hrun) (hcalls _)
            (by rw [h, hmax]; exact .exhausted hc)
      | overflow h hc hr hlast hw =>
          exact hends (exec_loop_raises hrun) (Stage.note_invoked_calls s)
            (by rw [h]; exact .overflow hc)
      | @retried exc wait h hc hr hlast hw =>
          -- the other attempts begin with the stage that this one has left
          have hstage : (self.retried sleeper attempt exc wait s).calls = s.calls + 1 := by
            rw [retried, Stage.note_did_calls, hcalls]
          obtain ⟨n, hn, hle, hcount, hfailed, hend⟩ :=
            ih (attempt + 1) (self.retried sleeper attempt exc wait s) (by omega) (by omega)
          rw [hstage] at hcount hfailed hend
          rw [exec_loop_goesOn hrun]
          refine ⟨n + 1, by omega, by omega, by omega, ?_, ?_⟩
          · intro k hk hkn
            rcases Nat.eq_or_lt_of_le hk with rfl | hk
            · exact ⟨exc, h, hc⟩
            · obtain ⟨exc', hexc', hc'⟩ := hfailed (k - 1) (by omega) (by omega)
              rw [show s.calls + 1 + (k - 1) = s.calls + k by omega] at hexc'
              exact ⟨exc', hexc', hc'⟩
          · rwa [show s.calls + (n + 1) = s.calls + 1 + n by omega]

end Retries.Retry

namespace Composition

open Python Programs Listeners Services

variable {Exc Cls ω V σ : Type} [Exceptions Exc Cls]

/-! ### The exceptions of the library -/

/-- The exceptions of the library are exceptions like others. -/
class LibraryErrors (Exc : Type) where
  retriesExhausted : Retries.RetriesExhausted Exc → Exc
  overflowError : Exc
  runtimeError : String → Exc
  circuitBreakerOpen : CircuitBreaker.CircuitBreakerOpen → Exc
  bulkheadRejected : Bulkheads.BulkheadRejected → Exc
  rateLimitExceeded : RateLimiter.RateLimitExceeded → Exc

section Errors

variable [LibraryErrors Exc]

/-- What a retry raises. -/
def ofRetry : Retries.Raised Exc → Exc
  | .original exc => exc
  | .retriesExhausted error => LibraryErrors.retriesExhausted error
  | .overflowError => LibraryErrors.overflowError
  | .runtimeError message => LibraryErrors.runtimeError message

/-- What a circuit breaker raises. -/
def ofCircuitBreaker : CircuitBreaker.Raised Exc → Exc
  | .original exc => exc
  | .circuitBreakerOpen error => LibraryErrors.circuitBreakerOpen error

/-- What a bulkhead raises. -/
def ofBulkhead : Bulkheads.Raised Exc → Exc
  | .original exc => exc
  | .bulkheadRejected error => LibraryErrors.bulkheadRejected error

/-- What a rate limiter raises. -/
def ofRateLimiter : RateLimiter.Raised Exc → Exc
  | .other exc => exc
  | .rateLimitExceeded err => LibraryErrors.rateLimitExceeded err

end Errors

/-! ### Layers -/

/-- A pattern that can be put around a function.  The action of a fallback is a plain function. -/
inductive Layer (Exc Cls ω V : Type) [Exceptions Exc Cls]
  | retry (self : Retries.Retry Exc Cls ω)
  | circuitBreaker (cfg : CircuitBreaker.CircuitBreakerConfig Cls)
      (listeners : List (Listener (CircuitBreaker.CircuitBreakerEvent Exc) ω Exc))
  | bulkhead (cfg : Bulkheads.BulkheadConfig) (self : Bulkheads.Bulkhead cfg)
      (listeners : List (Listener (Bulkheads.BulkheadEvent Exc) ω Exc))
  | rateLimiter (config : RateLimiter.RateLimiterConfig) (name : String)
      (listeners : List (Listener (RateLimiter.RateLimiterEvent Exc) ω Exc))
  | fallback (action : Exc → Except Exc V) (config : Fallbacks.FallbackConfig Cls) (name : String)
      (listeners : List (Listener (Fallbacks.FallbackEvent Exc) ω Exc))

namespace Layer

/-- The fields of the pattern that change. -/
def Fields : Layer Exc Cls ω V → Type
  | retry _ | fallback .. => Unit
  | circuitBreaker cfg _ => CircuitBreaker.Breaker cfg
  | bulkhead .. => Bulkheads.Semaphore
  | rateLimiter config .. => config.State

end Layer

/-- What a call of a layer depends on besides the function: what others have done to the pattern
since the last call; and, as the pattern asks for it, what `random.uniform` returns, the readings of
the clock, the permits that others release while the call waits, and what `acquire` comes to. -/
structure Moment (layer : Layer Exc Cls ω V) where
  others : layer.Fields → layer.Fields
  draws : ℕ → ℚ
  startedAt : ℚ
  endedAt : ℚ
  released : ℕ
  acquire : RateLimiter.Acquisition layer.Fields

/-- How a method ends that leaves this stage. -/
def ended {S A E : Type} (result : Except Exc V) (s : Stage S A E ω) : Ended (S × ω) Exc V :=
  ⟨result, (s.inner, s.outside), s.calls⟩

namespace Layer

/-- The fallback instance of a layer. -/
def instanceOf (action : Exc → Except Exc V) (config : Fallbacks.FallbackConfig Cls) (name : String)
    (listeners : List (Listener (Fallbacks.FallbackEvent Exc) ω Exc)) :
    Fallbacks.Fallback Exc Cls ω V :=
  ⟨fun exc => (action exc).map .value, config, name, listeners⟩

variable [LibraryErrors Exc]

/-- The method `execute` of the pattern, with the function given by what its calls come to. -/
def call : (layer : Layer Exc Cls ω V) → Moment layer → (ℕ → Except Exc V) → layer.Fields × ω →
    Ended (layer.Fields × ω) Exc V
  | retry self, m, outcomes, s =>
      let run := exec (self.execute outcomes m.draws) (Stage.start () s.2)
      ended (run.1.mapError ofRetry) run.2
  | circuitBreaker _ listeners, m, outcomes, s =>
      let run := exec (CircuitBreaker.execute listeners outcomes m.startedAt m.endedAt)
        (Stage.start s.1 s.2)
      ended (run.1.mapError ofCircuitBreaker) run.2
  | bulkhead _ self listeners, m, outcomes, s =>
      let run := exec (self.execute listeners outcomes m.released) (Stage.start s.1 s.2)
      ended (run.1.mapError ofBulkhead) run.2
  | rateLimiter config name listeners, m, outcomes, s =>
      let run := exec
        (RateLimiter.execute config.strategy name listeners outcomes m.acquire m.endedAt)
        (Stage.start s.1 s.2)
      ended (run.1.mapError ofRateLimiter) run.2
  | fallback action config name listeners, _, outcomes, s =>
      let run := exec ((instanceOf action config name listeners).execute (outcomes 1))
        (Stage.start () s.2)
      ended (Fallbacks.finalOutcome run.1) run.2

end Layer

/-! ### Stacks -/

/-- A pattern in a stack, and the moments of its calls. -/
structure Decorator (Exc Cls ω V : Type) [Exceptions Exc Cls] where
  layer : Layer Exc Cls ω V
  moments : ℕ → Moment layer

/-- The fields of a pattern, the world of its listeners, and how often the pattern was called. -/
structure Held (Fields ω : Type) where
  fields : Fields
  world : ω
  used : ℕ

/-- A pattern as a client of the function that it is around. -/
def Decorator.client [LibraryErrors Exc] (d : Decorator Exc Cls ω V) :
    Client (Held d.layer.Fields ω) Exc V where
  run outcomes held :=
    let moment := d.moments held.used
    let ended := d.layer.call moment outcomes (moment.others held.fields, held.world)
    ⟨ended.result, ⟨ended.state.1, ended.state.2, held.used + 1⟩, ended.calls⟩

/-- The state of a stack around a function with states `σ`. -/
def State (σ : Type) : List (Decorator Exc Cls ω V) → Type
  | [] => σ
  | d :: ds => Held d.layer.Fields ω × State σ ds

/-- A stack of patterns around a function, the outermost pattern first. -/
def decorate [LibraryErrors Exc] :
    (ds : List (Decorator Exc Cls ω V)) → Program σ Exc V → Program (State σ ds) Exc V
  | [], f => f
  | d :: ds, f => d.client.over (decorate ds f)

/-- The state of the function inside a stack. -/
def core : (ds : List (Decorator Exc Cls ω V)) → State σ ds → σ
  | [], s => s
  | _ :: ds, s => core ds s.2

/-- The state of a stack without the record of the function. -/
def forget {L : Type} : (ds : List (Decorator Exc Cls ω V)) → State (σ × L) ds → State σ ds
  | [], s => s.1
  | _ :: ds, s => (s.1, forget ds s.2)

/-! ### What a layer does with a function -/

namespace Layer

/-- How often a layer calls the function at most. -/
def attempts : Layer Exc Cls ω V → ℕ
  | retry self => self.config.maxAttempts.toNat
  | _ => 1

/-- The action of a fallback is called for the exception. -/
def recovers : Layer Exc Cls ω V → Exc → Bool
  | fallback action config name listeners, exc =>
      (instanceOf action config name listeners).shouldFallback exc
  | _, _ => false

variable [LibraryErrors Exc]

/-- The exceptions a layer raises without a call of the function. -/
def Rejects : Layer Exc Cls ω V → Exc → Prop
  | circuitBreaker .., exc => ∃ error, exc = LibraryErrors.circuitBreakerOpen error
  | bulkhead _ self _, exc => exc = LibraryErrors.bulkheadRejected self.reject
  | rateLimiter .., exc => ∃ err, exc = LibraryErrors.rateLimitExceeded err
  | _, _ => False

/-- What a layer makes of an exception of the function, other than to raise it again: a retry raises
an exception that has it as its cause, or one of `float`s, and a fallback calls its action. -/
def Turns : Layer Exc Cls ω V → Exc → Except Exc V → Prop
  | retry self, exc, result => caught exc = true ∧
      (result = .error (LibraryErrors.retriesExhausted
          ⟨"Maximum retry attempts reached", self.name, self.config.maxAttempts, exc⟩) ∨
        result = .error LibraryErrors.overflowError)
  | fallback action config name listeners, exc, result =>
      recovers (fallback action config name listeners) exc = true ∧ result = action exc
  | _, _, _ => False

/-- How a call of a layer ends: it has made some calls of the function, of which all but the last
have failed; and its result is that of the last call, or what it makes of it. -/
structure Ends (layer : Layer Exc Cls ω V) (outcomes : ℕ → Except Exc V) (calls : ℕ)
    (result : Except Exc V) : Prop where
  le : calls ≤ layer.attempts
  failed : ∀ k, 1 ≤ k → k < calls → ∃ exc, outcomes k = .error exc ∧ caught exc = true
  result : (calls = 0 ∧ ∃ exc, layer.Rejects exc ∧ result = .error exc) ∨
    1 ≤ calls ∧ (result = outcomes calls ∨
      ∃ exc, outcomes calls = .error exc ∧ layer.Turns exc result)

/-- A layer that calls the function once and hands on what it comes to. -/
theorem Ends.once {layer : Layer Exc Cls ω V} {outcomes : ℕ → Except Exc V} {calls : ℕ}
    {result : Except Exc V} (hattempts : 1 ≤ layer.attempts) (hcalls : calls = 1)
    (hresult : result = outcomes 1 ∨ ∃ exc, outcomes 1 = .error exc ∧ layer.Turns exc result) :
    layer.Ends outcomes calls result := by
  subst hcalls
  exact ⟨hattempts, fun k h h' => absurd h (by omega), .inr ⟨le_rfl, hresult⟩⟩

/-- A layer that does not call the function. -/
theorem Ends.never {layer : Layer Exc Cls ω V} {outcomes : ℕ → Except Exc V} {calls : ℕ}
    {result : Except Exc V} (exc : Exc) (hcalls : calls = 0) (hrejects : layer.Rejects exc)
    (hresult : result = .error exc) : layer.Ends outcomes calls result := by
  subst hcalls
  exact ⟨Nat.zero_le _, fun k _ h => absurd h (by omega), .inl ⟨rfl, exc, hrejects, hresult⟩⟩

omit [Exceptions Exc Cls] [LibraryErrors Exc] in
/-- An exception of the function comes out of a pattern as it went in. -/
theorem mapError_handedOn {R : Type} (raised : R → Exc) (original : Exc → R)
    (h : ∀ exc, raised (original exc) = exc) (outcome : Except Exc V) :
    Except.mapError raised (match outcome with
      | .ok value => .ok value
      | .error exc => .error (original exc)) = outcome := by
  cases outcome with
  | ok value => rfl
  | error exc => exact congrArg Except.error (h exc)

/-- **How a layer uses the function that it is around.** -/
theorem ends (layer : Layer Exc Cls ω V) (m : Moment layer) (outcomes : ℕ → Except Exc V)
    (s : layer.Fields × ω) :
    layer.Ends outcomes (layer.call m outcomes s).calls (layer.call m outcomes s).result := by
  cases layer with
  | retry self =>
      have hbounds := self.config.bounds.1
      obtain ⟨n, hn, hle, hcalls, hfailed, hend⟩ := self.loop_attempts outcomes .time m.draws
        self.config.maxAttempts.toNat 1 (Stage.start () s.2) (by omega) (by omega)
      have hstart : (Stage.start () s.2 : Retries.RetryStage Exc ω).calls = 0 := rfl
      simp only [hstart, Nat.zero_add] at hcalls hfailed hend
      have hcount : ((retry self : Layer Exc Cls ω V).call m outcomes s).calls = n := hcalls
      have hresult : ((retry self : Layer Exc Cls ω V).call m outcomes s).result =
          (exec (self.loop (invoke outcomes) .time m.draws self.config.maxAttempts.toNat 1)
            (Stage.start () s.2)).1.mapError ofRetry := rfl
      rw [hcount, hresult]
      refine ⟨hle, hfailed, .inr ⟨hn, ?_⟩⟩
      generalize (exec (self.loop (invoke outcomes) .time m.draws self.config.maxAttempts.toNat 1)
        (Stage.start () s.2)).1 = result at hend
      generalize outcomes n = outcome at hend
      cases hend with
      | value value => exact .inl rfl
      | original exc => exact .inl rfl
      | exhausted hc => exact .inr ⟨_, rfl, hc, .inl rfl⟩
      | overflow hc => exact .inr ⟨_, rfl, hc, .inr rfl⟩
  | circuitBreaker cfg listeners =>
      rcases hacquire : CircuitBreaker.Breaker.acquirePermission s.1 m.startedAt with
        ⟨error | ⟨calledIn, transitions⟩, cb⟩
      · obtain ⟨s', hrun, hemitted⟩ := CircuitBreaker.exec_execute_rejected
          (s := Stage.start s.1 s.2) listeners hacquire outcomes m.endedAt
        refine .never (LibraryErrors.circuitBreakerOpen error) ?_ ⟨error, rfl⟩ ?_
        · simp only [call, hrun]
          exact hemitted.calls
        · simp only [call, hrun]
          rfl
      · obtain ⟨s', s'', hemitted, hrun, hemitted'⟩ := CircuitBreaker.exec_execute_admitted
          (s := Stage.start s.1 s.2) listeners hacquire outcomes m.endedAt
        have hcalls : s''.calls = 1 := by
          rw [hemitted'.calls]
          exact (Stage.note_invoked_calls s').trans (congrArg (· + 1) hemitted.calls)
        refine .once le_rfl ?_ (.inl ?_)
        · simp only [call, hrun]
          exact hcalls
        · simp only [call, hrun]
          exact mapError_handedOn ofCircuitBreaker .original (fun _ => rfl) (outcomes 1)
  | bulkhead cfg self listeners =>
      rcases lt_or_ge 0 (Bulkheads.Bulkhead.available cfg m.released s.1).value with h | h
      · obtain ⟨s', hrun, -, hcalls, -⟩ := self.exec_execute_admitted
          (s := Stage.start s.1 s.2) listeners h outcomes
        refine .once le_rfl ?_ (.inl ?_)
        · simp only [call, hrun]
          exact hcalls
        · simp only [call, hrun]
          exact mapError_handedOn ofBulkhead .original (fun _ => rfl) (outcomes 1)
      · have hrun := self.exec_execute_rejected (s := Stage.start s.1 s.2) listeners h outcomes
        refine .never (LibraryErrors.bulkheadRejected self.reject) ?_ rfl ?_
        · simp only [call, hrun]
          exact Stage.notified_calls _ _ _
        · simp only [call, hrun]
          rfl
  | rateLimiter config name listeners =>
      rcases hacquire : m.acquire s.1 with ⟨err | grant, strategy⟩
      · obtain ⟨s', hrun, hcalls⟩ := RateLimiter.exec_execute_rejected (s := Stage.start s.1 s.2)
          config.strategy name listeners hacquire outcomes m.endedAt
        refine .never (LibraryErrors.rateLimitExceeded err) ?_ ⟨err, rfl⟩ ?_
        · simp only [call, hrun]
          exact hcalls
        · simp only [call, hrun]
          rfl
      · obtain ⟨s', hrun, hcalls⟩ := RateLimiter.exec_execute_admitted (s := Stage.start s.1 s.2)
          config.strategy name listeners hacquire outcomes m.endedAt
        refine .once le_rfl ?_ (.inl ?_)
        · simp only [call, hrun]
          exact hcalls
        · simp only [call, hrun]
          exact mapError_handedOn ofRateLimiter .other (fun _ => rfl) (outcomes 1)
  | fallback action config name listeners =>
      -- whatever the function comes to, it was called once
      have hrun : ∀ {result s'}, exec ((instanceOf action config name listeners).guarded
            (invoke fun _ => (outcomes 1).map .value)) (Stage.start () s.2) = (result, s') →
          s'.calls = 1 →
          (Fallbacks.finalOutcome result = outcomes 1 ∨ ∃ exc, outcomes 1 = .error exc ∧
            (fallback action config name listeners).Turns exc (Fallbacks.finalOutcome result)) →
          (fallback action config name listeners).Ends outcomes
            ((fallback action config name listeners).call m outcomes s).calls
            ((fallback action config name listeners).call m outcomes s).result := by
        intro result s' hexec hcalls hresult
        have hcall : (fallback action config name listeners).call m outcomes s =
            ended (Fallbacks.finalOutcome result) s' := by
          rw [call, Fallbacks.Fallback.execute, hexec]
          rfl
        rw [hcall]
        exact .once le_rfl hcalls hresult
      cases hout : outcomes 1 with
      | ok value => exact hrun (Fallbacks.Fallback.exec_guarded_value hout) rfl (.inl hout.symm)
      | error exc =>
          cases hs : (instanceOf action config name listeners).shouldFallback exc with
          | false =>
              exact hrun (Fallbacks.Fallback.exec_guarded_bypassed hout hs) rfl (.inl hout.symm)
          | true =>
              have haction : (instanceOf action config name listeners).action exc =
                  (action exc).map .value := rfl
              cases ha : action exc with
              | ok value =>
                  rw [ha] at haction
                  exact hrun (Fallbacks.Fallback.exec_guarded_recovered hout hs haction) rfl
                    (.inr ⟨exc, hout, hs, ha.symm⟩)
              | error fbExc =>
                  rw [ha] at haction
                  cases hc : caught fbExc with
                  | true =>
                      exact hrun (Fallbacks.Fallback.exec_guarded_failed hout hs haction hc) rfl
                        (.inr ⟨exc, hout, hs, ha.symm⟩)
                  | false =>
                      exact hrun (Fallbacks.Fallback.exec_guarded_passed hout hs haction hc) rfl
                        (.inr ⟨exc, hout, hs, ha.symm⟩)

end Layer

/-! ### What a stack does with a function -/

/-- An exception of the function after which a stack may go on: an `Exception`, or one that a
fallback in the stack is for. -/
def GoesOn (ds : List (Decorator Exc Cls ω V)) (exc : Exc) : Prop :=
  caught exc = true ∨ ∃ d ∈ ds, d.layer.recovers exc = true

theorem GoesOn.cons {d : Decorator Exc Cls ω V} {ds : List (Decorator Exc Cls ω V)} {exc : Exc}
    (h : GoesOn ds exc) : GoesOn (d :: ds) exc := by
  rcases h with h | ⟨d', hd', h⟩
  · exact .inl h
  · exact .inr ⟨d', List.mem_cons_of_mem _ hd', h⟩

variable [LibraryErrors Exc]

/-- Where the result of a stack comes from whose function was called and came to this: from one of
the calls, or from a layer that rejects the call, or from what a layer makes of an exception that
comes from there. -/
inductive Stems (ds : List (Decorator Exc Cls ω V)) (calls : List (Except Exc V)) :
    Except Exc V → Prop
  | called {outcome : Except Exc V} : outcome ∈ calls → Stems ds calls outcome
  | rejected {d : Decorator Exc Cls ω V} {exc : Exc} : d ∈ ds → d.layer.Rejects exc →
      Stems ds calls (.error exc)
  | turned {d : Decorator Exc Cls ω V} {exc : Exc} {result : Except Exc V} : d ∈ ds →
      Stems ds calls (.error exc) → d.layer.Turns exc result → Stems ds calls result

/-- More calls and more layers explain more results. -/
theorem Stems.mono {ds ds' : List (Decorator Exc Cls ω V)} {calls calls' : List (Except Exc V)}
    (hds : ds ⊆ ds') (hcalls : calls ⊆ calls') {result : Except Exc V}
    (h : Stems ds calls result) : Stems ds' calls' result := by
  induction h with
  | called hmem => exact .called (hcalls hmem)
  | rejected hd hrejects => exact .rejected (hds hd) hrejects
  | turned hd _ hturns ih => exact .turned (hds hd) ih hturns

namespace Layer

variable {layer : Layer Exc Cls ω V} {outcomes : ℕ → Except Exc V} {calls : ℕ}
  {result : Except Exc V}

/-- What a layer turns it may go on after. -/
theorem goesOn_of_turns {exc : Exc} (h : layer.Turns exc result) :
    caught exc = true ∨ layer.recovers exc = true := by
  cases layer with
  | retry self => exact .inl h.1
  | fallback action config name listeners => exact .inr h.1
  | circuitBreaker | bulkhead | rateLimiter => exact h.elim

/-- **A layer is an economical client.** -/
theorem Ends.economical (h : layer.Ends outcomes calls result) {goesOn : Exc → Prop}
    (hgoesOn : ∀ exc, caught exc = true ∨ layer.recovers exc = true → goesOn exc) :
    Economical goesOn layer.attempts ((List.range' 1 calls).map outcomes) result := by
  refine Economical.of_numbered h.le ?_ ?_ ?_
  · intro k hk hlt
    obtain ⟨exc, hexc, hc⟩ := h.failed k hk hlt
    exact ⟨exc, hexc, hgoesOn exc (.inl hc)⟩
  · intro v hcalls hv
    rcases h.result with ⟨hnone, -⟩ | ⟨-, hsame | ⟨exc, hexc, -⟩⟩
    · omega
    · exact hsame.trans hv
    · cases hv.symm.trans hexc
  · intro exc hcalls hexc hstops
    rcases h.result with ⟨hnone, -⟩ | ⟨-, hsame | ⟨exc', hexc', hturns⟩⟩
    · omega
    · exact hsame.trans hexc
    · obtain rfl := Except.error.inj (hexc.symm.trans hexc')
      exact absurd (hgoesOn exc (goesOn_of_turns hturns)) hstops

/-- The result of a layer stems from what its calls came to. -/
theorem Ends.stems {d : Decorator Exc Cls ω V} (h : d.layer.Ends outcomes calls result)
    {ds : List (Decorator Exc Cls ω V)} (hd : d ∈ ds) {all : List (Except Exc V)}
    (hcalls : ∀ outcome ∈ (List.range' 1 calls).map outcomes, Stems ds all outcome) :
    Stems ds all result := by
  have hlast : 1 ≤ calls → Stems ds all (outcomes calls) := by
    intro hpos
    refine hcalls _ (List.mem_map_of_mem ?_)
    rw [List.mem_range'_1]
    omega
  rcases h.result with ⟨-, exc, hrejects, rfl⟩ | ⟨hpos, rfl | ⟨exc, hexc, hturns⟩⟩
  · exact .rejected hd hrejects
  · exact hlast hpos
  · have hstems := hlast hpos
    rw [hexc] at hstems
    exact .turned hd hstems hturns

end Layer

/-- The calls that the clients in a stack make of each other, from the inside out. -/
theorem accounts_decorate (f : Program σ Exc V) {goesOn : Exc → Prop}
    (hcaught : ∀ exc, caught exc = true → goesOn exc) (ds : List (Decorator Exc Cls ω V)) :
    (∀ d ∈ ds, ∀ exc, d.layer.recovers exc = true → goesOn exc) →
    Accounts (fun s => (core ds s).2) (fun calls result =>
      Economical goesOn (ds.map (·.layer.attempts)).prod calls result ∧ Stems ds calls result)
      (decorate ds (recorded f)) := by
  induction ds with
  | nil =>
      intro _
      refine (accounts_recorded f).mono fun calls result hcalls => ?_
      rw [hcalls]
      exact ⟨.single goesOn result, .called (List.mem_singleton_self result)⟩
  | cons d ds ih =>
      intro hrecovers
      have hinner := ih fun d' hd' => hrecovers d' (List.mem_cons_of_mem _ hd')
      refine (hinner.over d.client).mono ?_
      rintro calls result ⟨blocks, rfl, hblocks, outcomes, held, -, hused, rfl⟩
      have hends := d.layer.ends (d.moments held.used) outcomes
        ((d.moments held.used).others held.fields, held.world)
      constructor
      · -- the layer is economical with the stack below, and that with the function
        have houter : Economical goesOn d.layer.attempts (d.client.used outcomes held)
            (d.client.run outcomes held).result := by
          refine hends.economical fun exc h => ?_
          rcases h with h | h
          · exact hcaught exc h
          · exact hrecovers d List.mem_cons_self exc h
        rw [List.map_cons, List.prod_cons]
        rw [← hused] at houter
        exact houter.flatMap fun b hb => (hblocks b hb).1
      · refine hends.stems List.mem_cons_self fun outcome hmem => ?_
        have hmem' : outcome ∈ blocks.map Prod.snd := by
          rw [hused]
          exact hmem
        obtain ⟨b, hb, rfl⟩ := List.mem_map.1 hmem'
        exact (hblocks b hb).2.mono (List.subset_cons_self d ds)
          fun call hcall => List.mem_flatMap.2 ⟨b, hb, hcall⟩

/-- Nobody in a stack notices the record. -/
theorem coupled_decorate (f : Program σ Exc V) (ds : List (Decorator Exc Cls ω V)) :
    Coupled (fun s t => forget ds s = t) (decorate ds (recorded f)) (decorate ds f) := by
  induction ds with
  | nil => exact coupled_recorded f
  | cons d ds ih =>
      rintro ⟨held, s⟩ ⟨held', t⟩ hst
      obtain ⟨rfl, hinner⟩ := Prod.mk.inj hst
      obtain ⟨hresult, hheld, hrest⟩ := coupled_over ih d.client (held, s) (held, t) ⟨rfl, hinner⟩
      exact ⟨hresult, Prod.ext hheld hrest⟩

/-- **The calls of a stack.**  Put any patterns around a function, in any order, and call the stack
in any state and at any moments.  The calls of the function that this causes are at most the product
of the maximal numbers of attempts of the retries in the stack.  All of them but the last have
failed, with an exception after which the stack may go on; if the last one has returned a value, the
stack returns it, and if it has raised an exception after which the stack does not go on, the stack
raises it.  Whatever the stack returns or raises stems from these calls, from rejections of its
layers, and from the actions of its fallbacks. -/
theorem stacks_are_economical (ds : List (Decorator Exc Cls ω V)) (f : Program σ Exc V)
    (s : State (σ × List (Except Exc V)) ds) :
    let run := exec (decorate ds (recorded f)) s
    (exec (decorate ds f) (forget ds s) = (run.1, forget ds run.2)) ∧
    ∃ calls, (core ds run.2).2 = (core ds s).2 ++ calls ∧
      Economical (GoesOn ds) (ds.map (·.layer.attempts)).prod calls run.1 ∧
      Stems ds calls run.1 := by
  intro run
  obtain ⟨hresult, hstate⟩ := coupled_decorate f ds s (forget ds s) rfl
  refine ⟨Prod.ext hresult.symm hstate.symm, ?_⟩
  exact accounts_decorate f (fun _ h => .inl h) ds (fun d hd _ h => .inr ⟨d, hd, h⟩) s

end Composition
