/-
Retries around retries.

The bound on the calls of a stack is attained by retries: around a function that keeps failing, a
stack of retries that give up on no `Exception` makes as many calls as the product of their maximal
numbers of attempts.

Main definitions:

* `Retries.Retry.Tenacious` — retries that give up on no `Exception` before their last attempt.

Main results:

* `Retries.Retry.loop_tenacious` — such a retry makes all its attempts;
* `Composition.nested_retries_multiply` — **nested retries multiply**.
-/

import Pysilience.Core.Composition
import Pysilience.Retry.Backoff
import Mathlib.Algebra.Group.Action.Defs

set_option relaxedAutoImplicit false
set_option autoImplicit false

/-! ### A retry -/

namespace Retries.Retry

open Python Programs Listeners

variable {Exc Cls ω V : Type} [Exceptions Exc Cls]

/-- Every `Exception` is retried, and every wait can be computed. -/
structure Tenacious (retry : Retry Exc Cls ω) : Prop where
  retries : ∀ exc : Exc, caught exc = true → retry.config.classifiesRetryable exc = true
  waits : retry.config.multiplier ^ (retry.config.maxAttempts.toNat - 2) < 2 ^ 1024

/-- A wait that is not the last one can be computed. -/
theorem Tenacious.wait_ok {self : Retry Exc Cls ω} (h : self.Tenacious) (uniform : ℚ) {attempt : ℕ}
    (hone : 1 ≤ attempt) (hlast : (attempt : ℤ) < self.config.maxAttempts) :
    ∃ wait, self.config.waitSecondsBeforeRetry uniform attempt = .ok wait := by
  have hpow : self.config.multiplier ^ (attempt - 1) < 2 ^ 1024 :=
    self.config.pow_lt_of_last (by omega) h.waits
  exact ⟨_, (self.config.wait_ok_iff hone).2 ⟨hpow, rfl⟩⟩

/-- **A tenacious retry makes all its attempts** when they fail, from any of them on. -/
theorem loop_tenacious {self : Retry Exc Cls ω} (h : self.Tenacious)
    {outcomes : ℕ → Except Exc V}
    (hfails : ∀ k, ∃ exc, outcomes k = .error exc ∧ caught exc = true) (sleeper : Sleeper)
    (draws : ℕ → ℚ) (left : ℕ) : ∀ (attempt : ℕ) (s : RetryStage Exc ω), 1 ≤ left → 1 ≤ attempt →
      (attempt + left : ℤ) = self.config.maxAttempts + 1 →
      (exec (self.loop (invoke outcomes) sleeper draws left attempt) s).2.calls = s.calls + left ∧
        ∃ error, (exec (self.loop (invoke outcomes) sleeper draws left attempt) s).1 =
          .error (.retriesExhausted error) := by
  induction left with
  | zero => exact fun _ _ hleft => absurd hleft (by omega)
  | succ left ih =>
      intro attempt s _ hone hattempt
      obtain ⟨exc, hexc, hc⟩ := hfails (s.calls + 1)
      have hr := h.retries exc hc
      have hcalls : ∀ event, ((s.note .invoked).notified self.listeners event).calls =
          s.calls + 1 := by
        intro event
        rw [Stage.notified_calls, Stage.note_invoked_calls]
      by_cases hlast : self.config.maxAttempts ≤ attempt
      · obtain rfl : left = 0 := by omega
        rw [exec_loop_raises (exec_turn_exhausted hexc hc hr hlast)]
        exact ⟨hcalls _, _, rfl⟩
      · obtain ⟨wait, hwait⟩ := h.wait_ok (draws attempt) hone (not_le.1 hlast)
        rw [exec_loop_goesOn (exec_turn_retried hexc hc hr (not_le.1 hlast) hwait)]
        obtain ⟨hcount, hend⟩ := ih (attempt + 1) (self.retried sleeper attempt exc wait s)
          (by omega) (by omega) (by push_cast at hattempt ⊢; omega)
        refine ⟨?_, hend⟩
        rw [hcount, retried, Stage.note_did_calls, hcalls]
        omega

end Retries.Retry

/-! ### A stack of retries -/

namespace Composition

open Python Programs Listeners Services

variable {Exc Cls ω V σ : Type} [Exceptions Exc Cls] [LibraryErrors Exc]

/-- The layer is a retry that is tenacious. -/
def Layer.Tenacious (layer : Layer Exc Cls ω V) : Prop :=
  ∃ self : Retries.Retry Exc Cls ω, layer = .retry self ∧ self.Tenacious

/-- The outcome is an `Exception`. -/
def Failure (outcome : Except Exc V) : Prop := ∃ exc, outcome = .error exc ∧ caught exc = true

/-- A tenacious retry in a stack makes all its calls. -/
theorem Layer.Tenacious.call {layer : Layer Exc Cls ω V} (h : layer.Tenacious)
    (hlibrary : ∀ error : Retries.RetriesExhausted Exc,
      caught (LibraryErrors.retriesExhausted error) = true)
    (m : Moment layer) {outcomes : ℕ → Except Exc V} (hfails : ∀ k, Failure (outcomes k))
    (s : layer.Fields × ω) :
    (layer.call m outcomes s).calls = layer.attempts ∧
      Failure (layer.call m outcomes s).result := by
  obtain ⟨self, rfl, hself⟩ := h
  have hbounds := self.config.bounds.1
  obtain ⟨hcalls, error, hend⟩ := Retries.Retry.loop_tenacious hself hfails .time m.draws
    self.config.maxAttempts.toNat 1 (Stage.start () s.2) (by omega) le_rfl (by omega)
  refine ⟨hcalls.trans (Nat.zero_add _), LibraryErrors.retriesExhausted error, ?_, hlibrary error⟩
  exact congrArg (Except.mapError ofRetry) hend

/-- The calls of a stack of retries, from the inside out. -/
theorem accounts_tenacious
    (hlibrary : ∀ error : Retries.RetriesExhausted Exc,
      caught (LibraryErrors.retriesExhausted error) = true)
    (f : Program σ Exc V) (hfails : ∀ s, Failure (exec f s).1)
    (ds : List (Decorator Exc Cls ω V)) : (∀ d ∈ ds, d.layer.Tenacious) →
    Accounts (fun s => (core ds s).2) (fun calls result =>
      calls.length = (ds.map (·.layer.attempts)).prod ∧ Failure result)
      (decorate ds (recorded f)) := by
  induction ds with
  | nil =>
      intro _ s
      exact ⟨[(exec f s.1).1], rfl, rfl, hfails s.1⟩
  | cons d ds ih =>
      intro hds
      have hinner := ih fun d' hd' => hds d' (List.mem_cons_of_mem _ hd')
      refine (hinner.over d.client).mono ?_
      rintro calls result ⟨blocks, rfl, hblocks, outcomes, held, houtcomes, hused, rfl⟩
      have hfailures : ∀ k, Failure (outcomes k) := by
        intro k
        obtain ⟨_, -, hfailure⟩ := houtcomes k
        exact hfailure
      obtain ⟨hcalls, hend⟩ := (hds d List.mem_cons_self).call hlibrary (d.moments held.used)
        hfailures ((d.moments held.used).others held.fields, held.world)
      refine ⟨?_, hend⟩
      -- one block for each attempt, and all of them of one length
      have hcount : blocks.length = d.layer.attempts := by
        rw [← List.length_map (f := Prod.snd), hused, Client.used, List.length_map,
          List.length_range']
        exact hcalls
      have heach : ∀ l ∈ blocks.map fun b => b.1.length,
          l = (ds.map (·.layer.attempts)).prod := by
        intro l hl
        obtain ⟨b, hb, rfl⟩ := List.mem_map.1 hl
        exact (hblocks b hb).1
      rw [List.length_flatMap, List.sum_eq_card_nsmul _ _ heach, List.length_map, hcount,
        smul_eq_mul, List.map_cons, List.prod_cons]

/-- **Nested retries multiply.**  A stack of retries that give up on no `Exception` before their
last attempt, around a function that keeps raising `Exception`s, calls the function exactly as often
as the product of the maximal numbers of attempts, and raises an `Exception`. -/
theorem nested_retries_multiply
    (hlibrary : ∀ error : Retries.RetriesExhausted Exc,
      caught (LibraryErrors.retriesExhausted error) = true)
    (ds : List (Decorator Exc Cls ω V)) (hds : ∀ d ∈ ds, d.layer.Tenacious) (f : Program σ Exc V)
    (hfails : ∀ s, Failure (exec f s).1) (s : State (σ × List (Except Exc V)) ds) :
    ∃ calls, (core ds (exec (decorate ds (recorded f)) s).2).2 = (core ds s).2 ++ calls ∧
      calls.length = (ds.map (·.layer.attempts)).prod ∧
      Failure (exec (decorate ds (recorded f)) s).1 :=
  accounts_tenacious hlibrary f hfails ds hds s

/-! ### Two retries -/

/-- Some exceptions, all of which are instances of `Exception`. -/
inductive Failing
  | connectionError
  | retriesExhausted (message name : String) (attempts : ℤ) (lastException : Failing)
  | overflowError
  | runtimeError (message : String)
  | circuitBreakerOpen (error : CircuitBreaker.CircuitBreakerOpen)
  | bulkheadRejected (error : Bulkheads.BulkheadRejected)
  | rateLimitExceeded (err : RateLimiter.RateLimitExceeded)

instance : Exceptions Failing Builtin where
  isinstance _ cls := decide (cls ∈ Builtin.exception.mro)
  exception := .exception

instance : LibraryErrors Failing where
  retriesExhausted error :=
    .retriesExhausted error.message error.name error.attempts error.lastException
  overflowError := .overflowError
  runtimeError := .runtimeError
  circuitBreakerOpen := .circuitBreakerOpen
  bulkheadRejected := .bulkheadRejected
  rateLimitExceeded := .rateLimitExceeded

/-- `RetryConfig(max_attempts=2)`. -/
def twice : Retries.RetryConfig Builtin where
  maxAttempts := 2
  retryOn := [.exception]
  accepted := by decide +kernel

/-- `RetryConfig()`, which makes three attempts. -/
def thrice : Retries.RetryConfig Builtin where
  retryOn := [.exception]
  accepted := by decide +kernel

/-- A retry in a stack that nobody else uses. -/
def aloneWith (config : Retries.RetryConfig Builtin) : Decorator Failing Builtin Unit ℕ where
  layer := .retry ⟨config, "retry", []⟩
  moments _ :=
    { others := id, draws := fun _ => 1, startedAt := 0, endedAt := 0, released := 0
      acquire := fun s => (.error (RateLimiter.reject "" 0), s) }

/-- A service that cannot be reached. -/
def unreachable : Program Unit Failing ℕ := throw .connectionError

/-- Two attempts with three attempts each are six calls. -/
theorem nested_retries_multiply_six :
    ∃ calls : List (Except Failing ℕ),
      (core [aloneWith twice, aloneWith thrice]
        (exec (decorate [aloneWith twice, aloneWith thrice] (recorded unreachable))
          (⟨(), (), 0⟩, ⟨(), (), 0⟩, (), [])).2).2 = calls ∧ calls.length = 6 := by
  have htenacious : ∀ config : Retries.RetryConfig Builtin, config.retryOn = [.exception] →
      config.abortOn = [] → config.multiplier ^ (config.maxAttempts.toNat - 2) < 2 ^ 1024 →
      (aloneWith config).layer.Tenacious := by
    intro config hretry habort hwaits
    refine ⟨_, rfl, fun exc _ => ?_, hwaits⟩
    rw [Retries.RetryConfig.classifiesRetryable, hretry, habort]
    rfl
  obtain ⟨calls, hlog, hlength, -⟩ := nested_retries_multiply (fun _ => rfl)
    [aloneWith twice, aloneWith thrice]
    (List.forall_mem_cons.2 ⟨htenacious twice rfl rfl (by decide +kernel),
      List.forall_mem_singleton.2 (htenacious thrice rfl rfl (by decide +kernel))⟩)
    unreachable (fun _ => ⟨.connectionError, rfl, rfl⟩) (⟨(), (), 0⟩, ⟨(), (), 0⟩, (), [])
  exact ⟨calls, hlog, hlength.trans rfl⟩

end Composition
