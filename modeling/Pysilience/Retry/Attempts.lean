/-
What a call of `execute` does: its attempts, its sleeps, its events, and who receives them.

The outcomes of the attempts and the waits that are computed determine the whole run.  The attempts
end with the first one that is not retried, and at the latest with number `max_attempts`; so the
`RuntimeError` after the loop is not reached.

Main definitions:

* `Retries.Decides` — the outcome of an attempt ends the attempts;
* `Retries.Retry.failedEntries`, `Retries.Retry.terminalEvent`, `Retries.Retry.ending` — what is
  expected of a failed attempt, and of the last attempt;
* `Retries.Retry.Specified` — the specification of a call.

Main results:

* `Retries.Retry.exec_loop` — the loop does what is specified, from any attempt on;
* `Retries.Retry.execute_specified` — **so do both methods**.
-/

import Pysilience.Retry.Retry
import Mathlib.Order.Bounds.Defs
import Mathlib.Algebra.Group.Action.Defs
import Mathlib.Data.Nat.Find

set_option relaxedAutoImplicit false
set_option autoImplicit false

namespace Retries

open Python Programs Listeners

variable {Exc Cls ω V : Type} [Exceptions Exc Cls]

/-! ### The specification -/

/-- The exception is not to be retried. -/
def NonRetryable (cfg : RetryConfig Cls) (exc : Exc) : Prop :=
  isinstanceAny exc cfg.abortOn = true ∨ isinstanceAny exc cfg.retryOn = false

instance (cfg : RetryConfig Cls) (exc : Exc) : Decidable (NonRetryable cfg exc) :=
  inferInstanceAs (Decidable (_ ∨ _))

/-- An attempt with this number and this outcome is the last one. -/
def Decides (cfg : RetryConfig Cls) (i : ℕ) : Except Exc V → Prop
  | .ok _ => True
  | .error exc => NonRetryable cfg exc ∨ i = cfg.maxAttempts

/-- The exception of an outcome. -/
def exception? : Except Exc V → Option Exc
  | .ok _ => none
  | .error exc => some exc

namespace Retry

variable (self : Retry Exc Cls ω)

/-- A failed attempt that is retried: the call, the event with the wait, and the sleep. -/
def failedEntries (sleeper : Sleeper) (outcomes : ℕ → Except Exc V) (waits : ℕ → ℚ) (i : ℕ) :
    List (Entry RetryAction (RetryEvent Exc)) :=
  [.invoked,
    .emitted (self.event .attemptFailure i (some (waits i)) (exception? (outcomes i))),
    .did (.slept sleeper (waits i))]

/-- The event of the last attempt. -/
def terminalEvent (n : ℕ) : Except Exc V → RetryEvent Exc
  | .ok _ => self.event .success n none none
  | .error exc =>
      if NonRetryable self.config exc then self.event .nonRetryable n none (some exc)
      else self.event .exhausted n none (some exc)

/-- How the call ends when this is the outcome of the last attempt. -/
def ending : Except Exc V → Except (Raised Exc) V
  | .ok value => .ok value
  | .error exc =>
      if NonRetryable self.config exc then .error (.original exc)
      else .error (.retriesExhausted
        ⟨"Maximum retry attempts reached", self.name, self.config.maxAttempts, exc⟩)

/-- The specification of a call whose last attempt is number `n`. -/
structure Specified (sleeper : Sleeper) (outcomes : ℕ → Except Exc V) (waits : ℕ → ℚ) (n : ℕ)
    (run : Except (Raised Exc) V × RetryStage Exc ω) : Prop where
  result : run.1 = self.ending (outcomes n)
  reachable : ∀ message, run.1 ≠ .error (.runtimeError message)
  trace : run.2.trace =
    (List.range' 1 (n - 1)).flatMap (self.failedEntries sleeper outcomes waits) ++
      [.invoked, .emitted (self.terminalEvent n (outcomes n))]
  calls : run.2.calls = n
  sleeps : run.2.actions = (List.range' 1 (n - 1)).map fun i => .slept sleeper (waits i)
  events : run.2.emitted =
    (List.range' 1 (n - 1)).map (fun i =>
      self.event .attemptFailure i (some (waits i)) (exception? (outcomes i))) ++
    [self.terminalEvent n (outcomes n)]
  /-- Every listener receives the events, each once and in order. -/
  received : ∀ i < self.listeners.length, run.2.received i = run.2.emitted

end Retry

/-- Some attempt is the last one, and the first that is has at most the number `max_attempts`. -/
theorem exists_last (cfg : RetryConfig Cls) (outcomes : ℕ → Except Exc V) :
    ∃ n, IsLeast {i | 1 ≤ i ∧ Decides cfg i (outcomes i)} n ∧ (n : ℤ) ≤ cfg.maxAttempts := by
  classical
  have hmax : ((cfg.maxAttempts.toNat : ℕ) : ℤ) = cfg.maxAttempts :=
    Int.toNat_of_nonneg (by have := cfg.bounds.1; omega)
  have hlast : 1 ≤ cfg.maxAttempts.toNat ∧
      Decides cfg cfg.maxAttempts.toNat (outcomes cfg.maxAttempts.toNat) := by
    refine ⟨by have := cfg.bounds.1; omega, ?_⟩
    cases outcomes cfg.maxAttempts.toNat with
    | ok value => trivial
    | error exc => exact .inr hmax
  have hex : ∃ i, 1 ≤ i ∧ Decides cfg i (outcomes i) := ⟨_, hlast⟩
  refine ⟨Nat.find hex, ⟨Nat.find_spec hex, fun i hi => Nat.find_min' hex hi⟩, ?_⟩
  rw [← hmax]
  exact_mod_cast Nat.find_min' hex hlast

namespace Retry

variable {self : Retry Exc Cls ω} {sleeper : Sleeper} {outcomes : ℕ → Except Exc V}
  {draws waits : ℕ → ℚ}

/-! ### The run -/

/-- The turn of an attempt whose outcome is the last one. -/
theorem exec_loop_last {s : RetryStage Exc ω} {left n : ℕ} (hs : s.calls + 1 = n)
    (hout : ∀ i exc, outcomes i = .error exc → caught exc = true)
    (hmax : (n : ℤ) ≤ self.config.maxAttempts) (hn : Decides self.config n (outcomes n)) :
    exec (self.loop (invoke outcomes) sleeper draws (left + 1) n) s =
      (self.ending (outcomes n),
        (s.note .invoked).notified self.listeners (self.terminalEvent n (outcomes n))) := by
  subst hs
  cases h : outcomes (s.calls + 1) with
  | ok value => exact exec_loop_returns (exec_turn_value h)
  | error exc =>
      rw [h] at hn
      have hc := hout _ _ h
      by_cases hnon : NonRetryable self.config exc
      · have hr := (self.config.classifiesRetryable_eq_false_iff exc).2 hnon
        rw [ending, terminalEvent, if_pos hnon, if_pos hnon]
        exact exec_loop_raises (exec_turn_nonRetryable h hc hr)
      · have hr : self.config.classifiesRetryable exc = true := by
          rw [← Bool.not_eq_false, self.config.classifiesRetryable_eq_false_iff]
          exact hnon
        have hlast : ((s.calls + 1 : ℕ) : ℤ) = self.config.maxAttempts := hn.resolve_left hnon
        rw [ending, terminalEvent, if_neg hnon, if_neg hnon, ← hlast]
        exact exec_loop_raises (exec_turn_exhausted h hc hr hlast.ge)

/-- **The run lemma**: from an attempt on, the loop makes the attempts up to the last one. -/
theorem exec_loop {n : ℕ} (hout : ∀ i exc, outcomes i = .error exc → caught exc = true)
    (hwait : ∀ i : ℕ, 1 ≤ i → (i : ℤ) < self.config.maxAttempts →
      self.config.waitSecondsBeforeRetry (draws i) i = .ok (waits i))
    (hmax : (n : ℤ) ≤ self.config.maxAttempts) (hn : Decides self.config n (outcomes n)) (d : ℕ) :
    ∀ (k left : ℕ) (s : RetryStage Exc ω), s.calls + 1 = k → k + d = n → d < left →
      (∀ i, k ≤ i → i < n → ¬ Decides self.config i (outcomes i)) →
      (exec (self.loop (invoke outcomes) sleeper draws left k) s).1 = self.ending (outcomes n) ∧
      (exec (self.loop (invoke outcomes) sleeper draws left k) s).2.trace =
        s.trace ++ ((List.range' k d).flatMap (self.failedEntries sleeper outcomes waits) ++
          [.invoked, .emitted (self.terminalEvent n (outcomes n))]) := by
  induction d with
  | zero =>
      intro k left s hs hk hleft _
      obtain ⟨left, rfl⟩ : ∃ l, left = l + 1 := ⟨left - 1, by omega⟩
      obtain rfl : k = n := hk
      rw [exec_loop_last hs hout hmax hn]
      exact ⟨rfl, by simp⟩
  | succ d ih =>
      intro k left s hs hk hleft hfail
      obtain ⟨left, rfl⟩ : ∃ l, left = l + 1 := ⟨left - 1, by omega⟩
      have hk' := hfail k le_rfl (by omega)
      subst hs
      cases h : outcomes (s.calls + 1) with
      | ok value =>
          rw [h] at hk'
          exact absurd trivial hk'
      | error exc =>
          rw [h] at hk'
          have hr : self.config.classifiesRetryable exc = true := by
            rw [← Bool.not_eq_false, self.config.classifiesRetryable_eq_false_iff]
            exact fun hnon => hk' (.inl hnon)
          have hlt : ((s.calls + 1 : ℕ) : ℤ) < self.config.maxAttempts := by omega
          have hturn : exec
              (self.turn (invoke outcomes) sleeper (draws (s.calls + 1)) (s.calls + 1)) s =
              (.ok none, self.retried sleeper (s.calls + 1) exc (waits (s.calls + 1)) s) :=
            exec_turn_retried h (hout _ _ h) hr hlt (hwait _ (Nat.le_add_left 1 _) hlt)
          rw [exec_loop_goesOn hturn]
          -- the next attempt starts where the turn has left the record
          obtain ⟨hres, htrace⟩ := ih (s.calls + 1 + 1) left
            (self.retried sleeper (s.calls + 1) exc (waits (s.calls + 1)) s)
            (by simp [retried]) (by omega) (by omega)
            fun i hi => hfail i (by omega)
          refine ⟨hres, ?_⟩
          rw [htrace, List.range'_succ, List.flatMap_cons]
          simp [retried, failedEntries, h, exception?]

/-- Every listener of the loop receives what the loop emits. -/
theorem received_loop {left attempt i : ℕ} {outside : ω} (hi : i < self.listeners.length) :
    (exec (self.loop (invoke outcomes) sleeper draws left attempt)
      (Stage.start () outside)).2.received i =
    (exec (self.loop (invoke outcomes) sleeper draws left attempt)
      (Stage.start () outside)).2.emitted :=
  (self.coupled_loop outcomes sleeper draws left attempt _ _
    (Unnoticed.start self.listeners () outside outside)).2.received i hi

/-- The parts of the record follow from the whole. -/
theorem Specified.of_trace {n : ℕ} (hn : 1 ≤ n) {run : Except (Raised Exc) V × RetryStage Exc ω}
    (hres : run.1 = self.ending (outcomes n))
    (htrace : run.2.trace =
      (List.range' 1 (n - 1)).flatMap (self.failedEntries sleeper outcomes waits) ++
        [.invoked, .emitted (self.terminalEvent n (outcomes n))])
    (hreceived : ∀ i < self.listeners.length, run.2.received i = run.2.emitted) :
    self.Specified sleeper outcomes waits n run where
  result := hres
  reachable := by
    intro message h
    rw [hres] at h
    cases houtcome : outcomes n with
    | ok value => simp [houtcome, ending] at h
    | error exc =>
        rw [houtcome, ending] at h
        split at h <;> cases h
  trace := htrace
  calls := by
    rw [Stage.calls, htrace, List.countP_append, List.countP_flatMap]
    have hone : List.countP Entry.isInvoked ∘ self.failedEntries sleeper outcomes waits =
        fun _ => 1 := rfl
    have hlast : List.countP (Entry.isInvoked (A := RetryAction))
        [.invoked, .emitted (self.terminalEvent n (outcomes n))] = 1 := rfl
    rw [hone, hlast, List.map_const', List.sum_replicate, List.length_range', smul_eq_mul, mul_one]
    omega
  sleeps := by
    rw [Stage.actions, htrace, List.filterMap_append, List.filterMap_flatMap, List.map_eq_flatMap]
    exact List.append_nil _
  events := by
    rw [Stage.emitted, htrace, List.filterMap_append, List.filterMap_flatMap, List.map_eq_flatMap]
    rfl
  received := hreceived

/-- **Both methods do what is specified**: they make the attempts up to the first one whose outcome
is the last, sleep the wait computed for an attempt after each of the others, emit one event for
each attempt, which every listener receives, and end as the outcome of the last attempt says. -/
theorem execute_specified (self : Retry Exc Cls ω) (outcomes : ℕ → Except Exc V)
    (draws waits : ℕ → ℚ) (outside : ω)
    (hout : ∀ i exc, outcomes i = .error exc → caught exc = true)
    (hwait : ∀ i : ℕ, 1 ≤ i → (i : ℤ) < self.config.maxAttempts →
      self.config.waitSecondsBeforeRetry (draws i) i = .ok (waits i)) :
    ∃ n, IsLeast {i | 1 ≤ i ∧ Decides self.config i (outcomes i)} n ∧
      self.Specified .time outcomes waits n
        (exec (self.execute outcomes draws) (Stage.start () outside)) ∧
      self.Specified .asyncio outcomes waits n
        (exec (self.executeAsync outcomes draws) (Stage.start () outside)) := by
  obtain ⟨n, hleast, hmax⟩ := exists_last self.config outcomes
  have hn : 1 ≤ n := hleast.1.1
  have hrun : ∀ sleeper,
      let run := exec (self.loop (invoke outcomes) sleeper draws self.config.maxAttempts.toNat 1)
        (Stage.start () outside)
      run.1 = self.ending (outcomes n) ∧
        run.2.trace = (List.range' 1 (n - 1)).flatMap (self.failedEntries sleeper outcomes waits) ++
          [.invoked, .emitted (self.terminalEvent n (outcomes n))] := by
    intro sleeper
    exact exec_loop hout hwait hmax hleast.1.2 (n - 1) 1 self.config.maxAttempts.toNat
      (Stage.start () outside) rfl (by omega) (by omega)
      fun i hi hlt hdecides => absurd (hleast.2 ⟨hi, hdecides⟩) (by omega)
  exact ⟨n, hleast,
    Specified.of_trace hn (hrun .time).1 (hrun .time).2 fun _ hi => received_loop hi,
    Specified.of_trace hn (hrun .asyncio).1 (hrun .asyncio).2 fun _ hi => received_loop hi⟩

/-- A configuration with a pause that doubles after each attempt. -/
def doubling : RetryConfig Builtin where
  maxAttempts := 3
  initialInterval := 1
  retryOn := [.exception]
  accepted := by decide +kernel

/-- An instance with that configuration and one listener. -/
def watched : Retry Builtin Builtin (List (RetryEvent Builtin)) :=
  (init doubling (some "http")).onEvent (Listener.journal _)

theorem execute_specified_doubling :
    ∃ n, IsLeast {i | 1 ≤ i ∧ Decides doubling i (.error .valueError : Except Builtin ℕ)} n ∧
      watched.Specified .time (fun _ => .error .valueError) (fun i => 2 ^ (i - 1)) n
        (exec (watched.execute (fun _ => (.error .valueError : Except Builtin ℕ)) fun _ => 1)
          (Stage.start () [])) ∧
      watched.Specified .asyncio (fun _ => .error .valueError) (fun i => 2 ^ (i - 1)) n
        (exec (watched.executeAsync (fun _ => (.error .valueError : Except Builtin ℕ)) fun _ => 1)
          (Stage.start () [])) := by
  refine execute_specified watched _ _ _ [] ?_ ?_
  · intro i exc h
    obtain rfl := Except.error.inj h
    decide
  · intro i hi hlt
    have hlt' : (i : ℤ) < 3 := hlt
    obtain rfl | rfl : i = 1 ∨ i = 2 := by omega
    · decide +kernel
    · decide +kernel

end Retry

end Retries
