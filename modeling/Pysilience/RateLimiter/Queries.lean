/-
What the queries of a rate limiter tell, and what they leave unchanged.

Every query updates the strategy.  Nevertheless only a successful `try_acquire` has an effect that
can be noticed later: queries that are inserted into a run, and are granted nothing, change no
answer to the others.  And the three queries agree with each other: `permits` counts the attempts
that succeed at the present instant, and there is something to wait for exactly if it is zero.

Main definitions:

* `RateLimiter.RateLimitStrategy.reply`, `RateLimiter.RateLimitStrategy.replies` — the answers to a
  query, and to the queries of a run;
* `RateLimiter.Event` — a query of a run into which other queries were inserted;
* `RateLimiter.RateLimitStrategy.otherReplies` — the answers to the queries that were not inserted.

Main results:

* `RateLimiter.observation_is_free` — **queries that are granted nothing change no other answer**;
* `RateLimiter.queries_agree` — **the three queries agree**.
-/

import Pysilience.RateLimiter.Algorithms

set_option relaxedAutoImplicit false
set_option autoImplicit false

namespace RateLimiter

open LazyMeter Transition

universe u

variable {S : Type u}

/-! ### Answers -/

/-- The answer to a query. -/
inductive Reply
  | granted (success : Bool)
  | wait (seconds : ℚ)
  | permits (number : ℤ)
  deriving DecidableEq

namespace RateLimitStrategy

variable (σ : RateLimitStrategy S)

/-- The answer to a query in a state. -/
def reply (strategy : S) (now : ℚ) : Query → Reply
  | .tryAcquire => .granted (σ.tryAcquire strategy now).1
  | .secondsUntilAvailable => .wait (σ.secondsUntilAvailable strategy now).1
  | .permits => .permits (σ.permits strategy now).1

/-- The answers to queries that are made one after the other. -/
def replies : S → List (Query × ℚ) → List Reply
  | _, [] => []
  | strategy, (query, now) :: rest =>
    σ.reply strategy now query :: replies (σ.ask strategy now query).2 rest

end RateLimitStrategy

/-- A query of a run, and whether it was inserted into it. -/
structure Event where
  inserted : Bool
  query : Query
  instant : ℚ
  deriving DecidableEq

/-- The queries that were not inserted. -/
def original (events : List Event) : List (Query × ℚ) :=
  (events.filter fun e => !e.inserted).map fun e => (e.query, e.instant)

namespace RateLimitStrategy

variable (σ : RateLimitStrategy S)

/-- The answers to the queries that were not inserted, in the run that contains them all. -/
def otherReplies : S → List Event → List Reply
  | _, [] => []
  | strategy, e :: rest =>
    let others := otherReplies (σ.ask strategy e.instant e.query).2 rest
    if e.inserted then others else σ.reply strategy e.instant e.query :: others

/-- No query that was inserted is granted a permit. -/
def InsertedRefused : S → List Event → Prop
  | _, [] => True
  | strategy, e :: rest =>
    (e.inserted = true → (σ.ask strategy e.instant e.query).1 = false) ∧
      InsertedRefused (σ.ask strategy e.instant e.query).2 rest

instance decidableInsertedRefused : ∀ (strategy : S) (events : List Event),
    Decidable (σ.InsertedRefused strategy events)
  | _, [] => isTrue trivial
  | strategy, e :: rest =>
    have := decidableInsertedRefused (σ.ask strategy e.instant e.query).2 rest
    inferInstanceAs (Decidable (_ ∧ _))

end RateLimitStrategy

/-! ### Observation is free -/

variable {m : Meter S ℚ} {Valid : S → ℚ → Prop} {s s' : S} {now : ℚ}

/-- A query is answered from the settled state. -/
theorem reply_congr (h : m.settle s now = m.settle s' now) (query : Query) :
    (ofMeter m).reply s now query = (ofMeter m).reply s' now query := by
  cases query with
  | tryAcquire => exact congrArg (fun a : Bool × S => Reply.granted a.1) (Meter.attempt_congr h)
  | secondsUntilAvailable =>
      exact congrArg (fun s => Reply.wait (m.wait s now)) h
  | permits => exact congrArg (fun s => Reply.permits (m.room s now)) h

/-- A query updates the settled state. -/
theorem ask_congr (h : m.settle s now = m.settle s' now) (query : Query) :
    (ofMeter m).ask s now query = (ofMeter m).ask s' now query := by
  cases query with
  | tryAcquire => exact Meter.attempt_congr h
  | secondsUntilAvailable => exact congrArg (Prod.mk false) h
  | permits => exact congrArg (Prod.mk false) h

/-- What is inserted leaves a state that agrees with the one without it, and what is not inserted
leaves the same state in both runs. -/
theorem otherReplies_eq (law : m.Lawful Valid) (events : List Event) :
    ∀ {s s' : S} {t : ℚ}, Valid s t → m.Agree t s s' →
      (t :: events.map Event.instant).Pairwise (· ≤ ·) → (ofMeter m).InsertedRefused s events →
      (ofMeter m).otherReplies s events = (ofMeter m).replies s' (original events) := by
  induction events with
  | nil =>
      intro s s' t _ _ _ _
      rfl
  | cons e rest ih =>
      intro s s' t hs hagree hsorted hrefused
      obtain ⟨hfirst, hsorted⟩ := List.pairwise_cons.1 hsorted
      obtain ⟨hnot, hrefused⟩ := hrefused
      have ht : t ≤ e.instant := hfirst _ List.mem_cons_self
      have hvalid := ask_valid law hs ht e.query
      have hsettle := hagree e.instant ht
      rw [RateLimitStrategy.otherReplies]
      by_cases hins : e.inserted = true
      · have horiginal : original (e :: rest) = original rest := by simp [original, hins]
        have hagree' : m.Agree e.instant ((ofMeter m).ask s e.instant e.query).2 s' := by
          rw [ask_snd_of_not_granted (hnot hins)]
          exact law.agree_settle hs ht hagree
        rw [if_pos hins, horiginal]
        exact ih hvalid hagree' hsorted hrefused
      · have horiginal : original (e :: rest) = (e.query, e.instant) :: original rest := by
          simp [original, hins]
        rw [if_neg hins, horiginal, RateLimitStrategy.replies, reply_congr hsettle,
          ← ask_congr hsettle]
        exact congrArg _ (ih hvalid (Meter.Agree.refl _ _) hsorted hrefused)

/-- **Observation is free.**  Whatever the configuration, and whatever queries at instants that
never decrease follow the creation of the rate limiter: if those of them that were inserted are
granted no permit, then the others are answered as they are without them. -/
theorem observation_is_free (config : RateLimiterConfig) (start : ℚ) (events : List Event)
    (hsorted : (start :: events.map Event.instant).Pairwise (· ≤ ·))
    (hrefused : config.strategy.InsertedRefused (createStrategy config start) events) :
    config.strategy.otherReplies (createStrategy config start) events =
      config.strategy.replies (createStrategy config start) (original events) := by
  rw [config.strategy_eq] at hrefused ⊢
  exact otherReplies_eq config.lawful events (config.valid_createStrategy start)
    (Meter.Agree.refl _ _) hsorted hrefused

/-- One permit a second by the sliding window: two permits reads, a refused attempt and a question
for the wait, which advance the window one by one, do not change what the attempts are answered. -/
theorem observation_is_free_while_polling :
    let config : RateLimiterConfig :=
      { limitForPeriod := 1, limitRefreshPeriod := 1, algorithm := .slidingWindow,
        accepted := by decide +kernel }
    let events : List Event :=
      [⟨false, .tryAcquire, 1 / 2⟩, ⟨true, .permits, 1⟩, ⟨true, .tryAcquire, 5 / 4⟩,
        ⟨true, .secondsUntilAvailable, 2⟩, ⟨false, .tryAcquire, 2⟩, ⟨true, .permits, 9⟩,
        ⟨false, .tryAcquire, 9⟩]
    config.strategy.otherReplies (createStrategy config 0) events =
        [.granted true, .granted true, .granted true] ∧
      config.strategy.otherReplies (createStrategy config 0) events =
        config.strategy.replies (createStrategy config 0) (original events) := by
  intro config events
  exact ⟨by decide +kernel,
    observation_is_free config 0 events (by decide +kernel) (by decide +kernel)⟩

/-! ### The three queries agree -/

/-- **The three queries agree.**  Whatever the configuration, in every run and at every instant not
before the last query, `permits` reports a number `n` such that exactly the next `n` attempts at
this instant succeed, and the wait is zero exactly if `n` is at least one, whether one asks before
or after the report. -/
theorem queries_agree (config : RateLimiterConfig) (start : ℚ)
    (h : History config.State) (hr : (config.runs start).Reachable h) (t : ℚ)
    (ht : h.clock ≤ t) :
    ∃ n : ℕ, (config.strategy.permits h.strategy t).1 = n ∧
      ∀ s ∈ [h.strategy, (config.strategy.permits h.strategy t).2],
        outcomes (fun s => config.strategy.tryAcquire s t) (n + 1) s =
            List.replicate n true ++ [false] ∧
          ((config.strategy.secondsUntilAvailable s t).1 = 0 ↔ 1 ≤ n) := by
  have law := config.lawful
  have hs := config.valid_of_reachable hr
  rw [config.strategy_eq]
  -- what the meter reports is the same before and after it is settled
  have hagree : ∀ {s : config.State} {t' : ℚ} {n : ℕ}, config.Valid s t' → t' ≤ t →
      config.meter.avail s t = n →
      outcomes (fun s => config.meter.attempt s t) (n + 1) s =
          List.replicate n true ++ [false] ∧
        (config.meter.delay s t = 0 ↔ 1 ≤ n) := by
    intro s t' n hs ht hn
    refine ⟨law.outcomes_attempt n hs ht hn, ?_⟩
    rw [law.delay_eq_zero hs ht, hn, Nat.one_le_cast]
  obtain ⟨n, hn⟩ := Int.eq_ofNat_of_zero_le (law.avail_nonneg hs ht)
  refine ⟨n, hn, List.forall_mem_cons.2 ⟨hagree hs ht hn, List.forall_mem_singleton.2 ?_⟩⟩
  exact hagree (law.settle_valid hs ht) le_rfl ((law.avail_settle hs ht le_rfl).trans hn)

/-- Three permits a second by the token bucket: half a second after they were all taken, one and a
half tokens are reported as one permit, and one attempt succeeds. -/
theorem queries_agree_on_half_tokens :
    let config : RateLimiterConfig :=
      { limitForPeriod := 3, limitRefreshPeriod := 1, accepted := by decide +kernel }
    ∃ h : History config.State,
      (config.strategy.permits h.strategy (1 / 2)).1 = 1 ∧
      ∃ n : ℕ, (config.strategy.permits h.strategy (1 / 2)).1 = n ∧
        ∀ s ∈ [h.strategy, (config.strategy.permits h.strategy (1 / 2)).2],
          outcomes (fun s => config.strategy.tryAcquire s (1 / 2)) (n + 1) s =
              List.replicate n true ++ [false] ∧
            ((config.strategy.secondsUntilAvailable s (1 / 2)).1 = 0 ↔ 1 ≤ n) := by
  intro config
  obtain ⟨h, hr, hh⟩ := Machine.exists_reachable_of_exec (config.runs 0)
    [(.tryAcquire, 0), (.tryAcquire, 0), (.tryAcquire, 0)]
    (fun h => decide (h.clock ≤ 1 / 2 ∧
      (config.strategy.permits h.strategy (1 / 2)).1 = 1)) (by decide +kernel)
  have hh := of_decide_eq_true hh
  exact ⟨h, hh.2, queries_agree config 0 h hr (1 / 2) hh.1⟩

end RateLimiter
