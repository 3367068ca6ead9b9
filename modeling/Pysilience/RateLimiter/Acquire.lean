/-
Waiting for a permit.

`RateLimiter.acquire` and `RateLimiter.acquire_async` attempt to take a permit, and where it is
refused they sleep for as long as `seconds_until_available` says, or until the deadline if that is
sooner, and try again.  The loop has no bound of its own.  A turn of it holds the lock and is
evaluated at one reading of the clock; where a sleep takes exactly as long as it should and nobody
else uses the rate limiter, the permit is taken at the first instant at which there is one.

Main definitions:

* `RateLimiter.RateLimitExceeded`, `RateLimiter.reject` — the exception of a rejected call;
* `RateLimiter.acquireLoop` — the loop, with a bound on the number of its turns;
* `RateLimiter.RateLimiterConfig.acquire`, `RateLimiter.RateLimiterConfig.acquireAsync` — the calls;
* `RateLimiter.chances` — the instants at which an attempt would succeed.

Main results:

* `RateLimiter.acquireLoop_spec` — what the loop does, for a lawful meter;
* `RateLimiter.acquire_waits_exactly` — **a call returns at the first chance, or raises at its
  deadline, after two sleeps at most**.
-/

import Pysilience.RateLimiter.Algorithms

set_option relaxedAutoImplicit false
set_option autoImplicit false

namespace RateLimiter

open LazyMeter Transition

universe u

variable {S : Type u}

/-! ### The loop -/

/-- `RateLimitExceeded`. -/
structure RateLimitExceeded where
  message : String
  name : Option String
  availablePermits : Option ℤ
  waitTime : Option ℚ
  deriving DecidableEq

/-- `_reject`. -/
def reject (name : String) (waitTime : ℚ) : RateLimitExceeded where
  message := "Rate limit exceeded"
  name := some name
  availablePermits := some 0
  waitTime := some waitTime

/-- The end of a call: the time it waited or the exception it raised, the state in which it left the
strategy, the reading of the clock, and how long it slept each time. -/
structure Ended (S : Type u) where
  outcome : Except RateLimitExceeded ℚ
  strategy : S
  clock : ℚ
  sleeps : List ℚ

/-- A sleep that came before. -/
def Ended.after (e : Ended S) (sleepFor : ℚ) : Ended S := { e with sleeps := sleepFor :: e.sleeps }

/-- The loop of a call that began at `start`, from the reading `now` on; `none` if it has not ended
within a number of turns.  `sleep now d` is the reading of the clock after a sleep of `d` that
begins at the reading `now`. -/
def acquireLoop (σ : RateLimitStrategy S) (sleep : ℚ → ℚ → ℚ) (name : String)
    (timeoutDuration start : ℚ) : ℕ → S → ℚ → Option (Ended S)
  | 0, _, _ => none
  | turns + 1, strategy, now =>
    let deadline := start + timeoutDuration
    let (granted, strategy) := σ.tryAcquire strategy now
    if granted then some ⟨.ok (now - start), strategy, now, []⟩
    else if timeoutDuration = 0 then
      let (waitNeeded, strategy) := σ.secondsUntilAvailable strategy now
      some ⟨.error (reject name waitNeeded), strategy, now, []⟩
    else
      let remaining := deadline - now
      if remaining ≤ 0 then
        let (waitNeeded, strategy) := σ.secondsUntilAvailable strategy now
        some ⟨.error (reject name waitNeeded), strategy, now, []⟩
      else
        let (seconds, strategy) := σ.secondsUntilAvailable strategy now
        let sleepFor := min seconds remaining
        (acquireLoop σ sleep name timeoutDuration start turns strategy (sleep now sleepFor)).map
          fun e => e.after sleepFor

namespace RateLimiterConfig

variable (config : RateLimiterConfig)

/-- `acquire`, called at the reading `start`; its sleeps are those of `time.sleep`. -/
def acquire (timeSleep : ℚ → ℚ → ℚ) (name : String) (turns : ℕ) (strategy : config.State)
    (start : ℚ) : Option (Ended config.State) :=
  acquireLoop config.strategy timeSleep name config.timeoutDuration start turns strategy start

/-- `acquire_async`, called at the reading `start`; its sleeps are those of `asyncio.sleep`. -/
def acquireAsync (asyncioSleep : ℚ → ℚ → ℚ) (name : String) (turns : ℕ) (strategy : config.State)
    (start : ℚ) : Option (Ended config.State) :=
  acquireLoop config.strategy asyncioSleep name config.timeoutDuration start turns strategy start

end RateLimiterConfig

/-! ### What a call should do -/

/-- The instants from `now` to the deadline at which an attempt would succeed. -/
def chances (σ : RateLimitStrategy S) (strategy : S) (now deadline : ℚ) : Set ℚ :=
  {t | now ≤ t ∧ t ≤ deadline ∧ (σ.tryAcquire strategy t).1 = true}

/-- The call returned at the instant `t`, having taken one permit of the strategy then. -/
structure AcquiredAt (σ : RateLimitStrategy S) (strategy : S) (start t : ℚ) (e : Ended S) :
    Prop where
  outcome_eq : e.outcome = .ok (t - start)
  clock_eq : e.clock = t
  strategy_eq : e.strategy = (σ.tryAcquire strategy t).2
  consumed : (σ.permits e.strategy t).1 = (σ.permits strategy t).1 - 1

/-- The call raised at the instant `t`, having taken no permit of the strategy. -/
structure RejectedAt (σ : RateLimitStrategy S) (name : String) (strategy : S) (t : ℚ)
    (e : Ended S) : Prop where
  outcome_eq : e.outcome = .error (reject name (σ.secondsUntilAvailable strategy t).1)
  clock_eq : e.clock = t
  strategy_eq : e.strategy = (σ.permits strategy t).2
  kept : (σ.permits e.strategy t).1 = (σ.permits strategy t).1

/-- How a call that began at `start` should end when it goes on at the instant `now`: at the first
chance if there is one up to the deadline, and otherwise at the deadline. -/
def EndsWell (σ : RateLimitStrategy S) (name : String) (strategy : S) (start now deadline : ℚ)
    (e : Ended S) : Prop :=
  (∃ t, IsLeast (chances σ strategy now deadline) t ∧ AcquiredAt σ strategy start t e) ∨
    chances σ strategy now deadline = ∅ ∧ RejectedAt σ name strategy deadline e

/-! ### The turns of the loop -/

variable {m : Meter S ℚ} {Valid : S → ℚ → Prop} {sleep : ℚ → ℚ → ℚ} {name : String}
  {timeout start now t : ℚ} {s : S}

/-- A turn in which a permit is left. -/
theorem acquireLoop_of_le (h : 1 ≤ m.avail s now) (turns : ℕ) :
    acquireLoop (ofMeter m) sleep name timeout start (turns + 1) s now =
      some ⟨.ok (now - start), (m.attempt s now).2, now, []⟩ := by
  have hgranted : ((ofMeter m).tryAcquire s now).1 = true := Meter.attempt_fst.2 h
  rw [acquireLoop]
  exact if_pos hgranted

/-- A turn at the deadline in which no permit is left. -/
theorem acquireLoop_of_deadline_le (law : m.Lawful Valid) (hs : Valid s t) (ht : t ≤ now)
    (h : m.avail s now < 1) (hnow : start + timeout ≤ now) (turns : ℕ) :
    acquireLoop (ofMeter m) sleep name timeout start (turns + 1) s now =
      some ⟨.error (reject name (m.delay s now)), m.settle s now, now, []⟩ := by
  have hremaining : start + timeout - now ≤ 0 := sub_nonpos.2 hnow
  have hsettle := law.settle_settle hs ht le_rfl
  simp only [acquireLoop, ofMeter, Meter.attempt_of_lt h, Meter.estimate, Meter.delay, hsettle,
    Bool.false_eq_true, if_false, if_pos hremaining, ite_self]

/-- A turn before the deadline in which no permit is left. -/
theorem acquireLoop_of_lt_deadline (law : m.Lawful Valid) (hs : Valid s t) (ht : t ≤ now)
    (hstart : start ≤ now) (h : m.avail s now < 1) (hnow : now < start + timeout) (turns : ℕ) :
    acquireLoop (ofMeter m) sleep name timeout start (turns + 1) s now =
      (acquireLoop (ofMeter m) sleep name timeout start turns (m.settle s now)
        (sleep now (min (m.delay s now) (start + timeout - now)))).map
        fun e => e.after (min (m.delay s now) (start + timeout - now)) := by
  have hremaining : ¬ start + timeout - now ≤ 0 := not_le.2 (sub_pos.2 hnow)
  have htimeout : timeout ≠ 0 := by
    rintro rfl
    exact absurd hstart (not_le.2 (by rwa [add_zero] at hnow))
  have hsettle := law.settle_settle hs ht le_rfl
  rw [acquireLoop]
  simp only [ofMeter, Meter.attempt_of_lt h, Meter.estimate, Meter.delay, hsettle,
    Bool.false_eq_true, if_false, if_neg hremaining, if_neg htimeout]

/-! ### The whole loop -/

/-- A call that takes a permit in its first turn ends well. -/
theorem endsWell_of_le (law : m.Lawful Valid) (hs : Valid s t) (ht : t ≤ now)
    (h : 1 ≤ m.avail s now) {deadline : ℚ} (hnow : now ≤ deadline) :
    EndsWell (ofMeter m) name s start now deadline
      ⟨.ok (now - start), (m.attempt s now).2, now, []⟩ := by
  refine Or.inl ⟨now, ⟨⟨le_rfl, hnow, Meter.attempt_fst.2 h⟩, fun x hx => hx.1⟩, ?_⟩
  exact ⟨rfl, rfl, rfl, law.avail_attempt hs ht h⟩

/-- A call that finds no permit at its deadline ends well. -/
theorem endsWell_of_lt (law : m.Lawful Valid) (hs : Valid s t) (ht : t ≤ now)
    (h : m.avail s now < 1) :
    EndsWell (ofMeter m) name s start now now
      ⟨.error (reject name (m.delay s now)), m.settle s now, now, []⟩ := by
  refine Or.inr ⟨?_, rfl, rfl, rfl, law.avail_settle hs ht le_rfl⟩
  refine Set.eq_empty_of_forall_notMem fun x hx => ?_
  obtain ⟨hle, hge, hsuccess⟩ := hx
  obtain rfl : x = now := le_antisymm hge hle
  exact absurd (Meter.attempt_fst.1 hsuccess) (not_le.2 h)

/-- A sleep during which there is no chance, after which the call ends well. -/
theorem EndsWell.after_sleep (law : m.Lawful Valid) (hs : Valid s t) (ht : t ≤ now) {later : ℚ}
    (hlater : now ≤ later) (hnone : ∀ x, now ≤ x → x < later → m.avail s x < 1) {deadline : ℚ}
    (hdeadline : later ≤ deadline) {e : Ended S}
    (h : EndsWell (ofMeter m) name (m.settle s now) start later deadline e) (sleepFor : ℚ) :
    EndsWell (ofMeter m) name s start now deadline (e.after sleepFor) := by
  have hattempt : ∀ x, now ≤ x → m.attempt (m.settle s now) x = m.attempt s x := fun x hx =>
    Meter.attempt_congr (law.settle_settle hs ht hx)
  have hreport : ∀ x, now ≤ x → m.report (m.settle s now) x = m.report s x := fun x hx => by
    rw [Meter.report, Meter.report, law.avail_settle hs ht hx, law.settle_settle hs ht hx]
  have hchances : chances (ofMeter m) (m.settle s now) later deadline =
      chances (ofMeter m) s now deadline := by
    ext x
    constructor
    · rintro ⟨hle, hge, hsuccess⟩
      have hx := hlater.trans hle
      exact ⟨hx, hge, (congrArg Prod.fst (hattempt x hx)).symm.trans hsuccess⟩
    · rintro ⟨hle, hge, hsuccess⟩
      refine ⟨not_lt.1 fun hx => ?_, hge, (congrArg Prod.fst (hattempt x hle)).trans hsuccess⟩
      exact absurd (Meter.attempt_fst.1 hsuccess) (not_le.2 (hnone x hle hx))
  rw [EndsWell, hchances] at h
  rcases h with ⟨x, hleast, hacquired⟩ | ⟨hempty, hrejected⟩
  · have hx : now ≤ x := hleast.1.1
    refine Or.inl ⟨x, hleast, hacquired.outcome_eq, hacquired.clock_eq, ?_, ?_⟩
    · exact hacquired.strategy_eq.trans (congrArg Prod.snd (hattempt x hx))
    · have hpermits := congrArg Prod.fst (hreport x hx)
      exact hacquired.consumed.trans (congrArg (· - 1) hpermits)
  · have hx := hlater.trans hdeadline
    have hestimate := law.delay_settle hs ht hx
    refine Or.inr ⟨hempty, ?_, hrejected.clock_eq, ?_, ?_⟩
    · exact hrejected.outcome_eq.trans (congrArg (fun w => Except.error (reject name w)) hestimate)
    · exact hrejected.strategy_eq.trans (congrArg Prod.snd (hreport deadline hx))
    · exact hrejected.kept.trans (congrArg Prod.fst (hreport deadline hx))

/-- **What the loop does**: if waiting `n` times leads to a permit or to the deadline, it ends well
after `n` sleeps at most. -/
theorem acquireLoop_spec (law : m.Lawful Valid)
    (hsleep : ∀ now d, 0 ≤ d → sleep now d = now + d) (name : String) (n : ℕ) :
    ∀ {s : S} {now t : ℚ} {turns : ℕ}, Valid s t → t ≤ now → start ≤ now →
      now ≤ start + timeout →
      (1 ≤ m.avail s (m.arrival s n now) ∨ start + timeout ≤ m.arrival s n now) →
      n + 1 ≤ turns →
      ∃ e, acquireLoop (ofMeter m) sleep name timeout start turns s now = some e ∧
        e.sleeps.length ≤ n ∧ EndsWell (ofMeter m) name s start now (start + timeout) e := by
  induction n with
  | zero =>
      intro s now t turns hs ht hstart hdeadline hends hturns
      obtain ⟨turns, rfl⟩ := Nat.exists_eq_add_of_le' hturns
      rcases le_or_gt 1 (m.avail s now) with hle | hlt
      · exact ⟨_, acquireLoop_of_le hle turns, le_rfl, endsWell_of_le law hs ht hle hdeadline⟩
      · have hnow : start + timeout ≤ now := hends.resolve_left (not_le.2 hlt)
        obtain rfl : now = start + timeout := le_antisymm hdeadline hnow
        exact ⟨_, acquireLoop_of_deadline_le law hs ht hlt hnow turns, le_rfl,
          endsWell_of_lt law hs ht hlt⟩
  | succ n ih =>
      intro s now t turns hs ht hstart hdeadline hends hturns
      obtain ⟨turns, rfl⟩ := Nat.exists_eq_add_of_le' (Nat.le_of_add_left_le hturns)
      rcases le_or_gt 1 (m.avail s now) with hle | hlt
      · exact ⟨_, acquireLoop_of_le hle turns, Nat.zero_le _,
          endsWell_of_le law hs ht hle hdeadline⟩
      rcases hdeadline.eq_or_lt with rfl | hbefore
      · exact ⟨_, acquireLoop_of_deadline_le law hs ht hlt le_rfl turns, Nat.zero_le _,
          endsWell_of_lt law hs ht hlt⟩
      -- the call sleeps until the estimated instant or the deadline
      have hvalid := law.settle_valid hs ht
      have hwait : 0 ≤ min (m.delay s now) (start + timeout - now) :=
        le_min (law.delay_nonneg hs ht) (sub_nonneg.2 hdeadline)
      have hlater : now ≤ now + min (m.delay s now) (start + timeout - now) :=
        le_add_of_nonneg_right hwait
      have hle : now + min (m.delay s now) (start + timeout - now) ≤ start + timeout := by
        linarith [min_le_right (m.delay s now) (start + timeout - now)]
      have hnone : ∀ x, now ≤ x → x < now + min (m.delay s now) (start + timeout - now) →
          m.avail s x < 1 := by
        intro x hx hxlt
        refine law.avail_lt_of_lt_arrival hs 1 ht hx (hxlt.trans_le ?_)
        exact add_le_add_right (min_le_left _ _) now
      have hnext : 1 ≤ m.avail (m.settle s now) (m.arrival (m.settle s now) n
            (now + min (m.delay s now) (start + timeout - now))) ∨
          start + timeout ≤ m.arrival (m.settle s now) n
            (now + min (m.delay s now) (start + timeout - now)) := by
        rcases le_total (m.delay s now) (start + timeout - now) with hmin | hmin
        · rw [min_eq_left hmin] at hlater ⊢
          rw [law.arrival_settle hs ht n hlater,
            law.avail_settle hs ht (hlater.trans (law.le_arrival hs n (ht.trans hlater)))]
          exact hends
        · rw [min_eq_right hmin, add_sub_cancel] at hlater ⊢
          exact Or.inr (law.le_arrival hvalid n hlater)
      obtain ⟨e, he, hlen, hwell⟩ := ih hvalid hlater (hstart.trans hlater) hle hnext
        (Nat.le_of_add_le_add_right hturns)
      refine ⟨e.after (min (m.delay s now) (start + timeout - now)), ?_, Nat.succ_le_succ hlen,
        hwell.after_sleep law hs ht hlater hnone hle _⟩
      rw [acquireLoop_of_lt_deadline law hs ht hstart hlt hbefore, hsleep _ _ hwait, he]
      rfl

/-! ### A call waits exactly as long as needed -/

/-- **A call waits exactly as long as needed.**  Whatever the configuration, in every run, if a call
of `acquire` or `acquire_async` begins at an instant not before the last query, its sleeps take
exactly as long as they should and nobody else uses the strategy, the call ends after two sleeps at
most.  It returns if and only if an attempt would succeed at some instant up to its deadline; then
it takes one permit, at the first such instant, and returns the time that has passed.  Otherwise it
raises `RateLimitExceeded` at its deadline and has taken none. -/
theorem acquire_waits_exactly (config : RateLimiterConfig) (start : ℚ) (h : History config.State)
    (hr : (config.runs start).Reachable h) (sleep : ℚ → ℚ → ℚ)
    (hsleep : ∀ now d, 0 ≤ d → sleep now d = now + d) (name : String) (t0 : ℚ)
    (ht0 : h.clock ≤ t0) (turns : ℕ) (hturns : 3 ≤ turns) :
    ∃ e, config.acquire sleep name turns h.strategy t0 = some e ∧
      config.acquireAsync sleep name turns h.strategy t0 = some e ∧
      e.sleeps.length ≤ 2 ∧
      ((∃ waited, e.outcome = .ok waited) ↔
        (chances config.strategy h.strategy t0 (t0 + config.timeoutDuration)).Nonempty) ∧
      ((chances config.strategy h.strategy t0 (t0 + config.timeoutDuration)).Nonempty →
        ∃ t, IsLeast (chances config.strategy h.strategy t0 (t0 + config.timeoutDuration)) t ∧
          AcquiredAt config.strategy h.strategy t0 t e) ∧
      (¬ (chances config.strategy h.strategy t0 (t0 + config.timeoutDuration)).Nonempty →
        RejectedAt config.strategy name h.strategy (t0 + config.timeoutDuration) e) := by
  have law := config.lawful
  have hs := config.valid_of_reachable hr
  have hpunctual := law.avail_arrival config.punctual hs ht0
  obtain ⟨e, he, hlen, hwell⟩ := acquireLoop_spec law hsleep name 2 hs ht0 le_rfl
    (le_add_of_nonneg_right config.bounds.2.2) (Or.inl hpunctual) hturns
  rw [← config.strategy_eq] at he hwell
  refine ⟨e, he, he, hlen, ?_⟩
  rcases hwell with ⟨t, hleast, hacquired⟩ | ⟨hempty, hrejected⟩
  · have hchance := hleast.nonempty
    exact ⟨iff_of_true ⟨_, hacquired.outcome_eq⟩ hchance, fun _ => ⟨t, hleast, hacquired⟩,
      fun hnone => absurd hchance hnone⟩
  · have hnone := Set.not_nonempty_iff_eq_empty.2 hempty
    refine ⟨iff_of_false ?_ hnone, fun hchance => absurd hchance hnone, fun _ => hrejected⟩
    rintro ⟨waited, hok⟩
    rw [hrejected.outcome_eq] at hok
    cases hok

/-- Two permits a second by the sliding window, both taken in the middle of the first window.  A
call a quarter of a second later sleeps to the end of the window, finds that the permits of this
window still count in full, and sleeps for another half a second. -/
theorem acquire_waits_exactly_across_windows :
    let config : RateLimiterConfig :=
      { limitForPeriod := 2, limitRefreshPeriod := 1, algorithm := .slidingWindow,
        accepted := by decide +kernel }
    let sleep : ℚ → ℚ → ℚ := fun now d => now + d
    ∃ h : History config.State,
      (config.acquire sleep "api" 3 h.strategy (3 / 4)).map (fun e => e.sleeps) =
        some [1 / 4, 1 / 2] ∧
      ∃ e, config.acquire sleep "api" 3 h.strategy (3 / 4) = some e ∧
        config.acquireAsync sleep "api" 3 h.strategy (3 / 4) = some e ∧
        e.sleeps.length ≤ 2 ∧
        ((∃ waited, e.outcome = .ok waited) ↔
          (chances config.strategy h.strategy (3 / 4)
            (3 / 4 + config.timeoutDuration)).Nonempty) ∧
        ((chances config.strategy h.strategy (3 / 4) (3 / 4 + config.timeoutDuration)).Nonempty →
          ∃ t, IsLeast (chances config.strategy h.strategy (3 / 4)
              (3 / 4 + config.timeoutDuration)) t ∧
            AcquiredAt config.strategy h.strategy (3 / 4) t e) ∧
        (¬ (chances config.strategy h.strategy (3 / 4)
            (3 / 4 + config.timeoutDuration)).Nonempty →
          RejectedAt config.strategy "api" h.strategy (3 / 4 + config.timeoutDuration) e) := by
  intro config sleep
  obtain ⟨h, hr, hh⟩ := Machine.exists_reachable_of_exec (config.runs 0)
    [(.tryAcquire, 1 / 2), (.tryAcquire, 1 / 2)]
    (fun h => decide (h.clock ≤ 3 / 4 ∧
      (config.acquire sleep "api" 3 h.strategy (3 / 4)).map (fun e => e.sleeps) =
        some [1 / 4, 1 / 2])) (by decide +kernel)
  have hh := of_decide_eq_true hh
  exact ⟨h, hh.2, acquire_waits_exactly config 0 h hr sleep (fun _ _ _ => rfl) "api" (3 / 4) hh.1 3
    le_rfl⟩

end RateLimiter
