/-
Callers that compete for the permits of a rate limiter.

However the turns of the calls interleave, the strategy sees one query after the other.  Each query
is assumed to make its readings of the clock at one instant; of `try_acquire` only that of the
sliding window makes more than one.  So what the strategies guarantee carries over to the calls:
every permit that was taken belongs to exactly one call, and the number of calls that take one in an
interval is bounded.  A refused call sleeps for as long as the strategy estimates, and what others
do in the meantime can only make its permit come later, because a permit that has been taken is
gone.  So nobody ever sleeps while there is a permit.

Where sleeps end when they should, a call that was overtaken has been overtaken by a call that took
a permit.  This bounds the number of its turns, and makes it return or raise at its deadline at the
latest.

Main definitions:

* `RateLimiter.Change` — how a step of the callers changes the history;
* `RateLimiter.RateLimiterConfig.ceiling` — the permits that an interval may contain;
* `RateLimiter.OnTime` — the steps of a run in which every sleep ends when it should;
* `RateLimiter.RateLimitAlgorithm.waitsPerPermit` — how often a call sleeps for one permit.

Main results:

* `RateLimiter.calls_are_rate_limited` — **every permit is taken by one call, and an interval has no
  more calls than the ceiling**;
* `RateLimiter.nobody_sleeps_while_there_is_a_permit` — **until its sleep is over, or the announced
  time has passed, there is no permit for a refused call**;
* `RateLimiter.on_time_calls_end` — **a call ends by its deadline, and its turns are bounded by the
  permits that were taken since it began**.
-/

import Pysilience.RateLimiter.Callers
import Pysilience.RateLimiter.Spacing
import Mathlib.Data.Multiset.AddSub

set_option relaxedAutoImplicit false
set_option autoImplicit false

namespace RateLimiter

open ArrivalCurve LazyMeter Python Threads Transition

universe u v w

variable {S : Type u} {V : Type v} {Exc : Type w} {Cls : Type*} [Exceptions Exc Cls]

/-! ### How the history changes -/

/-- What one step of the callers does to the history: nothing, or it settles the strategy, or it
takes a permit. -/
inductive Change (m : Meter S ℚ) (h : History S) : History S → Prop
  | none : Change m h h
  | settled {now : ℚ} {readings : List ℚ} : h.clock ≤ now →
      Change m h ⟨m.settle h.strategy now, now, readings, h.grants⟩
  | taken {now : ℚ} {readings : List ℚ} : h.clock ≤ now → 1 ≤ m.avail h.strategy now →
      Change m h ⟨(m.attempt h.strategy now).2, now, readings, now :: h.grants⟩

variable {m : Meter S ℚ} {Valid : S → ℚ → Prop} {τ : ClockedStrategy S} {name : String}
  {timeout start : ℚ} {h h' : History S} {c c' : Call V Exc} {r : Instants}
  {event : CallEvent V Exc} {e : TurnEnd}

namespace Change

theorem clock_le (hc : Change m h h') : h.clock ≤ h'.clock := by
  cases hc with
  | none => exact le_rfl
  | settled hnow => exact hnow
  | taken hnow _ => exact hnow

theorem grants_le (hc : Change m h h') : h.grants.length ≤ h'.grants.length := by
  cases hc with
  | none => exact le_rfl
  | settled _ => exact le_rfl
  | taken _ _ => exact Nat.le_succ _

theorem valid (hc : Change m h h') (law : m.Lawful Valid) (hs : Valid h.strategy h.clock) :
    Valid h'.strategy h'.clock := by
  cases hc with
  | none => exact hs
  | settled hnow => exact law.settle_valid hs hnow
  | taken hnow _ => exact law.attempt_valid hs hnow

/-- No step adds a permit. -/
theorem avail_le (hc : Change m h h') (law : m.Lawful Valid) (hdim : m.Diminishing Valid)
    (hs : Valid h.strategy h.clock) {x : ℚ} (hx : h'.clock ≤ x) :
    m.avail h'.strategy x ≤ m.avail h.strategy x := by
  cases hc with
  | none => exact le_rfl
  | settled hnow => exact (law.avail_settle hs hnow hx).le
  | taken hnow _ => exact law.avail_attempt_le hdim hs hnow hx

/-- A reading of the permits settles the strategy. -/
theorem of_report (hτ : τ.atOnce = ofMeter m) {r : Readings} (hr : r.Single)
    (hreport : h.report τ r = some h') : Change m h h' := by
  rw [History.report_of_single hr, hτ] at hreport
  obtain ⟨hnow, rfl⟩ := History.step_eq_some hreport
  exact .settled hnow

end Change

/-- A turn takes a permit or settles the strategy. -/
theorem TurnCase.change (hc : TurnCase (ofMeter m) name timeout start h r h' e)
    (law : m.Lawful Valid) (hs : Valid h.strategy h.clock) (hr : h.clock ≤ r.tried) :
    Change m h h' := by
  have hlast := hr.trans (r.le_checked.trans r.le_estimated)
  cases hc with
  | acquired hgranted => exact .taken hr (Meter.attempt_fst.1 hgranted)
  | rejected hrefused _ =>
      rw [refusedTo, estimateOf_eq law hs hr hrefused]
      exact .settled hlast
  | sleep hrefused _ =>
      rw [refusedTo, estimateOf_eq law hs hr hrefused]
      exact .settled hlast

theorem AdvanceCase.change (hc : AdvanceCase (ofMeter m) name timeout h c event h' c')
    (law : m.Lawful Valid) (hs : Valid h.strategy h.clock) : Change m h h' := by
  cases hc with
  | turn _ hr _ hturn => exact hturn.change law hs hr
  | interrupted _ => exact .none
  | moved _ => exact .none
  | observed _ hnow => exact .settled hnow

/-! ### Every permit belongs to a call -/

/-- The instant at which a call took its permit, if it has one. -/
def Call.taken (c : Call V Exc) : List ℚ := (c.phase.grant.map Grant.takenAt).toList

/-- A turn that takes a permit gives it to the call. -/
theorem TurnCase.grants_eq {σ : RateLimitStrategy S} {r : TurnReadings}
    (hc : TurnCase σ name timeout start h r.instants h' e) :
    h'.grants = (c.turned name r e).taken ++ h.grants := by
  rw [Call.taken, Call.turned_phase, TurnEnd.phase_grant]
  cases hc <;> rfl

/-- A call that waits has no permit yet. -/
theorem Call.taken_of_waiting (hw : c.phase.waiting = true) : c.taken = [] := by
  unfold Call.taken
  cases hphase : c.phase <;> simp_all [Phase.waiting, Phase.grant]

/-- What the calls have taken is what the strategy has granted. -/
theorem balanced_grants (V : Type v) {Exc : Type w} {Cls : Type*} [Exceptions Exc Cls]
    (τ : ClockedStrategy S) (name : String) (timeout : ℚ) (init : S) (t0 : ℚ) :
    (callers V τ name timeout init t0 : Team _ (Call V Exc) _ _ _).Balanced SingleReadings
      (fun h => (h.grants : Multiset ℚ)) fun c => (c.taken : Multiset ℚ) where
  init := rfl
  join _ hjoin := by
    cases hjoin
    exact (add_zero _).symm
  advance {_ _ _ c _ _} hsingle _ hadvance := by
    cases callers_cases hsingle hadvance with
    | turn hw _ _ hturn =>
        rw [hturn.grants_eq (c := c), Call.taken_of_waiting hw, Multiset.coe_nil, add_zero,
          ← Multiset.coe_add, add_comm]
    | interrupted hphase => simp [Call.taken, Call.move, Phase.grant, hphase]
    | moved hmoves => simp only [Call.taken, Call.move, hmoves.grant_eq]
    | @observed _ _ outcome hphase _ =>
        cases outcome <;>
          simp [Call.taken, Call.move, Phase.grant, hphase, Ending.executed]
  outside {st r s} hsingle houtside := by
    have hstep : st.shared.report τ r = some s := houtside
    rw [History.report_of_single hsingle] at hstep
    rw [(History.step_eq_some hstep).2]
    rfl

/-- The permits that an interval of length `d` may contain, for `d` up to the period. -/
def RateLimitAlgorithm.ceiling (limit : ℤ) (period d : ℚ) : RateLimitAlgorithm → ℚ
  | tokenBucket => limit + d * (limit / period)
  | leakyBucket => 1 + d * (limit / period)
  | fixedWindow => 2 * limit
  | slidingWindow => limit * (1 + d / period)

/-- The permits that an interval of length `d` may contain, for `d` up to the period. -/
def RateLimiterConfig.ceiling (config : RateLimiterConfig) (d : ℚ) : ℚ :=
  config.algorithm.ceiling config.limitForPeriod config.limitRefreshPeriod d

variable {limit : ℤ} {period t0 : ℚ}

/-- Every permit is taken at a reading of the clock. -/
theorem grants_subset_readings {σ : RateLimitStrategy S} {init : S}
    (hr : (runs σ init t0).Reachable h) : ∀ x ∈ h.grants, x ∈ h.readings := by
  refine hr.invariant (I := fun h => ∀ x ∈ h.grants, x ∈ h.readings) nofun ?_
  rintro h ⟨query, now⟩ h' hi hstep
  obtain ⟨_, rfl⟩ := History.step_eq_some hstep
  intro x hx
  rcases ite_eq_or_eq (σ.ask h.strategy now query).1 (now :: h.grants) h.grants with heq | heq
  · rcases List.mem_cons.1 (heq ▸ hx) with rfl | hx
    · exact List.mem_cons_self
    · exact List.mem_cons_of_mem _ (hi x hx)
  · exact List.mem_cons_of_mem _ (hi x (heq ▸ hx))

/-- The leaky bucket keeps its permits apart in every run. -/
theorem keptApart_of_reachable (hl : 1 ≤ limit) (hp : 0 < period) {h : History LeakyBucketStrategy}
    (hr : (runs leakyBucket (LeakyBucketStrategy.init limit period t0) t0).Reachable h) :
    KeptApart limit period h := by
  rw [leakyBucket_eq] at hr
  exact (keptApart_keptByMeter hl hp).reachable (KeptApart.start limit period t0) hr

/-- Whichever the algorithm, an interval no longer than the period contains no more permits than the
ceiling. -/
theorem grantsIn_le_ceiling (hl : 1 ≤ limit) (hp : 0 < period) (algorithm : RateLimitAlgorithm)
    {h : History algorithm.State}
    (hr : (runs algorithm.strategy (algorithm.create limit period t0) t0).Reachable h) {a d : ℚ}
    (hd : 0 ≤ d) (hdp : d ≤ period) :
    (grantsIn h.grants a (a + d) : ℚ) ≤ algorithm.ceiling limit period d := by
  have hle : a ≤ a + d := le_add_of_nonneg_right hd
  have hlen : a + d - a = d := add_sub_cancel_left a d
  cases algorithm with
  | tokenBucket =>
      have hi := metered_of_reachable hl hp hr
      have hcurve := grantsIn_le_of_readings (hi.metered.nonneg.trans hi.metered.level_le)
        (rate_nonneg hl hp) (grants_subset_readings hr) hi.metered.conforms hle
      rwa [hlen] at hcurve
  | leakyBucket =>
      have hinterval := interval_pos hl hp
      have hcurve := (keptApart_of_reachable hl hp hr).spaced.grantsIn_mul_le hinterval.le hle
      rw [hlen, ← le_div_iff₀ hinterval, add_div, div_self hinterval.ne',
        add_comm (d / _)] at hcurve
      rwa [RateLimitAlgorithm.ceiling, mul_div_assoc', ← div_div_eq_mul_div]
  | fixedWindow =>
      have hi := fixedInv_of_reachable hl hp hr
      have hcount := AlignedWindows.grantsIn_le_two_mul hp hi.bounded_toNat (hlen.le.trans hdp)
      have hnat : (limit.toNat : ℤ) = limit := Int.toNat_of_nonneg (by omega)
      have hcast : (grantsIn h.grants a (a + d) : ℚ) ≤ 2 * ((limit.toNat : ℤ) : ℚ) := by
        exact_mod_cast hcount
      rwa [hnat] at hcast
  | slidingWindow =>
      have hcurve := (windowInv_of_reachable hl hp hr).conforms a (a + d) hle (hlen.le.trans hdp)
      rwa [hlen] at hcurve

/-- The steps of the callers are queries of the strategy. -/
theorem runs_of_callers (V : Type v) {Exc : Type w} {Cls : Type*} [Exceptions Exc Cls]
    (τ : ClockedStrategy S) (name : String) (timeout : ℚ) (init : S) (t0 : ℚ) :
    (callers V τ name timeout init t0 : Team _ (Call V Exc) _ _ _).Annotated SingleReadings
      (fun h => (runs τ.atOnce init t0).Reachable h) fun _ _ _ => True where
  init := ⟨[], .nil⟩
  join _ hr hjoin := by
    cases hjoin
    exact ⟨hr, trivial, fun _ _ _ _ => trivial⟩
  advance hsingle hr _ _ hadvance := by
    refine ⟨?_, trivial, fun _ _ _ _ _ => trivial⟩
    cases callers_cases hsingle hadvance with
    | turn _ ht _ hturn => exact hturn.reachable hr ht
    | interrupted _ => exact hr
    | moved _ => exact hr
    | observed _ hnow => exact hr.step (History.step_of_le .permits hnow)
  outside {st r s} hsingle hr houtside := by
    have hstep : st.shared.report τ r = some s := houtside
    rw [History.report_of_single hsingle] at hstep
    exact ⟨hr.step hstep, fun _ _ _ _ => trivial⟩

/-- The permits of some calls, each once. -/
theorem sum_taken (l : List (Call V Exc)) :
    (l.map fun c => (c.taken : Multiset ℚ)).sum = (l.flatMap Call.taken : Multiset ℚ) := by
  induction l with
  | nil => rfl
  | cons c l ih => rw [List.map_cons, List.sum_cons, ih, List.flatMap_cons, Multiset.coe_add]

/-- Calls are counted by the permits they took. -/
theorem countP_taken (p : ℚ → Bool) (l : List (Call V Exc)) :
    (l.countP fun c => c.taken.any p) = (l.flatMap Call.taken).countP p := by
  induction l with
  | nil => rfl
  | cons c l ih =>
      rw [List.countP_cons, List.flatMap_cons, List.countP_append, ih, add_comm]
      congr 1
      unfold Call.taken
      cases c.phase.grant with
      | none => rfl
      | some g => simp [List.countP_cons]

/-- **Every permit is taken by one call, and calls are rate limited.**  Let each query of the
strategy make its readings of the clock at one instant.  However the calls of any number of threads
and coroutines interleave, the strategy is in a state of one of its runs, the permits that it
granted are those that the calls took, each taken by exactly one of them, and the calls that took a
permit in an interval, no longer than the period, are no more than the ceiling of the algorithm. -/
theorem calls_are_rate_limited (config : RateLimiterConfig) (name : String) (t0 : ℚ)
    (as : List (Threads.Action Invocation (CallEvent V Exc) Readings))
    (st : Threads.State (History config.State) (Call V Exc))
    (hr : (config.callers V name t0).machine.Run SingleReadings as st) :
    (config.runs t0).Reachable st.shared ∧
    (st.parties.flatMap Call.taken).Perm st.shared.grants ∧
    ∀ a d, 0 ≤ d → d ≤ config.limitRefreshPeriod →
      ((st.parties.countP fun c => c.taken.any fun t => a ≤ t ∧ t ≤ a + d : ℕ) : ℚ) ≤
        config.ceiling d := by
  have hhistory : (config.runs t0).Reachable st.shared := by
    have hreachable :=
      ((runs_of_callers V config.clocked name config.timeoutDuration _ t0).run hr).1
    rwa [config.clocked_atOnce] at hreachable
  have hperm : (st.parties.flatMap Call.taken).Perm st.shared.grants := by
    have hbalance := (balanced_grants V config.clocked name config.timeoutDuration _ t0).run hr
    rw [sum_taken] at hbalance
    exact Multiset.coe_eq_coe.1 hbalance
  refine ⟨hhistory, hperm, fun a d hd hdp => ?_⟩
  rw [countP_taken, hperm.countP_eq]
  exact grantsIn_le_ceiling config.bounds.1 config.bounds.2.1 config.algorithm hhistory hd hdp

/-- Two permits a second by the token bucket. -/
def twoASecond : RateLimiterConfig where
  limitForPeriod := 2
  limitRefreshPeriod := 1
  accepted := by decide +kernel

/-- Of three calls that begin at once the last one is refused, sleeps for half a second and takes
the permit that has accrued. -/
theorem calls_are_rate_limited_after_burst :
    ∃ st : Threads.State (History twoASecond.State) (Call ℕ Builtin),
      st.parties.flatMap Call.taken = [0, 0, 1 / 2] ∧
      (twoASecond.runs 0).Reachable st.shared ∧
      (st.parties.flatMap Call.taken).Perm st.shared.grants ∧
      ∀ a d, 0 ≤ d → d ≤ twoASecond.limitRefreshPeriod →
        ((st.parties.countP fun c => c.taken.any fun t => a ≤ t ∧ t ≤ a + d : ℕ) : ℚ) ≤
          twoASecond.ceiling d := by
  obtain ⟨st, hr, hst⟩ := Machine.exists_run_of_exec
    (twoASecond.callers ℕ "api" 0 : Team _ (Call ℕ Builtin) _ _ _).machine
    (fun st a => decide (SingleReadings st a)) (fun _ _ h => of_decide_eq_true h)
    [.join ⟨.acquire, 0⟩, .join ⟨.execute, 0⟩, .join ⟨.executeAsync, 0⟩,
      .advance 0 (.turn (.at 0)), .advance 1 (.turn (.at 0)), .advance 2 (.turn (.at 0)),
      .advance 1 (.finish (.ok 7)), .advance 2 (.turn (.at (1 / 2)))]
    (fun st => decide (st.parties.flatMap Call.taken = [0, 0, 1 / 2])) (by decide +kernel)
  exact ⟨st, of_decide_eq_true hst, calls_are_rate_limited twoASecond "api" 0 _ st hr⟩

/-! ### No permit is slept through -/

/-- What the strategy told a call that it refused still holds: there is no permit before the call
wakes up, or before the announced time has passed. -/
structure StillTrue (m : Meter S ℚ) (h : History S) (c : Call V Exc) : Prop where
  asleep : ∀ due, c.phase = .sleeping due → ∀ x, h.clock ≤ x → x < due → m.avail h.strategy x < 1
  announced : ∀ err, c.phase.rejection = some err → ∃ r wait, c.last = some r ∧
    err.waitTime = some wait ∧
    ∀ x, h.clock ≤ x → x < r.instants.estimated + wait → m.avail h.strategy x < 1

/-- What others do can only make the permit come later. -/
theorem StillTrue.change (ht : StillTrue m h c) (hc : Change m h h') (law : m.Lawful Valid)
    (hdim : m.Diminishing Valid) (hs : Valid h.strategy h.clock) : StillTrue m h' c where
  asleep due hdue x hx hlt :=
    (hc.avail_le law hdim hs hx).trans_lt (ht.asleep due hdue x (hc.clock_le.trans hx) hlt)
  announced err herr := by
    obtain ⟨r, wait, hlast, hwait, hnone⟩ := ht.announced err herr
    refine ⟨r, wait, hlast, hwait, fun x hx hlt => ?_⟩
    exact (hc.avail_le law hdim hs hx).trans_lt (hnone x (hc.clock_le.trans hx) hlt)

/-- There is no permit before the wait that a refused turn estimates is over. -/
theorem avail_refusedTo (law : m.Lawful Valid) (hs : Valid h.strategy h.clock)
    (hr : h.clock ≤ r.tried) (hrefused : ((ofMeter m).tryAcquire h.strategy r.tried).1 = false)
    {x : ℚ} (hx : r.estimated ≤ x) (hlt : x < r.estimated + (estimateOf (ofMeter m) h r).1) :
    m.avail (refusedTo (ofMeter m) h r).strategy x < 1 := by
  have hlast := hr.trans (r.le_checked.trans r.le_estimated)
  rw [estimateOf_eq law hs hr hrefused] at hlt
  rw [refusedTo, estimateOf_eq law hs hr hrefused]
  exact law.early (law.settle_valid hs hlast) hx hlt

theorem TurnCase.stillTrue {r : TurnReadings}
    (hc : TurnCase (ofMeter m) name timeout start h r.instants h' e) (law : m.Lawful Valid)
    (hs : Valid h.strategy h.clock) (hr : h.clock ≤ r.instants.tried) :
    StillTrue m h' (c.turned name r e) := by
  cases hc with
  | acquired _ => constructor <;> simp [TurnEnd.rejection]
  | rejected hrefused _ =>
      refine ⟨by simp, fun err herr => ?_⟩
      rw [Call.turned_phase, TurnEnd.phase_rejection] at herr
      cases herr
      exact ⟨r, _, rfl, rfl, fun x => avail_refusedTo law hs hr hrefused⟩
  | sleep hrefused _ =>
      refine ⟨fun due hdue x hx hlt => ?_, by simp [TurnEnd.rejection]⟩
      rw [Call.turned_phase, TurnEnd.phase_eq_sleeping] at hdue
      cases hdue
      refine avail_refusedTo law hs hr hrefused hx (hlt.trans_le ?_)
      exact add_le_add_right (min_le_left _ _) _

/-- Every step of a call leaves what it was told true. -/
theorem AdvanceCase.stillTrue (ha : AdvanceCase (ofMeter m) name timeout h c event h' c')
    (ht : StillTrue m h c) (law : m.Lawful Valid) (hs : Valid h.strategy h.clock) :
    StillTrue m h' c' := by
  cases ha with
  | turn _ hr _ hturn => exact hturn.stillTrue law hs hr
  | interrupted _ => exact ⟨nofun, nofun⟩
  | @moved _ phase hmoves =>
      refine ⟨fun due hdue => ?_, fun err herr => ht.announced err (hmoves.rejection err herr)⟩
      have hwaiting : phase.waiting = true := congrArg Phase.waiting hdue
      exact absurd (hmoves.waiting_eq.symm.trans hwaiting) Bool.false_ne_true
  | @observed _ _ outcome hphase _ => cases outcome <;> exact ⟨nofun, nofun⟩

/-- Whatever happens, what the refused calls were told stays true. -/
theorem stillTrue_annotated (V : Type v) {Exc : Type w} {Cls : Type*} [Exceptions Exc Cls]
    (hτ : τ.atOnce = ofMeter m) (law : m.Lawful Valid) (hdim : m.Diminishing Valid) {init : S}
    (t0 : ℚ) (h0 : Valid init t0) (name : String) (timeout : ℚ) :
    (callers V τ name timeout init t0 : Team _ (Call V Exc) _ _ _).Annotated
      SingleReadings (fun h => Valid h.strategy h.clock) (fun h _ => StillTrue m h) where
  init := h0
  join _ hs hjoin := by
    cases hjoin
    exact ⟨hs, ⟨nofun, nofun⟩, fun _ _ _ hq => hq⟩
  advance hsingle hs _ hq hadvance := by
    have ha := hτ ▸ callers_cases hsingle hadvance
    have hchange := ha.change law hs
    exact ⟨hchange.valid law hs, ha.stillTrue hq law hs,
      fun _ _ _ _ hq => hq.change hchange law hdim hs⟩
  outside hsingle hs houtside := by
    have hchange := Change.of_report hτ hsingle houtside
    exact ⟨hchange.valid law hs, fun _ _ _ hq => hq.change hchange law hdim hs⟩

/-- **Nobody sleeps while there is a permit.**  Let each query of the strategy make its readings of
the clock at one instant.  However the calls interleave and however late they wake up: while a call
sleeps, no attempt would succeed before its sleep, counted from the estimate of the wait, is over;
and while a rejected call could still be waiting for as long as its exception says, counted in the
same way, no attempt would succeed. -/
theorem nobody_sleeps_while_there_is_a_permit (config : RateLimiterConfig) (name : String) (t0 : ℚ)
    (as : List (Threads.Action Invocation (CallEvent V Exc) Readings))
    (st : Threads.State (History config.State) (Call V Exc))
    (hr : (config.callers V name t0).machine.Run SingleReadings as st) (c : Call V Exc)
    (hc : c ∈ st.parties) :
    (∀ due, c.phase = .sleeping due → ∀ x, st.shared.clock ≤ x → x < due →
      (config.strategy.tryAcquire st.shared.strategy x).1 = false) ∧
    ∀ err, c.phase.rejection = some err → ∃ r wait, c.last = some r ∧ err.waitTime = some wait ∧
      ∀ x, st.shared.clock ≤ x → x < r.instants.estimated + wait →
        (config.strategy.tryAcquire st.shared.strategy x).1 = false := by
  obtain ⟨i, hi⟩ := List.mem_iff_getElem?.1 hc
  have htrue := ((stillTrue_annotated V (config.clocked_atOnce.trans config.strategy_eq)
    config.lawful config.diminishing t0 (config.valid_createStrategy t0) name
    config.timeoutDuration).run hr).2 i c hi
  rw [config.strategy_eq]
  refine ⟨fun due hdue x hx hlt => Meter.attempt_fst_eq_false.2 (htrue.asleep due hdue x hx hlt),
    fun err herr => ?_⟩
  obtain ⟨r, wait, hlast, hwait, hnone⟩ := htrue.announced err herr
  exact ⟨r, wait, hlast, hwait, fun x hx hlt => Meter.attempt_fst_eq_false.2 (hnone x hx hlt)⟩

/-- One permit a second by the leaky bucket.  A call that is refused at the instant one half is told
to sleep until one; another call takes the permit at this instant before it wakes up. -/
theorem nobody_sleeps_while_there_is_a_permit_overtaken :
    let config : RateLimiterConfig :=
      { limitForPeriod := 1, limitRefreshPeriod := 1, algorithm := .leakyBucket,
        accepted := by decide +kernel }
    ∃ (st : Threads.State (History config.State) (Call ℕ Builtin)) (c : Call ℕ Builtin),
      c ∈ st.parties ∧ c.phase = .sleeping 1 ∧ st.shared.grants = [1, 0] ∧
      (∀ due, c.phase = .sleeping due → ∀ x, st.shared.clock ≤ x → x < due →
        (config.strategy.tryAcquire st.shared.strategy x).1 = false) ∧
      ∀ err, c.phase.rejection = some err → ∃ r wait, c.last = some r ∧
        err.waitTime = some wait ∧ ∀ x, st.shared.clock ≤ x → x < r.instants.estimated + wait →
          (config.strategy.tryAcquire st.shared.strategy x).1 = false := by
  intro config
  obtain ⟨st, hr, hst⟩ := Machine.exists_run_of_exec
    (config.callers ℕ "api" 0 : Team _ (Call ℕ Builtin) _ _ _).machine
    (fun st a => decide (SingleReadings st a)) (fun _ _ h => of_decide_eq_true h)
    [.join ⟨.acquire, 0⟩, .advance 0 (.turn (.at 0)), .join ⟨.execute, 1 / 2⟩,
      .advance 1 (.turn (.at (1 / 2))), .join ⟨.acquireAsync, 1⟩, .advance 2 (.turn (.at 1))]
    (fun st => decide (st.shared.grants = [1, 0] ∧
      (st.parties[1]?.bind fun c : Call ℕ Builtin => c.phase.sleepsUntil) = some 1))
    (by decide +kernel)
  obtain ⟨hgrants, hphase⟩ := of_decide_eq_true hst
  obtain ⟨c, hc, hdue⟩ := Option.bind_eq_some_iff.1 hphase
  have hmem := List.mem_of_getElem? hc
  exact ⟨st, c, hmem, Phase.sleepsUntil_eq_some hdue, hgrants,
    nobody_sleeps_while_there_is_a_permit config "api" 0 _ st hr c hmem⟩

/-! ### Calls that wake up when they should -/

/-- The instant at which a call means to take its next turn. -/
def Call.appointment (c : Call V Exc) : Option ℚ :=
  match c.phase with
  | .requesting => some c.start
  | .sleeping due => some due
  | _ => none

/-- The instants of the first and of the last query of a step. -/
def instants : Threads.Action Invocation (CallEvent V Exc) Readings → List ℚ
  | .join a => [a.start]
  | .advance _ (.turn r) => [r.instants.tried, r.instants.estimated]
  | .advance _ (.observe r) => [r.first]
  | .advance _ _ => []
  | .outside r => [r.first]

/-- A call takes its turn exactly when it means to. -/
def AtAppointment (st : Threads.State (History S) (Call V Exc)) :
    Threads.Action Invocation (CallEvent V Exc) Readings → Prop
  | .advance i (.turn r) => ∀ c ∈ st.parties[i]?, c.appointment = some r.instants.tried
  | _ => True

/-- A step is on time: each of its queries makes its readings at one instant, the clock does not run
backwards, no appointment has passed when the step is made, and a call takes its turn exactly when
it means to. -/
structure OnTime (st : Threads.State (History S) (Call V Exc))
    (a : Threads.Action Invocation (CallEvent V Exc) Readings) : Prop where
  single : SingleReadings st a
  clock_le : ∀ now ∈ instants a, st.shared.clock ≤ now
  kept : ∀ now ∈ instants a, ∀ c ∈ st.parties, ∀ due ∈ c.appointment, now ≤ due
  turn : AtAppointment st a

instance (st : Threads.State (History S) (Call V Exc)) :
    (a : Threads.Action Invocation (CallEvent V Exc) Readings) → Decidable (AtAppointment st a)
  | .advance i (.turn r) =>
      inferInstanceAs (Decidable (∀ c ∈ st.parties[i]?, c.appointment = some r.instants.tried))
  | .advance _ (.interrupted _) | .advance _ (.finish _) | .advance _ (.observe _)
  | .advance _ (.emitted _) | .join _ | .outside _ => isTrue trivial

instance (st : Threads.State (History S) (Call V Exc))
    (a : Threads.Action Invocation (CallEvent V Exc) Readings) : Decidable (OnTime st a) :=
  decidable_of_iff (SingleReadings st a ∧ (∀ now ∈ instants a, st.shared.clock ≤ now) ∧
      (∀ now ∈ instants a, ∀ c ∈ st.parties, ∀ due ∈ c.appointment, now ≤ due) ∧
      AtAppointment st a)
    ⟨fun ⟨hsingle, hclock, hkept, hturn⟩ => ⟨hsingle, hclock, hkept, hturn⟩,
      fun h => ⟨h.single, h.clock_le, h.kept, h.turn⟩⟩

/-- The number of turns that a call may have taken in vain: `waits` for each permit that was taken
since it began, and `waits` for its own. -/
def Call.patience (waits : ℕ) (h : History S) (c : Call V Exc) : ℕ :=
  waits * (h.grants.length - c.grantsBefore + 1)

/-- There will be a permit after `n` more waits from the instant `due` on, and this is in time for
the patience of a call. -/
def Call.Promised (m : Meter S ℚ) (waits : ℕ) (h : History S) (c : Call V Exc) (due : ℚ) (n : ℕ) :
    Prop :=
  c.turns + n ≤ c.patience waits h ∧ 1 ≤ m.avail h.strategy (m.arrival h.strategy n due)

/-- A call of a run in which all steps are on time. -/
structure CallOnTime (m : Meter S ℚ) (timeout : ℚ) (waits : ℕ) (h : History S) (c : Call V Exc) :
    Prop where
  grantsBefore_le : c.grantsBefore ≤ h.grants.length
  turns_le : c.turns ≤ c.patience waits h + 1
  appointment_le : ∀ due ∈ c.appointment, h.clock ≤ due ∧ due ≤ c.start + timeout
  requesting : c.phase = .requesting → c.turns = 0
  sleeping : ∀ due, c.phase = .sleeping due → c.turns ≤ c.patience waits h ∧
    (due = c.start + timeout ∨ ∃ n, c.Promised m waits h due n)
  granted : ∀ g, c.phase.grant = some g →
    g.takenAt = c.start + g.waited ∧ 0 ≤ g.waited ∧ g.waited ≤ timeout
  rejected : ∀ err, c.phase.rejection = some err →
    ∃ r, c.last = some r ∧ r.instants.tried = c.start + timeout

variable {waits : ℕ}

/-- One more permit gives `waits` more turns. -/
theorem Call.patience_cons {x : ℚ} (hc : c.grantsBefore ≤ h.grants.length)
    (hg : h'.grants = x :: h.grants) :
    c.patience waits h' = c.patience waits h + waits := by
  have hlen : h'.grants.length - c.grantsBefore = h.grants.length - c.grantsBefore + 1 := by
    rw [hg, List.length_cons]
    omega
  rw [Call.patience, Call.patience, hlen, Nat.mul_succ]

/-- The patience does not shrink. -/
theorem Call.patience_le (hc : Change m h h') : c.patience waits h ≤ c.patience waits h' := by
  have hgrants := hc.grants_le
  exact Nat.mul_le_mul le_rfl (by omega)

/-- What was promised is kept, or promised anew where somebody else has taken the permit. -/
theorem Call.Promised.change {due : ℚ} {n : ℕ} (hp : c.Promised m waits h due n)
    (hc : Change m h h') (law : m.Lawful Valid) (hpunctual : m.Punctual Valid waits)
    (hs : Valid h.strategy h.clock) (hbefore : c.grantsBefore ≤ h.grants.length)
    (hturns : c.turns ≤ c.patience waits h) (hdue : h'.clock ≤ due) :
    ∃ n, c.Promised m waits h' due n := by
  cases hc with
  | none => exact ⟨n, hp⟩
  | settled hnow =>
      refine ⟨n, hp.1, ?_⟩
      rw [law.arrival_settle hs hnow n hdue,
        law.avail_settle hs hnow (hdue.trans (law.le_arrival hs n (hnow.trans hdue)))]
      exact hp.2
  | taken hnow _ =>
      refine ⟨waits, ?_, law.avail_arrival hpunctual (law.attempt_valid hs hnow) hdue⟩
      rw [Call.patience_cons hbefore rfl]
      exact Nat.add_le_add_right hturns waits

/-- The others leave a call on time. -/
theorem CallOnTime.change (hq : CallOnTime m timeout waits h c) (hc : Change m h h')
    (law : m.Lawful Valid) (hpunctual : m.Punctual Valid waits) (hs : Valid h.strategy h.clock)
    (hdue : ∀ due ∈ c.appointment, h'.clock ≤ due) : CallOnTime m timeout waits h' c where
  grantsBefore_le := hq.grantsBefore_le.trans hc.grants_le
  turns_le := hq.turns_le.trans (Nat.succ_le_succ (Call.patience_le hc))
  appointment_le due h := ⟨hdue due h, (hq.appointment_le due h).2⟩
  requesting := hq.requesting
  sleeping due hphase := by
    have happointment : due ∈ c.appointment := by simp [Call.appointment, hphase]
    obtain ⟨hturns, hends⟩ := hq.sleeping due hphase
    refine ⟨hturns.trans (Call.patience_le hc), hends.imp_right ?_⟩
    rintro ⟨n, hp⟩
    exact hp.change hc law hpunctual hs hq.grantsBefore_le hturns (hdue due happointment)
  granted := hq.granted
  rejected := hq.rejected

/-- A call that means to take a turn at the instant `now` has not run out of patience, and unless
this is its deadline there is a permit after some more waits. -/
theorem CallOnTime.promised (hq : CallOnTime m timeout waits h c) (law : m.Lawful Valid)
    (hpunctual : m.Punctual Valid waits) (hs : Valid h.strategy h.clock) {now : ℚ}
    (hat : c.appointment = some now) : c.turns ≤ c.patience waits h ∧
      (now = c.start + timeout ∨ ∃ n, c.Promised m waits h now n) := by
  have hnow := (hq.appointment_le now hat).1
  unfold Call.appointment at hat
  split at hat
  · next hphase =>
    have hturns := hq.requesting hphase
    refine ⟨by omega, Or.inr ⟨waits, ?_, law.avail_arrival hpunctual hs hnow⟩⟩
    rw [hturns, zero_add]
    exact Nat.le_mul_of_pos_right waits (Nat.succ_pos _)
  · next due hphase =>
    cases hat
    exact hq.sleeping now hphase
  · cases hat

/-- A call that sleeps on after a turn in vain keeps its promise, or sleeps until its deadline. -/
theorem Call.Promised.sleepOn {now : ℚ} {n : ℕ} (hp : c.Promised m waits h now n)
    (law : m.Lawful Valid) (hs : Valid h.strategy h.clock) (hnow : h.clock ≤ now)
    (hnone : m.avail h.strategy now < 1) :
    c.turns + 1 ≤ c.patience waits h ∧ ∃ k, c.turns + 1 + k ≤ c.patience waits h ∧
      1 ≤ m.avail (m.settle h.strategy now)
        (m.arrival (m.settle h.strategy now) k (now + m.delay h.strategy now)) := by
  obtain ⟨hturns, havail⟩ := hp
  cases n with
  | zero => exact absurd havail (not_le.2 hnone)
  | succ k =>
      have hle := law.le_add_delay hs hnow
      have harrival := law.le_arrival hs k (hnow.trans hle)
      refine ⟨by omega, k, by omega, ?_⟩
      rw [law.arrival_settle hs hnow k hle, law.avail_settle hs hnow (hle.trans harrival)]
      exact havail

/-- A turn that is taken on time leaves the call on time. -/
theorem CallOnTime.turned (hq : CallOnTime m timeout waits h c) {r : TurnReadings}
    (hturn : TurnCase (ofMeter m) name timeout c.start h r.instants h' e) (law : m.Lawful Valid)
    (hpunctual : m.Punctual Valid waits) (hs : Valid h.strategy h.clock)
    (hat : c.appointment = some r.instants.tried)
    (hlast : r.instants.estimated = r.instants.tried) (hstart : c.start ≤ r.instants.tried) :
    CallOnTime m timeout waits h' (c.turned name r e) := by
  have hchecked : r.instants.checked = r.instants.tried :=
    le_antisymm (r.instants.le_estimated.trans hlast.le) r.instants.le_checked
  obtain ⟨hnow, hdeadline⟩ := hq.appointment_le _ hat
  obtain ⟨hturns, hpromised⟩ := hq.promised law hpunctual hs hat
  have hchange := hturn.change law hs hnow
  have hpatience : c.patience waits h ≤ (c.turned name r e).patience waits h' :=
    Call.patience_le hchange
  refine ⟨hq.grantsBefore_le.trans hchange.grants_le, Nat.succ_le_succ (hturns.trans hpatience),
    ?_, by simp, ?_, ?_, ?_⟩
  · intro due hdue
    cases hturn with
    | acquired _ => cases hm : c.method <;> simp [Call.appointment, TurnEnd.phase, hm,
        Method.executes] at hdue
    | rejected _ _ => cases hm : c.method <;> simp [Call.appointment, TurnEnd.phase, hm,
        Method.executes] at hdue
    | sleep hrefused hbefore =>
        cases hdue
        rw [estimateOf_eq law hs hnow hrefused]
        have hwait := law.delay_nonneg hs (hnow.trans hlast.ge)
        have hmin := min_le_right (m.delay h.strategy r.instants.estimated)
          (c.start + timeout - r.instants.checked)
        have hnonneg : 0 ≤ min (m.delay h.strategy r.instants.estimated)
            (c.start + timeout - r.instants.checked) :=
          le_min hwait (sub_nonneg.2 hbefore.le)
        refine ⟨le_add_of_nonneg_right hnonneg, ?_⟩
        simp only [Call.turned]
        linarith
  · intro due hdue
    rw [Call.turned_phase, TurnEnd.phase_eq_sleeping] at hdue
    subst hdue
    cases hturn with
    | sleep hrefused hbefore =>
        rw [hchecked] at hbefore
        obtain ⟨n, hp⟩ := hpromised.resolve_left hbefore.ne
        obtain ⟨hmore, k, hk, havail⟩ :=
          hp.sleepOn law hs hnow (Meter.attempt_fst_eq_false.1 hrefused)
        refine ⟨hmore, ?_⟩
        rw [estimateOf_eq law hs hnow hrefused, hchecked, hlast]
        rcases le_total (m.delay h.strategy r.instants.tried)
          (c.start + timeout - r.instants.tried) with hmin | hmin
        · refine Or.inr ⟨k, hk, ?_⟩
          rw [min_eq_left hmin, refusedTo, estimateOf_eq law hs hnow hrefused, hlast]
          exact havail
        · rw [min_eq_right hmin]
          exact Or.inl (add_sub_cancel _ _)
  · intro g hg
    rw [Call.turned_phase, TurnEnd.phase_grant] at hg
    cases hturn with
    | acquired _ =>
        cases hg
        simp only [hchecked, Call.turned]
        exact ⟨(add_sub_cancel _ _).symm, sub_nonneg.2 hstart, by linarith⟩
    | rejected _ _ => cases hg
    | sleep _ _ => cases hg
  · intro err herr
    rw [Call.turned_phase, TurnEnd.phase_rejection] at herr
    refine ⟨r, rfl, ?_⟩
    cases hturn with
    | acquired _ => cases herr
    | rejected _ hends =>
        refine le_antisymm hdeadline ?_
        rcases hends with hzero | hends
        · rwa [hzero, add_zero]
        · rwa [hchecked] at hends
    | sleep _ _ => cases herr

/-- A call that has its permit, or has been rejected, stays on time. -/
theorem CallOnTime.movesOn (hq : CallOnTime m timeout waits h c) {phase : Phase V Exc}
    (hwaiting : phase.waiting = false) (hgrant : ∀ g, phase.grant = some g → c.phase.grant = some g)
    (hrejection : ∀ err, phase.rejection = some err → c.phase.rejection = some err) :
    CallOnTime m timeout waits h (c.move phase) where
  grantsBefore_le := hq.grantsBefore_le
  turns_le := hq.turns_le
  appointment_le due hdue := by
    cases phase with
    | requesting => cases hwaiting
    | sleeping _ => cases hwaiting
    | _ => cases hdue
  requesting hphase := by
    obtain rfl : phase = .requesting := hphase
    cases hwaiting
  sleeping due hphase := by
    obtain rfl : phase = .sleeping due := hphase
    cases hwaiting
  granted g hg := hq.granted g (hgrant g hg)
  rejected err herr := hq.rejected err (hrejection err herr)

/-- The clock shows what a step reads. -/
theorem AdvanceCase.clock_mem {σ : RateLimitStrategy S} {i : ℕ}
    (ha : AdvanceCase σ name timeout h c event h' c') :
    h' = h ∨ h'.clock ∈ instants (.advance i event) := by
  cases ha with
  | turn _ _ _ hturn =>
      refine Or.inr ?_
      cases hturn <;> simp [instants, takenBy, refusedTo]
  | interrupted _ => exact Or.inl rfl
  | moved _ => exact Or.inl rfl
  | observed _ _ => exact Or.inr (List.mem_singleton_self _)

/-- A step of a call that takes its turns on time leaves it on time. -/
theorem AdvanceCase.callOnTime (ha : AdvanceCase (ofMeter m) name timeout h c event h' c')
    (hq : CallOnTime m timeout waits h c) (law : m.Lawful Valid)
    (hpunctual : m.Punctual Valid waits) (hs : Valid h.strategy h.clock)
    (hat : ∀ r, event = .turn r →
      c.appointment = some r.instants.tried ∧ r.instants.estimated = r.instants.tried) :
    CallOnTime m timeout waits h' c' := by
  cases ha with
  | @turn r _ _ _ _ hstart hturn =>
      obtain ⟨happointment, hlast⟩ := hat r rfl
      exact hq.turned hturn law hpunctual hs happointment hlast hstart
  | interrupted _ => exact hq.movesOn rfl nofun nofun
  | moved hmoves =>
      refine hq.movesOn hmoves.waiting_eq (fun g hg => ?_) hmoves.rejection
      rwa [← hmoves.grant_eq]
  | @observed r _ outcome hphase hnow =>
      have hdone : ∀ due ∈ c.appointment, r.first ≤ due := by simp [Call.appointment, hphase]
      refine (hq.change (.settled hnow) law hpunctual hs hdone).movesOn rfl (fun g hg => ?_)
        (by cases outcome <;> nofun)
      rw [hphase]
      cases outcome <;> exact hg

/-- In a run in which all steps are on time, all calls are. -/
theorem onTime_annotated (V : Type v) {Exc : Type w} {Cls : Type*} [Exceptions Exc Cls]
    (hτ : τ.atOnce = ofMeter m) (law : m.Lawful Valid) (hpunctual : m.Punctual Valid waits)
    {init : S} (t0 : ℚ) (h0 : Valid init t0) (name : String) (htimeout : 0 ≤ timeout) :
    (callers V τ name timeout init t0 : Team _ (Call V Exc) _ _ _).Annotated
      OnTime (fun h => Valid h.strategy h.clock) (fun h _ => CallOnTime m timeout waits h) where
  init := h0
  join {_ a _ _} hok hs hjoin := by
    cases hjoin
    refine ⟨hs, ⟨le_rfl, Nat.zero_le _, ?_, fun _ => rfl, nofun, nofun, nofun⟩,
      fun _ _ _ hq => hq⟩
    intro due hdue
    cases hdue
    exact ⟨hok.clock_le a.start (List.mem_singleton_self _), le_add_of_nonneg_right htimeout⟩
  advance {st i event c h' c'} hok hs hc hq hadvance := by
    have ha := hτ ▸ callers_cases hok.single hadvance
    have hchange := ha.change law hs
    refine ⟨hchange.valid law hs, ha.callOnTime hq law hpunctual hs ?_,
      fun j q _ hj hq => ?_⟩
    · rintro r rfl
      have hat : c.appointment = some r.instants.tried := hok.turn c hc
      have hlast : r.instants.estimated ≤ r.instants.tried :=
        hok.kept _ (by simp [instants]) c (List.mem_of_getElem? hc) _ hat
      exact ⟨hat, le_antisymm hlast (r.instants.le_checked.trans r.instants.le_estimated)⟩
    · refine hq.change hchange law hpunctual hs fun due hdue => ?_
      rcases ha.clock_mem (i := i) with rfl | hclock
      · exact (hq.appointment_le due hdue).1
      · exact hok.kept _ hclock q (List.mem_of_getElem? hj) due hdue
  outside {st r h'} hok hs houtside := by
    have hchange := Change.of_report hτ hok.single houtside
    refine ⟨hchange.valid law hs, fun j q hj hq => hq.change hchange law hpunctual hs ?_⟩
    intro due hdue
    have hstep : st.shared.report τ r = some h' := houtside
    rw [History.report_of_single hok.single] at hstep
    rw [(History.step_eq_some hstep).2]
    exact hok.kept r.first (List.mem_singleton_self _) q (List.mem_of_getElem? hj) due hdue

/-- How often a call sleeps at most for a permit that nobody else takes. -/
def RateLimitAlgorithm.waitsPerPermit : RateLimitAlgorithm → ℕ
  | slidingWindow => 2
  | _ => 1

/-- So many waits lead to a permit. -/
theorem RateLimiterConfig.punctual_waits (config : RateLimiterConfig) :
    config.meter.Punctual config.Valid config.algorithm.waitsPerPermit := by
  by_cases h : config.algorithm = .slidingWindow
  · rw [h]
    exact config.punctual
  · have hwaits : config.algorithm.waitsPerPermit = 1 := by
      cases halgorithm : config.algorithm with
      | slidingWindow => exact absurd halgorithm h
      | _ => rfl
    rw [hwaits]
    exact meter_punctual_one config.bounds.1 config.bounds.2.1 h

/-- **A call ends by its deadline, and is overtaken only by calls that take a permit.**  In every
interleaving in which each call takes its first turn at the instant it begins and each further one
at the instant its sleep is due to end, a call still waits only if this instant has not passed and
is not after its deadline; it takes its permit at the end of the wait that it returns, which is not
longer than the timeout; it is rejected in a turn at its deadline only; and its turns are no more
than one and as many as it may have to wait for a permit, for each permit that was taken since it
began and once more. -/
theorem on_time_calls_end (config : RateLimiterConfig) (name : String) (t0 : ℚ)
    (as : List (Threads.Action Invocation (CallEvent V Exc) Readings))
    (st : Threads.State (History config.State) (Call V Exc))
    (hr : (config.callers V name t0).machine.Run OnTime as st) (c : Call V Exc)
    (hc : c ∈ st.parties) :
    (∀ due, c.appointment = some due →
      st.shared.clock ≤ due ∧ due ≤ c.start + config.timeoutDuration) ∧
    (∀ g, c.phase.grant = some g →
      g.takenAt = c.start + g.waited ∧ 0 ≤ g.waited ∧ g.waited ≤ config.timeoutDuration) ∧
    (∀ err, c.phase.rejection = some err →
      ∃ r, c.last = some r ∧ r.instants.tried = c.start + config.timeoutDuration) ∧
    c.turns ≤
      config.algorithm.waitsPerPermit * (st.shared.grants.length - c.grantsBefore + 1) + 1 := by
  obtain ⟨i, hi⟩ := List.mem_iff_getElem?.1 hc
  have htime := ((onTime_annotated V (config.clocked_atOnce.trans config.strategy_eq)
    config.lawful config.punctual_waits t0 (config.valid_createStrategy t0) name
    config.bounds.2.2).run hr).2 i c hi
  exact ⟨htime.appointment_le, htime.granted, htime.rejected, htime.turns_le⟩

/-- One permit a second by the leaky bucket, and three calls.  The second and the third one are
refused and both sleep until the instant one, when the third one is faster; the second one sleeps
for another second and takes its permit in its third turn. -/
theorem on_time_calls_end_overtaken :
    let config : RateLimiterConfig :=
      { limitForPeriod := 1, limitRefreshPeriod := 1, timeoutDuration := 2,
        algorithm := .leakyBucket, accepted := by decide +kernel }
    ∃ (as : List (Threads.Action Invocation (CallEvent ℕ Builtin) Readings))
      (st : Threads.State (History config.State) (Call ℕ Builtin)) (c : Call ℕ Builtin),
      (config.callers ℕ "api" 0).machine.Run OnTime as st ∧ c ∈ st.parties ∧
      (c.phase.grant = some ⟨2, 3 / 2⟩ ∧ c.turns = 3) ∧
      (∀ due, c.appointment = some due →
        st.shared.clock ≤ due ∧ due ≤ c.start + config.timeoutDuration) ∧
      (∀ g, c.phase.grant = some g →
        g.takenAt = c.start + g.waited ∧ 0 ≤ g.waited ∧ g.waited ≤ config.timeoutDuration) ∧
      (∀ err, c.phase.rejection = some err →
        ∃ r, c.last = some r ∧ r.instants.tried = c.start + config.timeoutDuration) ∧
      c.turns ≤ config.algorithm.waitsPerPermit *
        (st.shared.grants.length - c.grantsBefore + 1) + 1 := by
  intro config
  obtain ⟨st, hr, hst⟩ := Machine.exists_run_of_exec
    (config.callers ℕ "api" 0 : Team _ (Call ℕ Builtin) _ _ _).machine
    (fun st a => decide (OnTime st a)) (fun _ _ h => of_decide_eq_true h)
    [.join ⟨.acquire, 0⟩, .advance 0 (.turn (.at 0)), .join ⟨.execute, 1 / 2⟩,
      .advance 1 (.turn (.at (1 / 2))), .join ⟨.acquireAsync, 3 / 4⟩,
      .advance 2 (.turn (.at (3 / 4))), .advance 2 (.turn (.at 1)), .advance 1 (.turn (.at 1)),
      .advance 1 (.turn (.at 2))]
    (fun st => (st.parties[1]?.map fun c : Call ℕ Builtin =>
      decide (c.phase.grant = some ⟨2, 3 / 2⟩ ∧ c.turns = 3)) == some true) (by decide +kernel)
  simp only [beq_iff_eq, Option.map_eq_some_iff] at hst
  obtain ⟨c, hc, hphase⟩ := hst
  have hmem := List.mem_of_getElem? hc
  exact ⟨_, st, c, hr, hmem, of_decide_eq_true hphase,
    on_time_calls_end config "api" 0 _ st hr c hmem⟩

end RateLimiter
