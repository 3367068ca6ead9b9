/-
The half-open periods of runs without resets.

Without resets a half-open period is left only when its last probe has been recorded, so that no
probe outlives its period, and the results of a period are exactly those of its own probes.  The
permits, the probes in flight, the results and the probes that were lost then add up to the permits
of the configuration.

Main definitions:

* `CircuitBreaker.WithoutReset` — the side condition on a step;
* `CircuitBreaker.System.CleanInv` — what is known of such runs.

Main results:

* `CircuitBreaker.System.CleanInv.decide` — the end of a half-open period;
* `CircuitBreaker.half_open_accounting` — **the accounting and its consequences**.
-/

import Pysilience.CircuitBreaker.Probes

set_option relaxedAutoImplicit false
set_option autoImplicit false

namespace CircuitBreaker

open Python Collections Transition

universe u v

variable {Exc : Type u} {Cls : Type v} [Exceptions Exc Cls] {cfg : CircuitBreakerConfig Cls}

/-! ### Runs without resets -/

/-- The action is a reset. -/
def Action.isReset : Action Exc → Bool
  | .reset => true
  | _ => false

/-- The side condition of a run without resets. -/
def WithoutReset (_ : System cfg) (a : Action Exc) : Prop := a.isReset = false

omit [Exceptions Exc Cls] in
theorem withoutReset_of_test (s : System cfg) (a : Action Exc) (h : (!a.isReset) = true) :
    WithoutReset s a := by
  simpa [WithoutReset] using h

namespace System

/-- The probes in flight are probes of the present period, which is half-open, and the results of a
period are results of its own probes. -/
structure OwnProbes (s : System cfg) : Prop where
  running : ∀ c ∈ s.running, c.calledIn = .halfOpen →
    s.cb.state = .halfOpen ∧ c.period = s.period
  log : ∀ r ∈ probeResults s.log, r.call.probeOf r.period = true

/-- The results of a period's probes are the results appended during it. -/
theorem OwnProbes.resultsOf_eq {s : System cfg} (h : OwnProbes s) (p : ℕ) :
    resultsOf p s.log = resultsDuring p s.log := by
  refine List.filter_congr fun r hr => ?_
  have := Call.probeOf_iff.1 (h.log r hr)
  simp [Call.probeOf, this.1, this.2]

/-- The log keeps the results in their periods when the new entries do. -/
theorem OwnProbes.log_append {s : System cfg} (h : OwnProbes s) {es : List Entry}
    (hes : ∀ r ∈ probeResults es, r.call.probeOf r.period = true) :
    ∀ r ∈ probeResults (s.log ++ es), r.call.probeOf r.period = true := by
  rw [probeResults_append]
  exact List.forall_mem_append.2 ⟨h.log, hes⟩

omit [Exceptions Exc Cls] in
/-- Entries that are no results keep them. -/
theorem probeOf_of_no_results {es : List Entry} (hes : probeResults es = []) :
    ∀ r ∈ probeResults es, r.call.probeOf r.period = true := by
  intro r hr
  rw [hes] at hr
  exact absurd hr List.not_mem_nil

/-- The result of a probe in flight is one of its own period. -/
theorem OwnProbes.own_result {s : System cfg} (h : OwnProbes s) {c : Call} (hc : c ∈ s.running)
    (hci : c.calledIn = .halfOpen) (success : Bool) {es : List Entry} (hes : probeResults es = []) :
    ∀ r ∈ probeResults (.probed c success s.period :: es), r.call.probeOf r.period = true := by
  have hone : probeResults (.probed c success s.period :: es) =
      ⟨c, success, s.period⟩ :: probeResults es := rfl
  rw [hone, hes]
  intro r hr
  obtain rfl := List.mem_singleton.1 hr
  exact Call.probeOf_iff.2 ⟨hci, (h.running c hc hci).2⟩

/-- A step that ends a call without deciding the period. -/
theorem OwnProbes.end {s s' : System cfg} (h : OwnProbes s) {c : Call} {e : Entry}
    (hs : s.cb.state = .halfOpen → s'.cb.state = .halfOpen ∧ s'.period = s.period)
    (hr : s'.running = s.running.erase c) (hl : s'.log = s.log ++ [e])
    (he : ∀ r ∈ probeResults [e], r.call.probeOf r.period = true) : OwnProbes s' where
  running d hd hdc := by
    obtain ⟨h1, h2⟩ := h.running d (List.mem_of_mem_erase (hr ▸ hd)) hdc
    exact ⟨(hs h1).1, h2.trans (hs h1).2.symm⟩
  log := by
    rw [hl]
    exact h.log_append he

/-- What is left of a half-open period once as many results of its own probes were appended as
there are permits: nothing. -/
theorem probes_done {running : List Call} {log : List Entry} (hacc : Accounted running log) {p : ℕ}
    {P : ℤ} (hadm : admittedProbes p log ≤ P) (hres : P ≤ (resultsOf p log).length) :
    runningProbes p running = 0 ∧ (admittedProbes p log : ℤ) = P ∧
      ((resultsOf p log).length : ℤ) = P := by
  have := hacc p
  omega

/-- The results of a period after one more of its own probes was recorded. -/
theorem OwnProbes.resultsOf_record {s : System cfg} (h : OwnProbes s) (hinv : HalfOpenInv s)
    {c : Call} (hc : c ∈ s.running) (hci : c.calledIn = .halfOpen) (success : Bool)
    {es : List Entry} (hes : probeResults es = []) :
    (resultsOf s.period (s.log ++ .probed c success s.period :: es)).map (·.success) =
      s.cb.halfOpenResults ++ [success] := by
  have hcp : c.probeOf s.period = true := Call.probeOf_iff.2 ⟨hci, (h.running c hc hci).2⟩
  have hlast : probeResults (.probed c success s.period :: es) = [⟨c, success, s.period⟩] := by
    rw [← hes]
    rfl
  rw [resultsOf, probeResults_append, hlast, List.filter_append, List.filter_singleton, hcp,
    cond_true, List.map_append, ← resultsOf, h.resultsOf_eq, ← hinv.results]
  rfl

/-- What is known of a run without resets. -/
structure CleanInv (s : System cfg) : Prop where
  accounted : Accounted s.running s.log
  probes : ProbeInv s
  own : OwnProbes s

/-- The end of a half-open period: the last probe was recorded, all probes of the period were, and
none is in flight. -/
theorem CleanInv.decide {s s' : System cfg} (h : CleanInv s) (hs : s.cb.state = .halfOpen)
    (hacc' : Accounted s'.running s'.log) (hprobe' : ProbeInv s') {c : Call} {success : Bool}
    {es : List Entry} (hc : c ∈ s.running) (hci : c.calledIn = .halfOpen)
    (hr : s'.running = s.running.erase c)
    (hl : s'.log = s.log ++ .probed c success s.period :: es) (hes : probeResults es = [])
    (hfull : cfg.permittedNumberOfCallsInHalfOpenState ≤
      (s.cb.halfOpenResults ++ [success]).length) :
    (admittedProbes s.period s'.log : ℤ) = cfg.permittedNumberOfCallsInHalfOpenState ∧
      (resultsOf s.period s'.log).map (·.success) = s.cb.halfOpenResults ++ [success] ∧
      ((resultsOf s.period s'.log).length : ℤ) = cfg.permittedNumberOfCallsInHalfOpenState ∧
      ∀ d ∈ s'.running, d.calledIn ≠ .halfOpen := by
  have hres := h.own.resultsOf_record (h.probes.halfOpen hs) hc hci success hes
  rw [← hl] at hres
  have hlen : (resultsOf s.period s'.log).length = (s.cb.halfOpenResults ++ [success]).length := by
    rw [← hres, List.length_map]
  obtain ⟨hrun, hadm, hP⟩ := probes_done hacc' (hprobe'.admitted s.period) (hlen ▸ hfull)
  refine ⟨hadm, hres, hP, fun d hd hdc => ?_⟩
  have hdp := (h.own.running d (List.mem_of_mem_erase (hr ▸ hd)) hdc).2
  exact List.countP_eq_zero.1 hrun d hd (Call.probeOf_iff.2 ⟨hdc, hdp⟩)

/-- Every step other than a reset keeps probes and results in their period. -/
theorem ownProbes_step {s s' : System cfg} {a : Action Exc} (hok : PeriodsOk s) (h : CleanInv s)
    (ha : WithoutReset s a) (hstep : s.step a = some s') : OwnProbes s' := by
  have hacc' := accounted_step h.accounted hstep
  have hprobe' := probeInv_step hok h.probes hstep
  have hadmit : ∀ c, ∀ r ∈ probeResults (s.log ++ [.admitted c]), r.call.probeOf r.period := by
    intro c
    exact h.own.log_append (probeOf_of_no_results rfl)
  cases step_cases hstep with
  | rejected => exact h.own
  | admitted now hs =>
      refine ⟨fun d hd hdc => ?_, hadmit _⟩
      rcases List.mem_cons.1 hd with rfl | hd
      · cases hdc
      · exact h.own.running d hd hdc
  | firstProbe now hs =>
      refine ⟨fun d hd hdc => ?_, hadmit _⟩
      rcases List.mem_cons.1 hd with rfl | hd
      · exact ⟨rfl, rfl⟩
      · have := (h.own.running d hd hdc).1
        rw [hs] at this
        cases this
  | probe now hs =>
      refine ⟨fun d hd hdc => ?_, hadmit _⟩
      rcases List.mem_cons.1 hd with rfl | hd
      · exact ⟨hs, rfl⟩
      · exact h.own.running d hd hdc
  | unrecorded => exact h.own.end (fun hs => ⟨hs, rfl⟩) rfl rfl (probeOf_of_no_results rfl)
  | windowed => exact h.own.end (fun hs => ⟨hs, rfl⟩) rfl rfl (probeOf_of_no_results rfl)
  | trip c outcome now success _ _ _ hs =>
      refine h.own.end (fun hs' => ?_) rfl rfl (probeOf_of_no_results rfl)
      rw [hs] at hs'
      cases hs'
  | probed c outcome now success hc _ hci hs =>
      exact h.own.end (fun hs => ⟨hs, rfl⟩) rfl rfl (h.own.own_result hc hci success rfl)
  | reopen c outcome now success hc _ hci hs hl =>
      -- all probes of the period are recorded, so that none is left to leave it
      have hnone := (h.decide hs hacc' hprobe' hc hci rfl rfl rfl hl).2.2.2
      exact ⟨fun d hd hdc => absurd hdc (hnone d hd),
        h.own.log_append (h.own.own_result hc hci success rfl)⟩
  | close c outcome now success hc _ hci hs hl =>
      have hnone := (h.decide hs hacc' hprobe' hc hci rfl rfl rfl hl).2.2.2
      exact ⟨fun d hd hdc => absurd hdc (hnone d hd),
        h.own.log_append (h.own.own_result hc hci success rfl)⟩
  | reset => cases ha

/-- What is known of a run without resets holds after every such run. -/
theorem cleanInv_of_run {as : List (Action Exc)} {s : System cfg}
    (h : (calls Exc cfg).Run WithoutReset as s) : CleanInv s := by
  have hinit : OwnProbes (init cfg) :=
    ⟨by simp [init], by simp [init, probeResults]⟩
  refine h.invariant ⟨accounted_init, probeInv_init, hinit⟩ ?_
  intro as s a s' hr hi ha hs
  have hok := periodsOk_of_reachable hr.reachable
  exact ⟨accounted_step hi.accounted hs, probeInv_step hok hi.probes hs,
    ownProbes_step hok hi ha hs⟩

/-- The accounting equation of a half-open breaker. -/
theorem CleanInv.accounting {s : System cfg} (h : CleanInv s) (hs : s.cb.state = .halfOpen) :
    s.cb.halfOpenAllowed + runningProbes s.period s.running + s.cb.halfOpenResults.length +
      lostProbes s.period s.log = cfg.permittedNumberOfCallsInHalfOpenState := by
  obtain ⟨hres, hperm, -, -⟩ := h.probes.halfOpen hs
  have hacc := h.accounted s.period
  -- without resets the results of the period are those of its own probes
  rw [h.own.resultsOf_eq] at hacc
  rw [hres, List.length_map]
  omega

/-- What the state is after a step that leaves the half-open state. -/
theorem CleanInv.leaves {s s' : System cfg} {a : Action Exc} (hok : PeriodsOk s) (h : CleanInv s)
    (ha : WithoutReset s a) (hstep : s.step a = some s') (hs : s.cb.state = .halfOpen)
    (hs' : s'.cb.state ≠ .halfOpen) :
    (admittedProbes s.period s'.log : ℤ) = cfg.permittedNumberOfCallsInHalfOpenState ∧
      ((resultsOf s.period s'.log).length : ℤ) = cfg.permittedNumberOfCallsInHalfOpenState ∧
      s'.cb.state = (if cfg.failureRateThreshold ≤
          ((resultsOf s.period s'.log).countP (!·.success) : ℚ) /
            cfg.permittedNumberOfCallsInHalfOpenState then .opened else .closed) ∧
      ∀ c ∈ s'.running, c.calledIn ≠ .halfOpen := by
  have hacc' := accounted_step h.accounted hstep
  have hprobe' := probeInv_step hok h.probes hstep
  -- the threshold test of the section, read on the results of the period's probes
  have htest : ∀ {rs : List ProbeResult} {bs : List Bool}, rs.map (·.success) = bs →
      (rs.length : ℤ) = cfg.permittedNumberOfCallsInHalfOpenState →
      (Breaker.ProbesFail cfg bs ↔ cfg.failureRateThreshold ≤
        ((rs.countP (!·.success) : ℕ) : ℚ) / cfg.permittedNumberOfCallsInHalfOpenState) := by
    rintro rs _ rfl hlen
    rw [Breaker.ProbesFail, List.length_map, ← hlen, Int.cast_natCast, List.countP_map]
    rfl
  cases step_cases hstep with
  | reopen c outcome now success hc _ hci _ hl hf =>
      obtain ⟨hadm, hres, hlen, hnone⟩ := h.decide hs hacc' hprobe' hc hci rfl rfl rfl hl
      exact ⟨hadm, hlen, (if_pos ((htest hres hlen).1 hf)).symm, hnone⟩
  | close c outcome now success hc _ hci _ hl hf =>
      obtain ⟨hadm, hres, hlen, hnone⟩ := h.decide hs hacc' hprobe' hc hci rfl rfl rfl hl
      exact ⟨hadm, hlen, (if_neg (mt (htest hres hlen).2 hf)).symm, hnone⟩
  | reset => cases ha
  | firstProbe => exact absurd rfl hs'
  | trip c outcome now success _ _ _ hc =>
      rw [hs] at hc
      cases hc
  | _ => exact absurd hs hs'

end System

/-! ### The accounting -/

/-- **Half-open probe accounting.**  In every run without resets the permits left, the probes in
flight, the results, and the probes that ended unrecorded add up to the permits of the
configuration while the breaker is half-open; no period admits more probes than that; and a step
that leaves the half-open state finds all of them admitted and recorded, goes to the state their
failure rate calls for, and leaves no probe in flight. -/
theorem half_open_accounting (cfg : CircuitBreakerConfig Cls) (as : List (Action Exc))
    (s : System cfg) (h : (calls Exc cfg).Run WithoutReset as s) :
    (s.cb.state = .halfOpen →
      s.cb.halfOpenAllowed + runningProbes s.period s.running + s.cb.halfOpenResults.length +
        lostProbes s.period s.log = cfg.permittedNumberOfCallsInHalfOpenState) ∧
    (∀ p, (admittedProbes p s.log : ℤ) ≤ cfg.permittedNumberOfCallsInHalfOpenState) ∧
    ∀ (a : Action Exc) (s' : System cfg), WithoutReset s a → s.step a = some s' →
      s.cb.state = .halfOpen → s'.cb.state ≠ .halfOpen →
        (admittedProbes s.period s'.log : ℤ) = cfg.permittedNumberOfCallsInHalfOpenState ∧
        ((resultsOf s.period s'.log).length : ℤ) = cfg.permittedNumberOfCallsInHalfOpenState ∧
        s'.cb.state = (if cfg.failureRateThreshold ≤
            ((resultsOf s.period s'.log).countP (!·.success) : ℚ) /
              cfg.permittedNumberOfCallsInHalfOpenState then .opened else .closed) ∧
        ∀ c ∈ s'.running, c.calledIn ≠ .halfOpen := by
  have hinv := System.cleanInv_of_run h
  refine ⟨hinv.accounting, hinv.probes.admitted, ?_⟩
  intro a s' ha hstep hs hs'
  exact hinv.leaves (System.periodsOk_of_reachable h.reachable) ha hstep hs hs'

/-- The accounting in a run that ends with the probe of a second half-open period in flight. -/
theorem half_open_accounting_of_probe : ∃ s : System tinyConfig,
    (s.cb.state = .halfOpen ∧ runningProbes s.period s.running = 1) ∧
    (s.cb.halfOpenAllowed + runningProbes s.period s.running + s.cb.halfOpenResults.length +
        lostProbes s.period s.log = tinyConfig.permittedNumberOfCallsInHalfOpenState) ∧
    (∀ p, (admittedProbes p s.log : ℤ) ≤ tinyConfig.permittedNumberOfCallsInHalfOpenState) ∧
    ∀ (a : Action Builtin) (s' : System tinyConfig), WithoutReset s a → s.step a = some s' →
      s.cb.state = .halfOpen → s'.cb.state ≠ .halfOpen →
        (admittedProbes s.period s'.log : ℤ) = tinyConfig.permittedNumberOfCallsInHalfOpenState ∧
        ((resultsOf s.period s'.log).length : ℤ) =
          tinyConfig.permittedNumberOfCallsInHalfOpenState ∧
        s'.cb.state = (if tinyConfig.failureRateThreshold ≤
            ((resultsOf s.period s'.log).countP (!·.success) : ℚ) /
              tinyConfig.permittedNumberOfCallsInHalfOpenState then .opened else .closed) ∧
        ∀ c ∈ s'.running, c.calledIn ≠ .halfOpen := by
  obtain ⟨s, hr, hs⟩ := Machine.exists_run_of_exec (calls Builtin tinyConfig)
    (fun _ a => !a.isReset) withoutReset_of_test
    [.acquire 0, .complete ⟨0, .closed, 0⟩ (.error .runtimeError) 0, .acquire 1,
      .complete ⟨1, .halfOpen, 2⟩ (.error .runtimeError) 1, .acquire 2]
    (fun s => decide (s.cb.state = .halfOpen ∧ runningProbes s.period s.running = 1))
    (by decide +kernel)
  have hs := of_decide_eq_true hs
  obtain ⟨hacc, hrest⟩ := half_open_accounting tinyConfig _ s hr
  exact ⟨s, hs, hacc hs.1, hrest⟩

end CircuitBreaker
