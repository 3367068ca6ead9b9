/-
The open period of a circuit breaker.

A breaker opens when the outcome of a call is recorded, and remembers the instant.  From then on
nothing that happens before the wait is over leaves a trace: attempts are rejected, and the calls
that were admitted before and come back meanwhile, however they end, are recorded nowhere.  The
first attempt after the wait begins a half-open period with all its permits.

Main definitions:

* `CircuitBreaker.System.staysOpen` — the side condition on a step of the open period;
* `CircuitBreaker.System.OpenSince` — what the breaker is during the open period.

Main results:

* `CircuitBreaker.System.opens` — how a breaker opens;
* `CircuitBreaker.open_period_airtight` — **nothing gets through an open breaker before its time**.
-/

import Pysilience.CircuitBreaker.Calls
import Mathlib.Tactic.Linarith
import Mathlib.Tactic.Ring

set_option relaxedAutoImplicit false
set_option autoImplicit false

namespace CircuitBreaker

open Python Collections Transition

universe u v

variable {Exc : Type u} {Cls : Type v} [Exceptions Exc Cls] {cfg : CircuitBreakerConfig Cls}

namespace Breaker

/-! ### The sections of an open breaker -/

/-- An attempt before the wait is over. -/
theorem acquirePermission_early {cb : Breaker cfg} {now : ℚ} (hs : cb.state = .opened)
    (hw : now - cb.openedAt < cfg.waitDurationInOpenState) :
    cb.acquirePermission now =
      (.error (cb.makeOpenError (some (cb.openedAt + cfg.waitDurationInOpenState - now))), cb) := by
  have hrem : cfg.waitDurationInOpenState - (now - cb.openedAt) =
      cb.openedAt + cfg.waitDurationInOpenState - now := by ring
  simp only [acquirePermission, hs, if_neg (not_le.2 hw), hrem]

/-- An attempt after the wait is over. -/
theorem acquirePermission_late {cb : Breaker cfg} {now : ℚ} (hs : cb.state = .opened)
    (hw : cfg.waitDurationInOpenState ≤ now - cb.openedAt) :
    cb.acquirePermission now =
      (.ok (.halfOpen, [(.opened, .halfOpen)]),
        { cb with
          state := .halfOpen
          halfOpenResults := []
          halfOpenAllowed := cfg.permittedNumberOfCallsInHalfOpenState - 1 }) := by
  simp only [acquirePermission, hs, if_pos hw]

/-- The end of a call while the breaker is open, whatever state it was admitted in. -/
theorem afterCall_opened {cb : Breaker cfg} (hs : cb.state = .opened)
    (calledIn : CircuitBreakerState) (outcome : Except Exc Unit) (now : ℚ) :
    cb.afterCall calledIn outcome now = ([], cb) := by
  rw [afterCall_eq]
  cases verdict cfg outcome with
  | none => rfl
  | some success => cases calledIn <;> simp only [recordOutcome, hs]

end Breaker

namespace System

/-! ### How a breaker opens -/

/-- A step that opens the breaker ends a call, at the reading that is then remembered. -/
theorem opens {s s' : System cfg} {a : Action Exc} (h : s.step a = some s')
    (hs : s.cb.state ≠ .opened) (hs' : s'.cb.state = .opened) :
    ∃ c outcome t₀, a = .complete c outcome t₀ ∧ s'.cb.openedAt = t₀ := by
  cases step_cases h with
  | rejected => exact absurd hs' hs
  | admitted => exact absurd hs' hs
  | firstProbe | close | reset => cases hs'
  | probe now hh =>
      rw [show s.cb.state = .opened from hs'] at hh
      cases hh
  | unrecorded => exact absurd hs' hs
  | windowed c outcome now success hc hv hci hcl =>
      rw [show s.cb.state = .opened from hs'] at hcl
      cases hcl
  | probed c outcome now success hc hv hci hh =>
      rw [show s.cb.state = .opened from hs'] at hh
      cases hh
  | trip c outcome now => exact ⟨c, outcome, now, rfl, rfl⟩
  | reopen c outcome now => exact ⟨c, outcome, now, rfl, rfl⟩

/-! ### The open period -/

/-- The side condition on a step of the open period: the breaker is still open when it is taken,
and it is not a reset. -/
def staysOpen (s : System cfg) : Action Exc → Bool
  | .reset => false
  | _ => decide (s.cb.state = .opened)

omit [Exceptions Exc Cls] in
theorem staysOpen_iff {s : System cfg} {a : Action Exc} :
    s.staysOpen a = true ↔ a ≠ .reset ∧ s.cb.state = .opened := by
  cases a <;> simp [staysOpen]

/-- While the breaker is open it is, in every field, the breaker `cb` it was when it opened. -/
def OpenSince (cb : Breaker cfg) (s : System cfg) : Prop := s.cb.state = .opened → s.cb = cb

/-- A step of the open period leaves the breaker as it is or ends the period. -/
theorem openSince_step {cb : Breaker cfg} {s s' : System cfg} {a : Action Exc}
    (ha : s.staysOpen a = true) (h : s.OpenSince cb) (hstep : s.step a = some s') :
    s'.OpenSince cb := by
  obtain ⟨hreset, hs⟩ := staysOpen_iff.1 ha
  intro hs'
  cases a with
  | acquire now =>
      simp only [step] at hstep
      by_cases hw : now - s.cb.openedAt < cfg.waitDurationInOpenState
      · rw [Breaker.acquirePermission_early hs hw, Option.some_inj] at hstep
        subst hstep
        exact h hs
      · -- the period ends here
        rw [Breaker.acquirePermission_late hs (not_lt.1 hw), Option.some_inj] at hstep
        subst hstep
        cases hs'
  | complete c outcome now =>
      simp only [step, Breaker.afterCall_opened hs] at hstep
      split at hstep
      · rw [Option.some_inj] at hstep
        subst hstep
        exact h hs
      · cases hstep
  | reset => exact absurd rfl hreset

end System

/-! ### Airtight -/

/-- **The open period is airtight.**  A step after which the breaker has turned open ends a call,
at some instant `t₀`.  As long as the breaker is neither reset nor has changed its state again, it
stays what it was then; an attempt less than the wait after `t₀` changes nothing in the whole
system and is rejected with the time that remains, which is positive; the end of a call, in
whatever state it was admitted and however it ended, leaves the breaker as it is; and an attempt
that comes later is admitted as the first probe of a half-open period. -/
theorem open_period_airtight (cfg : CircuitBreakerConfig Cls) (s s' : System cfg) (a : Action Exc)
    (hstep : (calls Exc cfg).step s a = some s') (hs : s.cb.state ≠ .opened)
    (hs' : s'.cb.state = .opened) :
    ∃ c outcome t₀, a = .complete c outcome t₀ ∧
      ∀ (bs : List (Action Exc)) (t : System cfg),
        (calls Exc cfg).exec System.staysOpen s' bs = some t → t.cb.state = .opened →
          t.cb = s'.cb ∧
          (∀ now, now - t₀ < cfg.waitDurationInOpenState →
            (t.cb.acquirePermission now).1 = .error
                (t.cb.makeOpenError (some (t₀ + cfg.waitDurationInOpenState - now))) ∧
              0 < t₀ + cfg.waitDurationInOpenState - now ∧
              (calls Exc cfg).step t (.acquire now) = some t) ∧
          (∀ c outcome now t', (calls Exc cfg).step t (.complete c outcome now) = some t' →
            t'.cb = t.cb) ∧
          ∀ now, cfg.waitDurationInOpenState ≤ now - t₀ →
            ∃ t', (calls Exc cfg).step t (.acquire now) = some t' ∧
              t'.running = ⟨t.nextId, .halfOpen, t.period + 1⟩ :: t.running ∧
              t'.cb = { t.cb with
                state := .halfOpen
                halfOpenResults := []
                halfOpenAllowed := cfg.permittedNumberOfCallsInHalfOpenState - 1 } := by
  obtain ⟨c, outcome, t₀, rfl, hopened⟩ := System.opens hstep hs hs'
  refine ⟨c, outcome, t₀, rfl, ?_⟩
  intro bs t ht hopen
  have hsince : t.OpenSince s'.cb :=
    Machine.exec_invariant (I := System.OpenSince s'.cb)
      (fun _ _ _ ha hi h => System.openSince_step ha hi h) bs (fun _ => rfl) ht
  have hcb : t.cb = s'.cb := hsince hopen
  have hat : t.cb.openedAt = t₀ := by rw [hcb, hopened]
  refine ⟨hcb, ?_, ?_, ?_⟩
  · intro now hw
    have hpos : 0 < t₀ + cfg.waitDurationInOpenState - now := by linarith
    have hacq := Breaker.acquirePermission_early hopen (hat.symm ▸ hw)
    refine ⟨by rw [hacq, hat], hpos, ?_⟩
    simp only [calls, System.step, hacq]
  · intro d outcome' now t' hcomplete
    simp only [calls, System.step, Breaker.afterCall_opened hopen] at hcomplete
    split at hcomplete
    · rw [Option.some_inj] at hcomplete
      rw [← hcomplete]
    · cases hcomplete
  · intro now hw
    have hacq := Breaker.acquirePermission_late hopen (hat.symm ▸ hw)
    refine ⟨_, by simp only [calls, System.step, hacq]; rfl, ?_, rfl⟩
    simp [System.periodAfter, hopen]

/-- The open period of a breaker that opened at the instant five with a second call in flight,
after that call has returned and an attempt was rejected. -/
theorem open_period_airtight_after_late_return : ∃ t : System tinyConfig,
    t.cb.openedAt = 5 ∧ t.running = [] ∧
      (calls Builtin tinyConfig).step t (.acquire (11 / 2)) = some t ∧
      ∃ t', (calls Builtin tinyConfig).step t (.acquire 6) = some t' ∧
        t'.cb.state = .halfOpen ∧ t'.cb.halfOpenAllowed = 0 := by
  have h : ((calls Builtin tinyConfig).exec (fun _ _ => true) (System.init tinyConfig)
      [.acquire 0, .acquire 1]).any (fun s =>
        ((calls Builtin tinyConfig).step s
          (.complete ⟨0, .closed, 0⟩ (.error .runtimeError) 5)).any fun s' =>
        ((calls Builtin tinyConfig).exec System.staysOpen s'
          [.acquire 5, .complete ⟨1, .closed, 0⟩ (.ok ()) (16 / 3)]).any fun t =>
        decide (s.cb.state ≠ .opened ∧ s'.cb.state = .opened ∧ t.cb.state = .opened ∧
          t.cb.openedAt = 5 ∧ t.running = [])) = true := by decide +kernel
  simp only [Option.any_eq_true, decide_eq_true_eq] at h
  obtain ⟨s, -, s', hstep, t, hexec, hs, hs', hopen, hat, hrun⟩ := h
  obtain ⟨c, outcome, t₀, ha, hairtight⟩ :=
    open_period_airtight tinyConfig s s' _ hstep hs hs'
  injection ha with _ _ ht₀
  subst ht₀
  obtain ⟨-, hearly, -, hlate⟩ := hairtight _ t hexec hopen
  obtain ⟨t', hprobe, -, hcb⟩ := hlate 6 (by decide +kernel)
  exact ⟨t, hat, hrun, (hearly _ (by decide +kernel)).2.2, t', hprobe, by rw [hcb],
    by rw [hcb]; rfl⟩

end CircuitBreaker
