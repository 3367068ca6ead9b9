/-
The sliding window of a circuit breaker, and the state it determines.

The window is a bounded deque whose failures are counted incrementally.  Seen from the log of a
run, it is the end of the history of the outcomes recorded through the closed branch since the
window was last cleared, the counter is the number of failures in it, and the state is a function
of the two: the circuit is closed exactly when the window does not call for it to open.  The last
point is not obvious because the window is left alone while the circuit is open or half-open.

Main definitions:

* `CircuitBreaker.recordedSinceClear` — the outcomes of a log recorded since the last clear;
* `CircuitBreaker.System.WindowInv` — the agreement of window, counter and state.

Main results:

* `CircuitBreaker.Breaker.windowRecord_failureCount` — the incremental count is right;
* `CircuitBreaker.System.windowInv_step` — every step keeps the agreement;
* `CircuitBreaker.window_and_state_agree` — **it holds in every reachable state**.
-/

import Pysilience.CircuitBreaker.Calls
import Mathlib.Tactic.NormNum

set_option relaxedAutoImplicit false
set_option autoImplicit false

namespace CircuitBreaker

open Python Collections Transition

universe u v

variable {Exc : Type u} {Cls : Type v} [Exceptions Exc Cls] {cfg : CircuitBreakerConfig Cls}

/-! ### The history of the window -/

/-- One entry of the log, applied to the history of the window. -/
def extendHistory (history : List Bool) : Entry → List Bool
  | .windowed _ success _ => history ++ [success]
  | .cleared => []
  | _ => history

/-- The outcomes recorded through the closed branch of `_record_outcome` since the window was last
cleared, oldest first. -/
def recordedSinceClear (log : List Entry) : List Bool := log.foldl extendHistory []

@[simp] theorem recordedSinceClear_nil : recordedSinceClear [] = [] := rfl

@[simp] theorem recordedSinceClear_concat (log : List Entry) (e : Entry) :
    recordedSinceClear (log ++ [e]) = extendHistory (recordedSinceClear log) e := by
  simp [recordedSinceClear]

/-! ### The incremental count -/

namespace Breaker

/-- `_failure_count` is the number of failures in the window. -/
def CountOk (cb : Breaker cfg) : Prop := cb.failureCount = cb.window.items.countP (!·)

/-- Recording an outcome keeps the count right, whether or not an old outcome is evicted. -/
theorem windowRecord_failureCount {cb : Breaker cfg} (h : cb.CountOk) (success : Bool) :
    (cb.windowRecord success).CountOk := by
  have hsize := cfg.windowSize_pos
  unfold CountOk at h ⊢
  rcases Nat.lt_or_eq_of_le cb.window.length_le with hlt | hfull
  · have hne : cb.window.items.length ≠ cfg.windowSize := by omega
    rw [windowRecord_window, Deque.countP_append_of_lt _ hlt]
    simp only [windowRecord, if_neg hne, h]
    cases success <;> simp
  · -- the oldest outcome is about to be evicted
    obtain ⟨old, rest, hw⟩ := List.exists_cons_of_length_pos (l := cb.window.items) (by omega)
    have hcount := Deque.countP_append_of_full (!·) hfull hw success
    rw [windowRecord_window]
    rw [hw] at hfull hcount h
    simp only [windowRecord, hw, if_pos hfull, List.head?_cons, h]
    cases old <;> cases success <;> simp at hcount ⊢ <;> omega

/-- An empty window never calls for the circuit to open. -/
theorem not_tripped_of_empty {cb : Breaker cfg} (h : cb.window = Deque.empty) : ¬ cb.Tripped := by
  rintro ⟨hmin, -⟩
  have := cfg.one_le_minimumNumberOfCalls
  rw [h, Deque.items_empty, List.length_nil] at hmin
  omega

end Breaker

/-! ### The invariant -/

namespace System

/-- Window, counter and state agree with the history of the run. -/
structure WindowInv (s : System cfg) : Prop where
  /-- The window holds the end of the history. -/
  window_eq : s.cb.window.items = (recordedSinceClear s.log).rtake cfg.windowSize
  /-- The counter counts its failures. -/
  count : s.cb.CountOk
  /-- The circuit is closed exactly when the window does not call for it to open. -/
  closed_iff : s.cb.state = .closed ↔ ¬ s.cb.Tripped

theorem windowInv_init : WindowInv (init cfg) where
  window_eq := by simp [init, Breaker.init, List.rtake]
  count := by simp [init, Breaker.init, Breaker.CountOk]
  closed_iff := ⟨fun _ => Breaker.not_tripped_of_empty rfl, fun _ => rfl⟩

/-- The agreement depends on the window, the counter, the state and the history alone. -/
theorem WindowInv.congr {s s' : System cfg} (h : WindowInv s) (hw : s'.cb.window = s.cb.window)
    (hc : s'.cb.failureCount = s.cb.failureCount)
    (hs : s'.cb.state = .closed ↔ s.cb.state = .closed)
    (hl : recordedSinceClear s'.log = recordedSinceClear s.log) : WindowInv s' where
  window_eq := by rw [hw, hl, h.window_eq]
  count := by rw [Breaker.CountOk, hw, hc]; exact h.count
  closed_iff := by rw [hs, h.closed_iff, Breaker.Tripped, Breaker.Tripped, hw, hc]

/-- Recording an outcome through the closed branch: the window moves on by one outcome, and the
new state is the one the new window calls for. -/
theorem WindowInv.record {s s' : System cfg} (h : WindowInv s) {success : Bool} {c : Call}
    (hw : s'.cb.window = (s.cb.windowRecord success).window)
    (hc : s'.cb.failureCount = (s.cb.windowRecord success).failureCount)
    (hl : s'.log = s.log ++ [.windowed c success s.period])
    (hs : s'.cb.state = .closed ↔ ¬ (s.cb.windowRecord success).Tripped) : WindowInv s' where
  window_eq := by
    rw [hw, hl, recordedSinceClear_concat, Breaker.windowRecord_window]
    exact Deque.items_append_eq_rtake h.window_eq success
  count := by
    rw [Breaker.CountOk, hw, hc]
    exact Breaker.windowRecord_failureCount h.count success
  closed_iff := by rw [hs, Breaker.Tripped, Breaker.Tripped, hw, hc]

/-- A closed circuit with a cleared window. -/
theorem windowInv_of_cleared {s : System cfg} (hs : s.cb.state = .closed)
    (hw : s.cb.window = Deque.empty) (hc : s.cb.failureCount = 0)
    (hl : recordedSinceClear s.log = []) : WindowInv s where
  window_eq := by rw [hw, hl]; simp
  count := by rw [Breaker.CountOk, hw, hc]; simp
  closed_iff := ⟨fun _ => Breaker.not_tripped_of_empty hw, fun _ => hs⟩

/-- Every step keeps the agreement. -/
theorem windowInv_step {s s' : System cfg} {a : Action Exc} (h : WindowInv s)
    (hstep : s.step a = some s') : WindowInv s' := by
  cases step_cases hstep with
  | rejected => exact h
  | admitted => exact h.congr rfl rfl Iff.rfl (recordedSinceClear_concat ..)
  | firstProbe now hs =>
      exact h.congr rfl rfl (by simp [hs]) (recordedSinceClear_concat ..)
  | probe => exact h.congr rfl rfl Iff.rfl (recordedSinceClear_concat ..)
  | unrecorded => exact h.congr rfl rfl Iff.rfl (recordedSinceClear_concat ..)
  | windowed c outcome now success _ _ _ hs ht =>
      exact h.record rfl rfl rfl ⟨fun _ => ht, fun _ => hs⟩
  | trip c outcome now success _ _ _ _ ht =>
      exact h.record rfl rfl rfl ⟨fun hc => (by cases hc), fun hn => absurd ht hn⟩
  | probed => exact h.congr rfl rfl Iff.rfl (recordedSinceClear_concat ..)
  | reopen c outcome now success _ _ _ hs =>
      exact h.congr rfl rfl (by simp [hs]) (recordedSinceClear_concat ..)
  | close =>
      exact windowInv_of_cleared rfl rfl rfl (by simp [recordedSinceClear, extendHistory])
  | reset => exact windowInv_of_cleared rfl rfl rfl (recordedSinceClear_concat ..)

end System

/-! ### Every reachable state -/

/-- **Sliding window and state agree** in every reachable state: the window holds the last
outcomes recorded since the last clear, the counter is the number of failures among them, and the
circuit is closed if and only if the failure rate of the window does not call for it to open. -/
theorem window_and_state_agree (cfg : CircuitBreakerConfig Cls) (s : System cfg)
    (h : (calls Exc cfg).Reachable s) :
    s.cb.window.items = (recordedSinceClear s.log).rtake cfg.windowSize ∧
      s.cb.failureCount = s.cb.window.items.countP (!·) ∧
      (s.cb.state = .closed ↔
        ¬ (cfg.minimumNumberOfCalls ≤ s.cb.window.items.length ∧
          cfg.failureRateThreshold ≤ (s.cb.failureCount / s.cb.window.items.length : ℚ))) := by
  have hinv : System.WindowInv s :=
    h.invariant System.windowInv_init fun s a _ hi hs =>
      System.windowInv_step (s := s) (a := a) hi hs
  exact ⟨hinv.window_eq, hinv.count, hinv.closed_iff⟩

/-- The agreement in a run that records one failure, which opens the circuit. -/
theorem window_and_state_agree_after_failure : ∃ s : System tinyConfig,
    (s.cb.state = .opened ∧ recordedSinceClear s.log = [false]) ∧
      s.cb.window.items = (recordedSinceClear s.log).rtake tinyConfig.windowSize ∧
      s.cb.failureCount = s.cb.window.items.countP (!·) ∧
      (s.cb.state = .closed ↔
        ¬ (tinyConfig.minimumNumberOfCalls ≤ s.cb.window.items.length ∧
          tinyConfig.failureRateThreshold ≤
            (s.cb.failureCount / s.cb.window.items.length : ℚ))) := by
  obtain ⟨s, hr, hs⟩ := Machine.exists_reachable_of_exec (calls Builtin tinyConfig)
    [.acquire 0, .complete ⟨0, .closed, 0⟩ (.error .runtimeError) 0]
    (fun s => decide (s.cb.state = .opened ∧ recordedSinceClear s.log = [false]))
    (by decide +kernel)
  exact ⟨s, of_decide_eq_true hs, window_and_state_agree tinyConfig s hr⟩

end CircuitBreaker
