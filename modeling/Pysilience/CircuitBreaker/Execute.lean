/-
`CircuitBreaker.execute`, with the events it emits.

The method runs a section of the lock to be admitted, calls the function, and runs one more
section to record what became of it; between and after the sections it emits events.  Here it is a
program on a stage whose fields are those of the breaker.  The clock is read in the sections only,
and a call of the method takes its two readings as arguments.

Main definitions:

* `CircuitBreaker.acquirePermission`, `CircuitBreaker.onComplete` — the helpers with their events;
* `CircuitBreaker.execute` — the method.

Main results:

* `CircuitBreaker.exec_onComplete`, `CircuitBreaker.exec_tryCall` — an outcome is recorded and
  reported;
* `CircuitBreaker.exec_execute_rejected`,
  `CircuitBreaker.exec_execute_admitted` — **the method does to the breaker what its sections do**,
  and emits what `Breaker.acquireEmissions` and `Breaker.afterCallEmissions` say;
* `CircuitBreaker.coupled_execute` — listeners are not noticed.
-/

import Pysilience.CircuitBreaker.Events
import Pysilience.Core.Listeners

set_option relaxedAutoImplicit false
set_option autoImplicit false

namespace CircuitBreaker

open Python Programs Listeners

variable {Exc Cls ω V : Type} [Exceptions Exc Cls] {cfg : CircuitBreakerConfig Cls}

/-! ### The method -/

/-- What `execute` raises: an exception of the function, or the rejection. -/
inductive Raised (Exc : Type)
  | original (exc : Exc)
  | circuitBreakerOpen (error : CircuitBreakerOpen)
  deriving DecidableEq

instance : Raises Exc (Raised Exc) := ⟨.original⟩

/-- What `execute` runs on; besides calling the function and emitting events it does nothing. -/
abbrev BreakerStage (cfg : CircuitBreakerConfig Cls) (Exc ω : Type) :=
  Stage (Breaker cfg) Empty (CircuitBreakerEvent Exc) ω

variable (listeners : List (Listener (CircuitBreakerEvent Exc) ω Exc))

/-- A call of `_emit_event`, which may read `self._state`. -/
def emit (emission : Emission Exc) : Program (BreakerStage cfg Exc ω) (Raised Exc) Unit := do
  let cb ← update fun cb => (cb, cb)
  emitEvent listeners (emission.event cb)

/-- `for from_s, to_s in transitions: self._emit_transition(from_s, to_s)`. -/
def emitTransitions (transitions : List Transition) :
    Program (BreakerStage cfg Exc ω) (Raised Exc) Unit :=
  forM transitions fun tr => emit listeners (.transition tr.1 tr.2)

/-- `_acquire_permission`. -/
def acquirePermission (now : ℚ) :
    Program (BreakerStage cfg Exc ω) (Raised Exc) (CircuitBreakerState × List Transition) := do
  match ← update fun cb => cb.acquirePermission now with
  | .error error =>
      emit listeners (.rejected error)
      throw (.circuitBreakerOpen error)
  | .ok admitted => return admitted

/-- How `_on_complete` reports an outcome that is recorded: as a failure with an exception, or as a
success. -/
def outcomeEmission : Option Exc → Emission Exc
  | some exc => .error exc
  | none => .success

/-- `_on_complete`. -/
def onComplete (calledIn : CircuitBreakerState) (exc : Option Exc) (now : ℚ) :
    Program (BreakerStage cfg Exc ω) (Raised Exc) Unit :=
  match exc.filter (ignored cfg) with
  | some exc => emit listeners (.ignoredError exc)
  | none => do
      let failure := exc.filter fun exc => isinstanceAny exc cfg.recordExceptions
      let transitions ← update fun cb => cb.recordOutcome calledIn failure.isNone now
      emit listeners (outcomeEmission failure)
      emitTransitions listeners transitions

/-- `execute`, where the sections read the clock as `acquiredAt` and `completedAt`. -/
def execute (outcomes : ℕ → Except Exc V) (acquiredAt completedAt : ℚ) :
    Program (BreakerStage cfg Exc ω) (Raised Exc) V := do
  let (calledIn, transitions) ← acquirePermission listeners acquiredAt
  emitTransitions listeners transitions
  tryExcept (invoke outcomes) caught
    (fun exc => do
      onComplete listeners calledIn (some exc) completedAt
      throw (.original exc))
    (fun result => do
      onComplete listeners calledIn none completedAt
      return result)

/-! ### What the helpers do -/

/-- Some events are emitted, and nothing else happens. -/
structure Emitted (emissions : List (Emission Exc)) (s s' : BreakerStage cfg Exc ω) : Prop where
  inner : s'.inner = s.inner
  calls : s'.calls = s.calls
  emitted : s'.emitted = s.emitted ++ emissions.map (·.event s.inner)

omit [Exceptions Exc Cls] in
/-- Events are emitted, and then more of them. -/
theorem Emitted.append {emissions emissions' : List (Emission Exc)}
    {s s' s'' : BreakerStage cfg Exc ω} (h : Emitted emissions s s')
    (h' : Emitted emissions' s' s'') :
    Emitted (emissions ++ emissions') s s'' where
  inner := h'.inner.trans h.inner
  calls := h'.calls.trans h.calls
  emitted := by
    rw [h'.emitted, h.emitted, h.inner, List.append_assoc, List.map_append]

theorem exec_emit (emission : Emission Exc) (s : BreakerStage cfg Exc ω) :
    ∃ s', exec (emit listeners emission) s = (.ok (), s') ∧ Emitted [emission] s s' := by
  refine ⟨s.notified listeners (emission.event s.inner), ?_, rfl, Stage.notified_calls _ _ _,
    Stage.emitted_notified _ _ _⟩
  rw [emit, exec_bind_ok (exec_update (fun cb => (cb, cb)) s)]
  exact exec_emitEvent listeners (emission.event s.inner) s

theorem exec_emitTransitions (transitions : List Transition) :
    ∀ s : BreakerStage cfg Exc ω, ∃ s',
      exec (emitTransitions listeners transitions) s = (.ok (), s') ∧
      Emitted (Breaker.emitTransitions transitions) s s' := by
  induction transitions with
  | nil => exact fun s => ⟨s, rfl, rfl, rfl, (List.append_nil _).symm⟩
  | cons tr transitions ih =>
      intro s
      obtain ⟨s', hone, hemitted⟩ := exec_emit listeners (.transition tr.1 tr.2) s
      obtain ⟨s'', hrest, hemitted'⟩ := ih s'
      exact ⟨s'', (exec_bind_ok hone _).trans hrest, hemitted.append hemitted'⟩

/-- A section of the lock that is reported with an event and with the transitions it made. -/
theorem exec_report (record : Breaker cfg → List Transition × Breaker cfg) (emission : Emission Exc)
    (s : BreakerStage cfg Exc ω) : ∃ s',
      exec (do
        let transitions ← update record
        emit listeners emission
        emitTransitions listeners transitions) s = (.ok (), s') ∧
      Emitted (emission :: Breaker.emitTransitions (record s.inner).1)
        { s with inner := (record s.inner).2 } s' := by
  have hupdate : exec (update record : Program (BreakerStage cfg Exc ω) (Raised Exc) _) s =
      (.ok (record s.inner).1, { s with inner := (record s.inner).2 }) := exec_update record s
  obtain ⟨s', hone, hemitted⟩ := exec_emit listeners emission { s with inner := (record s.inner).2 }
  obtain ⟨s'', hrest, hemitted'⟩ := exec_emitTransitions listeners (record s.inner).1 s'
  exact ⟨s'', (exec_bind_ok hupdate _).trans ((exec_bind_ok hone _).trans hrest),
    hemitted.append hemitted'⟩

/-- **The outcome of a call is recorded and reported** as the section says. -/
theorem exec_onComplete (calledIn : CircuitBreakerState) (exc : Option Exc) (now : ℚ)
    (s : BreakerStage cfg Exc ω) : ∃ s',
      exec (onComplete listeners calledIn exc now) s = (.ok (), s') ∧
      Emitted (s.inner.onCompleteEmissions calledIn exc now)
        { s with inner := (s.inner.onComplete calledIn exc now).2 } s' := by
  cases exc with
  | none => exact exec_report listeners (fun cb => cb.recordOutcome calledIn true now) .success s
  | some exc =>
      cases hi : ignored cfg exc with
      | true =>
          obtain ⟨s', hone, hemitted⟩ :=
            exec_emit listeners (.ignoredError exc) s
          refine ⟨s', ?_, ?_⟩
          · simpa only [onComplete, Option.filter_some, hi, if_true] using hone
          · simpa only [Breaker.onCompleteEmissions, Breaker.onComplete, hi, if_true] using hemitted
      | false =>
          obtain ⟨s', hrun, hemitted⟩ := exec_report listeners
            (fun cb => cb.recordOutcome calledIn (!isinstanceAny exc cfg.recordExceptions) now)
            (if isinstanceAny exc cfg.recordExceptions then .error exc else .success) s
          refine ⟨s', ?_, ?_⟩
          · rw [← hrun, onComplete]
            cases hf : isinstanceAny exc cfg.recordExceptions <;>
              simp [Option.filter_some, hi, hf, outcomeEmission]
          · simpa only [Breaker.onCompleteEmissions, Breaker.onComplete, hi, Bool.false_eq_true,
              if_false] using hemitted

/-- **A rejected call** calls nothing, and reports the rejection. -/
theorem exec_execute_rejected {s : BreakerStage cfg Exc ω} {acquiredAt : ℚ}
    {error : CircuitBreakerOpen} {cb : Breaker cfg}
    (h : s.inner.acquirePermission acquiredAt = (.error error, cb))
    (outcomes : ℕ → Except Exc V) (completedAt : ℚ) : ∃ s',
      exec (execute listeners outcomes acquiredAt completedAt) s =
        (.error (.circuitBreakerOpen error), s') ∧
      Emitted (s.inner.acquireEmissions acquiredAt) { s with inner := cb } s' := by
  obtain ⟨s', hone, hemitted⟩ :=
    exec_emit listeners (.rejected error) { s with inner := cb }
  have hacquire : exec (acquirePermission listeners acquiredAt) s =
      (.error (.circuitBreakerOpen error), s') := by
    rw [acquirePermission, exec_bind_ok (exec_update _ s), h]
    exact (exec_bind_ok hone _).trans (exec_throw _ _)
  refine ⟨s', exec_bind_error hacquire _, ?_⟩
  rwa [Breaker.acquireEmissions, h]

/-- The function is called, and what becomes of it is recorded and reported. -/
theorem exec_tryCall (outcomes : ℕ → Except Exc V) (calledIn : CircuitBreakerState)
    (completedAt : ℚ) (s : BreakerStage cfg Exc ω) : ∃ s',
      exec (tryExcept (invoke outcomes) caught
        (fun exc => do
          onComplete listeners calledIn (some exc) completedAt
          throw (.original exc))
        (fun result => do
          onComplete listeners calledIn none completedAt
          return result)) s =
        (match outcomes (s.calls + 1) with
          | .ok value => .ok value
          | .error exc => .error (.original exc), s') ∧
      Emitted
        (s.inner.afterCallEmissions calledIn ((outcomes (s.calls + 1)).map fun _ => ()) completedAt)
        { s.note .invoked with
          inner := (s.inner.afterCall calledIn ((outcomes (s.calls + 1)).map fun _ => ())
            completedAt).2 }
        s' := by
  have hcall : exec (invoke outcomes) s = (outcomes (s.calls + 1), s.note .invoked) :=
    exec_invoke outcomes s
  cases hout : outcomes (s.calls + 1) with
  | ok value =>
      rw [hout] at hcall
      obtain ⟨s', hrun, hemitted⟩ :=
        exec_onComplete listeners calledIn none completedAt (s.note .invoked)
      exact ⟨s', by rw [exec_tryExcept_ok hcall, exec_bind_ok hrun, exec_pure], hemitted⟩
  | error exc =>
      rw [hout] at hcall
      cases hc : caught exc with
      | true =>
          obtain ⟨s', hrun, hemitted⟩ :=
            exec_onComplete listeners calledIn (some exc) completedAt (s.note .invoked)
          refine ⟨s', ?_, ?_⟩
          · rw [exec_tryExcept_caught hcall hc, exec_bind_ok hrun, exec_throw]
          · simp only [Except.map, Breaker.afterCallEmissions, Breaker.afterCall, hc, if_true]
            exact hemitted
      | false =>
          -- what is not an `Exception` is neither recorded nor reported
          refine ⟨s.note .invoked, exec_tryExcept_passed hcall hc _ _, ?_, rfl, ?_⟩
          · simp [Except.map, Breaker.afterCall, hc]
          · simp [Except.map, Breaker.afterCallEmissions, hc, Stage.emitted]

/-- **An admitted call** reports the transition that admits it, calls the function once, and records
and reports what became of it. -/
theorem exec_execute_admitted {s : BreakerStage cfg Exc ω} {acquiredAt : ℚ}
    {calledIn : CircuitBreakerState} {transitions : List Transition} {cb : Breaker cfg}
    (h : s.inner.acquirePermission acquiredAt = (.ok (calledIn, transitions), cb))
    (outcomes : ℕ → Except Exc V) (completedAt : ℚ) : ∃ s' s'',
      Emitted (s.inner.acquireEmissions acquiredAt) { s with inner := cb } s' ∧
      exec (execute listeners outcomes acquiredAt completedAt) s =
        (match outcomes (s.calls + 1) with
          | .ok value => .ok value
          | .error exc => .error (.original exc), s'') ∧
      Emitted
        (cb.afterCallEmissions calledIn ((outcomes (s.calls + 1)).map fun _ => ()) completedAt)
        { s'.note .invoked with
          inner := (cb.afterCall calledIn ((outcomes (s.calls + 1)).map fun _ => ())
            completedAt).2 }
        s'' := by
  have hacquire : exec (acquirePermission listeners acquiredAt) s =
      (.ok (calledIn, transitions), { s with inner := cb }) := by
    rw [acquirePermission, exec_bind_ok (exec_update _ s), h]
    rfl
  obtain ⟨s', htransitions, hemitted⟩ :=
    exec_emitTransitions listeners transitions { s with inner := cb }
  have hcalls : s'.calls = s.calls := hemitted.calls
  have hinner : s'.inner = cb := hemitted.inner
  obtain ⟨s'', hrun, hemitted'⟩ := exec_tryCall listeners outcomes calledIn completedAt s'
  rw [hcalls] at hrun hemitted'
  rw [hinner] at hemitted'
  refine ⟨s', s'', ?_, ?_, hemitted'⟩
  · rwa [Breaker.acquireEmissions, h]
  · rw [execute, exec_bind_ok hacquire, ← hrun]
    exact exec_bind_ok htransitions _

/-! ### Runs with listeners and without -/

theorem coupled_emit (emission : Emission Exc) :
    Coupled (Unnoticed listeners)
      (emit listeners emission : Program (BreakerStage cfg Exc ω) (Raised Exc) Unit)
      (emit [] emission) :=
  (coupled_update listeners _).bind fun cb => coupled_emitEvent listeners (emission.event cb)

theorem coupled_emitTransitions (transitions : List Transition) :
    Coupled (Unnoticed listeners)
      (emitTransitions listeners transitions :
        Program (BreakerStage cfg Exc ω) (Raised Exc) Unit)
      (emitTransitions [] transitions) := by
  have hone : ∀ tr : Transition, Coupled (Unnoticed listeners)
      (emit listeners (.transition tr.1 tr.2) :
        Program (BreakerStage cfg Exc ω) (Raised Exc) Unit)
      (emit [] (.transition tr.1 tr.2)) :=
    fun tr => coupled_emit listeners (.transition tr.1 tr.2)
  exact Coupled.forM hone transitions

theorem coupled_acquirePermission (now : ℚ) :
    Coupled (Unnoticed listeners)
      (acquirePermission listeners now : Program (BreakerStage cfg Exc ω) (Raised Exc) _)
      (acquirePermission [] now) := by
  refine (coupled_update listeners _).bind fun result => ?_
  cases result with
  | error error =>
      exact (coupled_emit listeners (.rejected error)).bind fun _ => Coupled.throw _
  | ok admitted => exact Coupled.pure admitted

theorem coupled_onComplete (calledIn : CircuitBreakerState) (exc : Option Exc) (now : ℚ) :
    Coupled (Unnoticed listeners)
      (onComplete listeners calledIn exc now :
        Program (BreakerStage cfg Exc ω) (Raised Exc) Unit)
      (onComplete [] calledIn exc now) := by
  unfold onComplete
  split
  · exact coupled_emit listeners _
  · exact (coupled_update listeners _).bind fun transitions =>
      (coupled_emit listeners _).bind fun _ => coupled_emitTransitions listeners transitions

/-- **Listeners are not noticed** by `execute`. -/
theorem coupled_execute (outcomes : ℕ → Except Exc V) (acquiredAt completedAt : ℚ) :
    Coupled (Unnoticed listeners)
      (execute listeners outcomes acquiredAt completedAt :
        Program (BreakerStage cfg Exc ω) (Raised Exc) V)
      (execute [] outcomes acquiredAt completedAt) := by
  refine (coupled_acquirePermission listeners acquiredAt).bind fun admitted => ?_
  refine (coupled_emitTransitions listeners admitted.2).bind fun _ => ?_
  refine (coupled_invoke listeners outcomes).tryExcept (fun exc => ?_) fun result => ?_
  · exact (coupled_onComplete listeners admitted.1 (some exc) completedAt).bind
      fun _ => Coupled.throw _
  · exact (coupled_onComplete listeners admitted.1 none completedAt).bind
      fun _ => Coupled.pure result

end CircuitBreaker
