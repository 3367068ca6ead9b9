/-
The fallback pattern: an action instead of an exception.

`execute` and `execute_async` call a function, and call the action when the function raises an
exception the configuration says so of.  Both leave this to one helper, which calls the action and
does not await what it returns.  An action that is a coroutine function returns a coroutine, so it
recovers nothing: the caller gets the coroutine, and no one learns what it raises.

Main definitions:

* `Fallbacks.FallbackConfig` — an accepted configuration;
* `Fallbacks.Returned` — what a call returns: a value, or a coroutine that is still to be awaited;
* `Fallbacks.Fallback` — a fallback instance;
* `Fallbacks.Fallback.shouldFallback`, `Fallbacks.Fallback.invokeFallback` — the two helpers;
* `Fallbacks.Fallback.execute`, `Fallbacks.Fallback.executeAsync` — the methods;
* `Fallbacks.Fallback.Specified` — what the methods are documented to do.

Main results:

* `Fallbacks.Fallback.shouldFallback_iff` — which exceptions the action is called for;
* `Fallbacks.Fallback.exec_guarded_value`, `Fallbacks.Fallback.exec_guarded_bypassed`,
  `Fallbacks.Fallback.exec_guarded_recovered`, `Fallbacks.Fallback.exec_guarded_failed`,
  `Fallbacks.Fallback.exec_guarded_passed` — what the methods do, one lemma per case;
* `Fallbacks.Fallback.specified_iff` — **when both methods do what is documented**.
-/

import Pysilience.Core.Listeners

set_option relaxedAutoImplicit false
set_option autoImplicit false

namespace Fallbacks

open Python Programs Listeners

variable {Exc Cls ω V : Type}

/-! ### Configuration and events -/

/-- The fields of a configuration, before they are checked. -/
structure ConfigFields (Cls : Type) where
  /-- The default of the source is the class `Exception` alone. -/
  fallbackOn : List Cls
  raiseOn : List Cls := []

/-- The check of `FallbackConfig.__post_init__`. -/
def ConfigFields.postInit (c : ConfigFields Cls) : Except FString Unit :=
  checks [(c.fallbackOn.isEmpty, [.text "fallback_on must contain at least one exception type"])]

/-- A configuration that was accepted: `__post_init__` raised nothing. -/
structure FallbackConfig (Cls : Type) extends ConfigFields Cls where
  accepted : toConfigFields.postInit = .ok ()

/-- `FallbackConfig()`. -/
def FallbackConfig.default (Exc : Type) {Cls : Type} [Exceptions Exc Cls] : FallbackConfig Cls :=
  ⟨{ fallbackOn := [Exceptions.exception Exc] }, rfl⟩

/-- The types of events. -/
inductive FallbackEventType
  | success | recovered | fallbackError
  deriving DecidableEq, Repr

/-- `FallbackEvent`. -/
structure FallbackEvent (Exc : Type) where
  eventType : FallbackEventType
  name : String
  exception : Option Exc := none
  fallbackException : Option Exc := none
  deriving DecidableEq

/-! ### Instances -/

/-- What a call returns: a value, or a coroutine, which comes to a value or an exception when it is
awaited. -/
inductive Returned (Exc V : Type)
  | value (value : V)
  | coroutine (outcome : Except Exc V)

/-- What a call finally comes to, once a coroutine it returned has been awaited. -/
def finalOutcome : Except Exc (Returned Exc V) → Except Exc V
  | .ok (.value value) => .ok value
  | .ok (.coroutine outcome) => outcome
  | .error exc => .error exc

/-- What the methods do besides calling the function and emitting events. -/
inductive FallbackAction (Exc : Type)
  | calledAction (exc : Exc)
  deriving DecidableEq

/-- What the methods run on; a fallback instance has no fields that change. -/
abbrev FallbackStage (Exc ω : Type) := Stage Unit (FallbackAction Exc) (FallbackEvent Exc) ω

variable [Exceptions Exc Cls]

/-- A fallback instance, with the listeners that `on_event` has registered. -/
structure Fallback (Exc Cls ω V : Type) [Exceptions Exc Cls] where
  action : Exc → Except Exc (Returned Exc V)
  config : FallbackConfig Cls
  name : String
  listeners : List (Listener (FallbackEvent Exc) ω Exc)

namespace Fallback

/-- `Fallback.__init__`.  A name that is `None` or empty is replaced. -/
def init (action : Exc → Except Exc (Returned Exc V)) (config : Option (FallbackConfig Cls))
    (name : Option String) : Fallback Exc Cls ω V where
  action := action
  config := config.getD (FallbackConfig.default Exc)
  name := match name with
    | none | some "" => "fallback"
    | some name => name
  listeners := []

/-- `on_event`. -/
def onEvent (self : Fallback Exc Cls ω V) (listener : Listener (FallbackEvent Exc) ω Exc) :
    Fallback Exc Cls ω V :=
  { self with listeners := self.listeners ++ [listener] }

variable (self : Fallback Exc Cls ω V)

/-- The event a call is reported with. -/
def event (eventType : FallbackEventType) (exception fallbackException : Option Exc) :
    FallbackEvent Exc where
  eventType := eventType
  name := self.name
  exception := exception
  fallbackException := fallbackException

/-- `_should_fallback`. -/
def shouldFallback (exc : Exc) : Bool :=
  if !self.config.raiseOn.isEmpty && isinstanceAny exc self.config.raiseOn then false
  else isinstanceAny exc self.config.fallbackOn

/-- `self.action(exc)`. -/
def callAction (exc : Exc) : Program (FallbackStage Exc ω) Exc (Returned Exc V) :=
  ofExec fun s => (self.action exc, s.note (.did (.calledAction exc)))

/-- `_invoke_fallback`. -/
def invokeFallback (exc : Exc) : Program (FallbackStage Exc ω) Exc (Returned Exc V) := do
  let fallbackResult ← tryExcept (self.callAction exc) caught
    (fun fbExc => do
      emitEvent self.listeners (self.event .fallbackError (some exc) (some fbExc))
      throw fbExc)
    pure
  emitEvent self.listeners (self.event .recovered (some exc) none)
  return fallbackResult

/-- The `try` statement of both methods; its handler is for every `BaseException`. -/
def guarded (func : Program (FallbackStage Exc ω) Exc (Returned Exc V)) :
    Program (FallbackStage Exc ω) Exc (Returned Exc V) :=
  tryExcept func (fun _ => true)
    (fun exc => if self.shouldFallback exc = false then throw exc else self.invokeFallback exc)
    (fun result => do
      emitEvent self.listeners (self.event .success none none)
      return result)

/-- `execute`. -/
def execute (outcome : Except Exc V) : Program (FallbackStage Exc ω) Exc (Returned Exc V) :=
  self.guarded (invoke fun _ => outcome.map .value)

/-- `execute_async`, where `outcome` is what becomes of the awaitable of the factory. -/
def executeAsync (outcome : Except Exc V) : Program (FallbackStage Exc ω) Exc (Returned Exc V) :=
  self.guarded (invoke fun _ => outcome.map .value)

/-! ### What the methods do -/

variable {self}

/-- The action is called for the exceptions that match `fallback_on` and do not match `raise_on`. -/
theorem shouldFallback_iff {exc : Exc} : self.shouldFallback exc = true ↔
    isinstanceAny exc self.config.raiseOn = false ∧
      isinstanceAny exc self.config.fallbackOn = true := by
  rw [shouldFallback, isinstanceAny_of_nonempty]
  cases isinstanceAny exc self.config.raiseOn <;> simp

section Runs

variable {outcome : Except Exc V} {s : FallbackStage Exc ω} {exc fbExc : Exc}

theorem exec_callAction (exc : Exc) (s : FallbackStage Exc ω) :
    exec (self.callAction exc) s = (self.action exc, s.note (.did (.calledAction exc))) := rfl

theorem exec_primary_error (h : outcome = .error exc) :
    exec (invoke fun _ => outcome.map .value :
        Program (FallbackStage Exc ω) Exc (Returned Exc V)) s =
      (.error exc, s.note .invoked) := by
  rw [exec_invoke, h]
  rfl

/-- The function returns a value. -/
theorem exec_guarded_value {value : V} (h : outcome = .ok value) :
    exec (self.guarded (invoke fun _ => outcome.map .value)) s =
      (.ok (.value value),
        (s.note .invoked).notified self.listeners (self.event .success none none)) := by
  have hcall : exec (invoke fun _ => outcome.map .value :
      Program (FallbackStage Exc ω) Exc (Returned Exc V)) s =
      (.ok (.value value), s.note .invoked) := by
    rw [exec_invoke, h]
    rfl
  rw [guarded, exec_tryExcept_ok hcall, exec_bind_ok (exec_emitEvent _ _ _), exec_pure]

/-- The action is not called for the exception. -/
theorem exec_guarded_bypassed (h : outcome = .error exc) (hs : self.shouldFallback exc = false) :
    exec (self.guarded (invoke fun _ => outcome.map .value)) s =
      (.error exc, s.note .invoked) := by
  rw [guarded, exec_tryExcept_caught (exec_primary_error h) rfl, if_pos hs, exec_throw]

/-- The action is called for the exception. -/
theorem exec_guarded_fallback (h : outcome = .error exc) (hs : self.shouldFallback exc = true) :
    exec (self.guarded (invoke fun _ => outcome.map .value)) s =
      exec (self.invokeFallback exc) (s.note .invoked) := by
  rw [guarded, exec_tryExcept_caught (exec_primary_error h) rfl, if_neg (Bool.not_eq_false _ ▸ hs)]

/-- The action returns something, and the caller gets it. -/
theorem exec_guarded_recovered {returned : Returned Exc V} (h : outcome = .error exc)
    (hs : self.shouldFallback exc = true) (ha : self.action exc = .ok returned) :
    exec (self.guarded (invoke fun _ => outcome.map .value)) s =
      (.ok returned, ((s.note .invoked).note (.did (.calledAction exc))).notified self.listeners
        (self.event .recovered (some exc) none)) := by
  have haction : exec (self.callAction exc) (s.note .invoked) =
      (.ok returned, (s.note .invoked).note (.did (.calledAction exc))) := by
    rw [exec_callAction, ha]
  rw [exec_guarded_fallback h hs, invokeFallback,
    exec_bind_ok ((exec_tryExcept_ok haction _ _ _).trans (exec_pure _ _)),
    exec_bind_ok (exec_emitEvent _ _ _), exec_pure]

/-- The action raises an `Exception`. -/
theorem exec_guarded_failed (h : outcome = .error exc) (hs : self.shouldFallback exc = true)
    (ha : self.action exc = .error fbExc) (hc : caught fbExc = true) :
    exec (self.guarded (invoke fun _ => outcome.map .value)) s =
      (.error fbExc, ((s.note .invoked).note (.did (.calledAction exc))).notified self.listeners
        (self.event .fallbackError (some exc) (some fbExc))) := by
  have haction : exec (self.callAction exc) (s.note .invoked) =
      (.error fbExc, (s.note .invoked).note (.did (.calledAction exc))) := by
    rw [exec_callAction, ha]
  rw [exec_guarded_fallback h hs, invokeFallback]
  refine exec_bind_error ?_ _
  rw [exec_tryExcept_caught haction hc, exec_bind_ok (exec_emitEvent _ _ _), exec_throw]

/-- The action raises something that its handler is not for. -/
theorem exec_guarded_passed (h : outcome = .error exc) (hs : self.shouldFallback exc = true)
    (ha : self.action exc = .error fbExc) (hc : caught fbExc = false) :
    exec (self.guarded (invoke fun _ => outcome.map .value)) s =
      (.error fbExc, (s.note .invoked).note (.did (.calledAction exc))) := by
  have haction : exec (self.callAction exc) (s.note .invoked) =
      (.error fbExc, (s.note .invoked).note (.did (.calledAction exc))) := by
    rw [exec_callAction, ha]
  rw [exec_guarded_fallback h hs, invokeFallback]
  exact exec_bind_error (exec_tryExcept_passed haction hc _ _) _

end Runs

/-! ### What is documented -/

/-- What the methods are documented to do when the function comes to `outcome`: what is returned or
raised, and the calls and events in order.  The action counts as what it finally comes to; of an
action that finally raises something other than an `Exception` it is only said that it is called
once. -/
structure Specified (fallback : Fallback Exc Cls ω V) (outcome : Except Exc V)
    (run : Except Exc (Returned Exc V) × FallbackStage Exc ω) : Prop where
  value : ∀ value, outcome = .ok value → run.1 = .ok (.value value) ∧
    run.2.trace = [.invoked, .emitted (fallback.event .success none none)]
  bypassed : ∀ exc, outcome = .error exc →
    isinstanceAny exc fallback.config.raiseOn = true ∨
      isinstanceAny exc fallback.config.fallbackOn = false →
    run.1 = .error exc ∧ run.2.trace = [.invoked]
  called : ∀ exc, outcome = .error exc → isinstanceAny exc fallback.config.raiseOn = false →
    isinstanceAny exc fallback.config.fallbackOn = true →
    run.2.calls = 1 ∧ run.2.actions = [.calledAction exc]
  recovered : ∀ exc value, outcome = .error exc →
    isinstanceAny exc fallback.config.raiseOn = false →
    isinstanceAny exc fallback.config.fallbackOn = true →
    finalOutcome (fallback.action exc) = .ok value → run.1 = .ok (.value value) ∧
      run.2.trace = [.invoked, .did (.calledAction exc),
        .emitted (fallback.event .recovered (some exc) none)]
  failed : ∀ exc fbExc, outcome = .error exc → isinstanceAny exc fallback.config.raiseOn = false →
    isinstanceAny exc fallback.config.fallbackOn = true →
    finalOutcome (fallback.action exc) = .error fbExc → caught fbExc = true → run.1 = .error fbExc ∧
      run.2.trace = [.invoked, .did (.calledAction exc),
        .emitted (fallback.event .fallbackError (some exc) (some fbExc))]

/-- The function raises an exception the action is called for, the action returns a coroutine, and
that would come to a value or raise an `Exception`. -/
def Unawaited (fallback : Fallback Exc Cls ω V) (outcome : Except Exc V) : Prop :=
  ∃ exc awaited, outcome = .error exc ∧ isinstanceAny exc fallback.config.raiseOn = false ∧
    isinstanceAny exc fallback.config.fallbackOn = true ∧
    fallback.action exc = .ok (.coroutine awaited) ∧
    ∀ fbExc, awaited = .error fbExc → caught fbExc = true

section Cases

variable {run : Except Exc (Returned Exc V) × FallbackStage Exc ω} {exc : Exc}

/-- What is documented of a function that returns a value. -/
theorem specified_value_iff {value : V} :
    self.Specified (.ok value) run ↔ run.1 = .ok (.value value) ∧
      run.2.trace = [.invoked, .emitted (self.event .success none none)] := by
  constructor
  · exact fun h => h.value value rfl
  · intro h
    refine ⟨fun value' hv => ?_, nofun, nofun,
      nofun, nofun⟩
    obtain rfl := Except.ok.inj hv
    exact h

/-- What is documented of an exception the action is not called for. -/
theorem specified_bypassed_iff (hs : self.shouldFallback exc = false) :
    self.Specified (.error exc) run ↔ run.1 = .error exc ∧ run.2.trace = [.invoked] := by
  have hnot : ∀ exc', (Except.error exc : Except Exc V) = .error exc' →
      isinstanceAny exc' self.config.raiseOn = false →
      isinstanceAny exc' self.config.fallbackOn = true → False := by
    intro exc' he hr hf
    obtain rfl := Except.error.inj he
    rw [shouldFallback_iff.2 ⟨hr, hf⟩] at hs
    cases hs
  constructor
  · intro h
    refine h.bypassed exc rfl ?_
    by_contra hno
    rw [not_or, Bool.not_eq_true, Bool.not_eq_false] at hno
    exact hnot exc rfl hno.1 hno.2
  · intro h
    refine ⟨nofun, fun exc' he _ => ?_, fun exc' he hr hf => ?_,
      fun exc' _ he hr hf => ?_, fun exc' _ he hr hf => ?_⟩
    · obtain rfl := Except.error.inj he
      exact h
    all_goals exact (hnot exc' he hr hf).elim

/-- What is documented of an exception the action is called for. -/
theorem specified_fallback_iff (hs : self.shouldFallback exc = true) :
    self.Specified (.error exc) run ↔
      (run.2.calls = 1 ∧ run.2.actions = [.calledAction exc]) ∧
      (∀ value, finalOutcome (self.action exc) = .ok value → run.1 = .ok (.value value) ∧
        run.2.trace = [.invoked, .did (.calledAction exc),
          .emitted (self.event .recovered (some exc) none)]) ∧
      ∀ fbExc, finalOutcome (self.action exc) = .error fbExc → caught fbExc = true →
        run.1 = .error fbExc ∧ run.2.trace = [.invoked, .did (.calledAction exc),
          .emitted (self.event .fallbackError (some exc) (some fbExc))] := by
  obtain ⟨hr, hf⟩ := shouldFallback_iff.1 hs
  constructor
  · intro h
    exact ⟨h.called exc rfl hr hf, fun value => h.recovered exc value rfl hr hf,
      fun fbExc => h.failed exc fbExc rfl hr hf⟩
  · rintro ⟨hcalled, hrecovered, hfailed⟩
    refine ⟨nofun, fun exc' he hno => ?_, fun exc' he _ _ => ?_,
      fun exc' value he _ _ => ?_, fun exc' fbExc he _ _ => ?_⟩
    all_goals obtain rfl := Except.error.inj he
    · rw [hr, hf] at hno
      rcases hno with hno | hno <;> cases hno
    · exact hcalled
    · exact hrecovered value
    · exact hfailed fbExc

end Cases

/-- What is documented, for an exception the action is called for, when it returns something. -/
theorem specified_returned_iff {exc : Exc} {returned : Returned Exc V}
    (hs : self.shouldFallback exc = true) (ha : self.action exc = .ok returned) (outside : ω) :
    self.Specified (.error exc)
      (exec (self.guarded (invoke fun _ => (Except.error exc).map .value))
        (Stage.start () outside)) ↔
    ¬ ∃ awaited, returned = .coroutine awaited ∧
      ∀ fbExc, awaited = .error fbExc → caught fbExc = true := by
  rw [specified_fallback_iff hs, exec_guarded_recovered rfl hs ha, ha]
  cases returned with
  | value value =>
      refine iff_of_true ⟨⟨rfl, rfl⟩, fun value' hv => ?_, nofun⟩ ?_
      · obtain rfl := Except.ok.inj hv
        exact ⟨rfl, rfl⟩
      · rintro ⟨awaited, he, -⟩
        cases he
  | coroutine awaited =>
      -- the caller gets the coroutine, and not what it comes to
      cases awaited with
      | ok value =>
          refine iff_of_false (fun h => nomatch (h.2.1 value rfl).1) (not_not.2 ?_)
          exact ⟨_, rfl, nofun⟩
      | error fbExc =>
          cases hc : caught fbExc with
          | true =>
              refine iff_of_false (fun h => nomatch (h.2.2 fbExc rfl hc).1) (not_not.2 ?_)
              refine ⟨_, rfl, fun fbExc' he => ?_⟩
              obtain rfl := Except.error.inj he
              exact hc
          | false =>
              refine iff_of_true ⟨⟨rfl, rfl⟩, nofun, fun fbExc' he hc' => ?_⟩ ?_
              · obtain rfl := Except.error.inj he
                rw [hc] at hc'
                cases hc'
              · rintro ⟨awaited, he, hcaught⟩
                have hc' := hcaught fbExc (Returned.coroutine.inj he).symm
                rw [hc] at hc'
                cases hc'

/-- An action that raises something itself is dealt with as documented. -/
theorem specified_raised {exc fbExc : Exc} (hs : self.shouldFallback exc = true)
    (ha : self.action exc = .error fbExc) (outside : ω) :
    self.Specified (.error exc)
      (exec (self.guarded (invoke fun _ => (Except.error exc).map .value))
        (Stage.start () outside)) := by
  rw [specified_fallback_iff hs, ha]
  cases hc : caught fbExc with
  | true =>
      rw [exec_guarded_failed rfl hs ha hc]
      refine ⟨⟨rfl, rfl⟩, nofun, fun fbExc' he _ => ?_⟩
      obtain rfl := Except.error.inj he
      exact ⟨rfl, rfl⟩
  | false =>
      rw [exec_guarded_passed rfl hs ha hc]
      refine ⟨⟨rfl, rfl⟩, nofun, fun fbExc' he hc' => ?_⟩
      obtain rfl := Except.error.inj he
      rw [hc] at hc'
      cases hc'

/-- The condition, for an exception the action is called for. -/
theorem unawaited_iff {exc : Exc} (hs : self.shouldFallback exc = true) :
    self.Unawaited (.error exc) ↔ ∃ awaited, self.action exc = .ok (.coroutine awaited) ∧
      ∀ fbExc, awaited = .error fbExc → caught fbExc = true := by
  obtain ⟨hr, hf⟩ := shouldFallback_iff.1 hs
  constructor
  · rintro ⟨exc', awaited, he, -, -, ha⟩
    obtain rfl := Except.error.inj he
    exact ⟨awaited, ha⟩
  · rintro ⟨awaited, ha⟩
    exact ⟨exc, awaited, rfl, hr, hf, ha⟩

/-- The `try` statement does what is documented exactly when no coroutine is left to be awaited. -/
theorem specified_guarded_iff (self : Fallback Exc Cls ω V) (outcome : Except Exc V)
    (outside : ω) :
    self.Specified outcome
      (exec (self.guarded (invoke fun _ => outcome.map .value)) (Stage.start () outside)) ↔
    ¬ self.Unawaited outcome := by
  cases outcome with
  | ok value =>
      rw [exec_guarded_value rfl, specified_value_iff]
      refine iff_of_true ⟨rfl, rfl⟩ ?_
      rintro ⟨exc, awaited, he, -⟩
      cases he
  | error exc =>
      cases hs : self.shouldFallback exc with
      | false =>
          rw [exec_guarded_bypassed rfl hs, specified_bypassed_iff hs]
          refine iff_of_true ⟨rfl, rfl⟩ ?_
          rintro ⟨exc', awaited, he, hr, hf, -⟩
          obtain rfl := Except.error.inj he
          rw [shouldFallback_iff.2 ⟨hr, hf⟩] at hs
          cases hs
      | true =>
          rw [unawaited_iff hs]
          cases ha : self.action exc with
          | ok returned =>
              rw [specified_returned_iff hs ha]
              simp only [Except.ok.injEq]
          | error fbExc =>
              refine iff_of_true (specified_raised hs ha outside) ?_
              rintro ⟨awaited, he, -⟩
              cases he

/-- **Both methods do what is documented** exactly when no coroutine of the action is left to be
awaited, where the action of `execute` is one that returns no coroutines. -/
theorem specified_iff (self : Fallback Exc Cls ω V) (outcome : Except Exc V) (outside : ω) :
    (((∀ exc awaited, self.action exc ≠ .ok (.coroutine awaited)) →
        self.Specified outcome (exec (self.execute outcome) (Stage.start () outside))) ∧
      self.Specified outcome (exec (self.executeAsync outcome) (Stage.start () outside))) ↔
    ¬ self.Unawaited outcome := by
  have hiff := self.specified_guarded_iff outcome outside
  exact ⟨fun h => hiff.1 h.2, fun h => ⟨fun _ => hiff.2 h, hiff.2 h⟩⟩

/-- An action that is a coroutine function, and a function that raises a `ValueError`: the caller of
`execute_async` gets the coroutine. -/
theorem not_specified_coroutine :
    let fallback : Fallback Builtin Builtin Unit ℕ :=
      Fallback.init (fun _ => .ok (.coroutine (.ok 0))) none none
    ¬ (((∀ exc awaited, fallback.action exc ≠ .ok (.coroutine awaited)) →
          fallback.Specified (.error .valueError)
            (exec (fallback.execute (.error .valueError)) (Stage.start () ()))) ∧
        fallback.Specified (.error .valueError)
          (exec (fallback.executeAsync (.error .valueError)) (Stage.start () ()))) :=
  fun h => nomatch (h.2.recovered .valueError 0 rfl rfl rfl rfl).1

end Fallback

end Fallbacks
