/-
Machines with a partial step, their runs, and the induction principles over runs.

A machine has one initial state and a partial step function; all nondeterminism sits in the
actions.  A *run* is a list of actions each of which was possible, and each of which met a side
condition `ok` on the state it was taken in.  The side condition is what lets one speak about
"every run whose steps all avoid such and such": the unrestricted runs are those of
`Machine.anything`.

Main definitions:

* `Transition.Machine` — an initial state and a partial step;
* `Transition.Machine.Run` — the runs whose steps all meet a condition;
* `Transition.Machine.Reachable` — the states of the unrestricted runs;
* `Transition.Machine.exec` — executing a list of actions.

Main results:

* `Transition.Machine.Run.invariant` — what the initial state has and every admissible step keeps
  holds after every run;
* `Transition.Machine.Run.simulation` — a step-by-step simulation carries runs to runs;
* `Transition.Machine.exists_run_of_exec` — executing a list of actions yields a run.
-/

import Mathlib.Data.List.Basic
import Mathlib.Logic.Relation

set_option relaxedAutoImplicit false
set_option autoImplicit false

namespace Transition

universe u v w

/-- A machine: an initial state and a partial step.  `step s a = none` says that the action `a`
is not possible in the state `s`. -/
structure Machine (σ : Type u) (α : Type v) where
  /-- The state every run starts in. -/
  init : σ
  /-- The effect of an action, where it is possible. -/
  step : σ → α → Option σ

namespace Machine

variable {σ : Type u} {α : Type v}

/-- The side condition that every step meets. -/
def anything : σ → α → Prop := fun _ _ => True

/-- The runs of a machine whose steps all meet the condition `ok`: `M.Run ok as s` says that the
actions `as`, taken in this order from the initial state, end in `s`. -/
inductive Run (M : Machine σ α) (ok : σ → α → Prop) : List α → σ → Prop
  | nil : Run M ok [] M.init
  | snoc {as : List α} {s s' : σ} {a : α} :
      Run M ok as s → ok s a → M.step s a = some s' → Run M ok (as ++ [a]) s'

/-- The states reached by some run, without any condition on its steps. -/
def Reachable (M : Machine σ α) (s : σ) : Prop := ∃ as, M.Run anything as s

variable {M : Machine σ α} {ok ok' : σ → α → Prop}

/-- A run under a condition is a run under every weaker one. -/
theorem Run.mono (hok : ∀ s a, ok s a → ok' s a) {as : List α} {s : σ} (h : M.Run ok as s) :
    M.Run ok' as s := by
  induction h with
  | nil => exact Run.nil
  | snoc _ ha hs ih => exact Run.snoc ih (hok _ _ ha) hs

/-- Every run reaches a reachable state. -/
theorem Run.reachable {as : List α} {s : σ} (h : M.Run ok as s) : M.Reachable s :=
  ⟨as, h.mono fun _ _ _ => trivial⟩

/-- A step from a reachable state reaches one. -/
theorem Reachable.step {s s' : σ} {a : α} (h : M.Reachable s) (hs : M.step s a = some s') :
    M.Reachable s' := by
  obtain ⟨as, h⟩ := h
  exact ⟨as ++ [a], h.snoc trivial hs⟩

/-- **The invariant rule**: what holds initially and is kept by every step that meets the
condition holds at the end of every run.  The step may assume that its state was reached. -/
theorem Run.invariant {I : σ → Prop} (h0 : I M.init)
    (hstep : ∀ as s a s', M.Run ok as s → I s → ok s a → M.step s a = some s' → I s')
    {as : List α} {s : σ} (h : M.Run ok as s) : I s := by
  induction h with
  | nil => exact h0
  | snoc hr ha hs ih => exact hstep _ _ _ _ hr ih ha hs

/-- Reachable states satisfy every invariant of the unrestricted steps. -/
theorem Reachable.invariant {I : σ → Prop} (h0 : I M.init)
    (hstep : ∀ s a s', I s → M.step s a = some s' → I s') {s : σ} (h : M.Reachable s) : I s := by
  obtain ⟨as, h⟩ := h
  exact h.invariant h0 fun _ _ _ _ _ hi _ hs => hstep _ _ _ hi hs

/-- **The simulation rule**: if every admissible step of a machine is matched, under an invariant
of the runs, by a sequence of steps of a relation on abstract states, every run is matched. -/
theorem Run.simulation {τ : Type w} {R : τ → τ → Prop} {abs : σ → τ} {I : σ → Prop}
    (hinv : ∀ as s, M.Run ok as s → I s)
    (hsim : ∀ s a s', I s → ok s a → M.step s a = some s' →
      Relation.ReflTransGen R (abs s) (abs s'))
    {as : List α} {s : σ} (h : M.Run ok as s) :
    Relation.ReflTransGen R (abs M.init) (abs s) := by
  induction h with
  | nil => exact Relation.ReflTransGen.refl
  | snoc hr ha hs ih => exact ih.trans (hsim _ _ _ (hinv _ _ hr) ha hs)

/-! ### Executing a list of actions -/

/-- The state after a list of actions taken from `s`, if all of them are possible and pass the
test in the state they are taken in. -/
def exec (M : Machine σ α) (test : σ → α → Bool) : σ → List α → Option σ
  | s, [] => some s
  | s, a :: as => if test s a then (M.step s a).bind fun s' => M.exec test s' as else none

@[simp] theorem exec_nil (test : σ → α → Bool) (s : σ) : M.exec test s [] = some s := rfl

/-- The first action of an execution passed the test and was possible. -/
theorem exec_cons {test : σ → α → Bool} {s s' : σ} {a : α} {as : List α}
    (h : M.exec test s (a :: as) = some s') :
    test s a = true ∧ ∃ t, M.step s a = some t ∧ M.exec test t as = some s' := by
  rw [exec] at h
  split at h
  · next ht =>
    obtain ⟨t, hs, h⟩ := Option.bind_eq_some_iff.1 h
    exact ⟨ht, t, hs, h⟩
  · cases h

/-- Executing actions after a run extends the run, when the test implies its condition. -/
theorem Run.exec_append {test : σ → α → Bool} (hok : ∀ s a, test s a = true → ok s a)
    (bs : List α) : ∀ {as : List α} {s s' : σ}, M.Run ok as s → M.exec test s bs = some s' →
      M.Run ok (as ++ bs) s' := by
  induction bs with
  | nil =>
      intro as s s' h hs
      rw [exec_nil, Option.some_inj] at hs
      subst hs
      simpa using h
  | cons b bs ih =>
      intro as s s' h hs
      obtain ⟨ht, t, hstep, hs⟩ := exec_cons hs
      rw [List.append_cons]
      exact ih (h.snoc (hok s b ht) hstep) hs

/-- **The invariant rule for continuations**: what holds after a run and is kept by every further
step that passes the test holds after every continuation whose steps pass it. -/
theorem Run.exec_invariant {test : σ → α → Bool} (hok : ∀ s a, test s a = true → ok s a)
    {I : σ → Prop}
    (hstep : ∀ as s a s', M.Run ok as s → I s → ok s a → M.step s a = some s' → I s')
    (bs : List α) : ∀ {as : List α} {s s' : σ}, M.Run ok as s → I s →
      M.exec test s bs = some s' → I s' := by
  induction bs with
  | nil =>
      intro as s s' _ hi hs
      rw [exec_nil, Option.some_inj] at hs
      exact hs ▸ hi
  | cons b bs ih =>
      intro as s s' h hi hs
      obtain ⟨ht, t, ht', hs⟩ := exec_cons hs
      have hb : ok s b := hok s b ht
      exact ih (h.snoc hb ht') (hstep _ _ _ _ h hi hb ht') hs

/-- What every step that passes the test keeps, whatever state it is taken in, holds after every
execution whose steps pass it. -/
theorem exec_invariant {test : σ → α → Bool} {I : σ → Prop}
    (hstep : ∀ s a s', test s a = true → I s → M.step s a = some s' → I s') (bs : List α) :
    ∀ {s s' : σ}, I s → M.exec test s bs = some s' → I s' := by
  induction bs with
  | nil =>
      intro s s' hi hs
      rw [exec_nil, Option.some_inj] at hs
      exact hs ▸ hi
  | cons b bs ih =>
      intro s s' hi hs
      obtain ⟨ht, t, ht', hs⟩ := exec_cons hs
      exact ih (hstep _ _ _ ht hi ht') hs

/-- Finding a run by execution: if the state after the actions `as` passes the test `p`, some run
that meets the condition ends in a state that does. -/
theorem exists_run_of_exec (M : Machine σ α) (test : σ → α → Bool)
    (hok : ∀ s a, test s a = true → ok s a) (as : List α) (p : σ → Bool)
    (h : (M.exec test M.init as).map p = some true) : ∃ s, M.Run ok as s ∧ p s = true := by
  cases hs : M.exec test M.init as with
  | none => simp [hs] at h
  | some s =>
      simp only [hs, Option.map_some, Option.some_inj] at h
      exact ⟨s, by simpa using Run.nil.exec_append hok as hs, h⟩

/-- Finding a reachable state by execution. -/
theorem exists_reachable_of_exec (M : Machine σ α) (as : List α) (p : σ → Bool)
    (h : (M.exec (fun _ _ => true) M.init as).map p = some true) :
    ∃ s, M.Reachable s ∧ p s = true := by
  obtain ⟨s, hr, hp⟩ := M.exists_run_of_exec _ (fun _ _ _ => trivial) as p h
  exact ⟨s, hr.reachable, hp⟩

end Machine

end Transition
