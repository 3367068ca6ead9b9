/-
Parties that share a state.

Any number of parties, threads or coroutines, work on one shared state.  A party *joins*, and from
then on *advances* step by step; a step reads and writes the shared state and the local state of the
party that makes it, and nothing else.  Things may also happen *outside* all parties.  Which of
these happens next is arbitrary.

Two rules bring a statement about all interleavings down to single steps.  The first is that of
annotations: an invariant of the shared state, and an assertion about each party that its own steps
establish and that the steps of the others do not disturb.  The second is that of accounts: if every
step moves as much between the shared state and the party that makes it as the one loses and the
other gains, what the parties hold together is what the shared state has handed out.

Main definitions:

* `Threads.Team` — what joining, advancing and the outside do;
* `Threads.State`, `Threads.Action`, `Threads.Team.machine` — the interleavings;
* `Threads.Team.Annotated` — an annotation that every step respects;
* `Threads.Team.Balanced` — an account that every step keeps.

Main results:

* `Threads.Team.step_cases` — all a step can do;
* `Threads.Team.Annotated.run` — **what is annotated holds in every run**;
* `Threads.Team.Balanced.run` — **what the parties hold together is what was handed out**.
-/

import Pysilience.Lib.Transition
import Mathlib.Algebra.BigOperators.Group.List.Basic

set_option relaxedAutoImplicit false
set_option autoImplicit false

namespace Threads

open Transition

universe u v w x y z

/-- Parties with the local states `P` that share a state in `σ`. -/
structure Team (σ : Type u) (P : Type v) (A : Type w) (E : Type x) (X : Type y) where
  /-- The shared state before anybody joins. -/
  init : σ
  /-- A party joins, where it may: the shared state it leaves and its local state. -/
  join : σ → A → Option (σ × P)
  /-- The party with the given number advances, where it can. -/
  advance : σ → ℕ → P → E → Option (σ × P)
  /-- Something happens that no party does. -/
  outside : σ → X → Option σ

/-- The shared state, and the parties in the order in which they joined. -/
structure State (σ : Type u) (P : Type v) where
  shared : σ
  parties : List P

/-- What can happen: a party joins, one advances, or neither. -/
inductive Action (A : Type w) (E : Type x) (X : Type y)
  | join (a : A)
  | advance (i : ℕ) (e : E)
  | outside (x : X)

namespace Team

variable {σ : Type u} {P : Type v} {A : Type w} {E : Type x} {X : Type y}

/-- One step. -/
def step (T : Team σ P A E X) (st : State σ P) : Action A E X → Option (State σ P)
  | .join a => (T.join st.shared a).map fun r => ⟨r.1, st.parties ++ [r.2]⟩
  | .advance i e =>
      st.parties[i]?.bind fun p =>
        (T.advance st.shared i p e).map fun r => ⟨r.1, st.parties.set i r.2⟩
  | .outside x => (T.outside st.shared x).map fun s => ⟨s, st.parties⟩

/-- All interleavings. -/
def machine (T : Team σ P A E X) : Machine (State σ P) (Action A E X) where
  init := ⟨T.init, []⟩
  step := T.step

/-- The cases of a step. -/
inductive StepCase (T : Team σ P A E X) (st : State σ P) : Action A E X → State σ P → Prop
  | join {a : A} {s : σ} {p : P} : T.join st.shared a = some (s, p) →
      StepCase T st (.join a) ⟨s, st.parties ++ [p]⟩
  | advance {i : ℕ} {e : E} {p p' : P} {s : σ} : st.parties[i]? = some p →
      T.advance st.shared i p e = some (s, p') →
      StepCase T st (.advance i e) ⟨s, st.parties.set i p'⟩
  | outside {x : X} {s : σ} : T.outside st.shared x = some s →
      StepCase T st (.outside x) ⟨s, st.parties⟩

/-- **All a step can do.** -/
theorem step_cases {T : Team σ P A E X} {st st' : State σ P} {a : Action A E X}
    (h : T.machine.step st a = some st') : StepCase T st a st' := by
  cases a with
  | join a =>
      obtain ⟨⟨s, p⟩, hr, rfl⟩ := Option.map_eq_some_iff.1 h
      exact .join hr
  | advance i e =>
      obtain ⟨p, hp, h⟩ := Option.bind_eq_some_iff.1 h
      obtain ⟨⟨s, p'⟩, hr, rfl⟩ := Option.map_eq_some_iff.1 h
      exact .advance hp hr
  | outside x =>
      obtain ⟨s, hr, rfl⟩ := Option.map_eq_some_iff.1 h
      exact .outside hr

/-! ### Annotations -/

/-- An annotation: `I` holds of the shared state, `Q` of the shared state and every party and its
number.  A party establishes its own assertion with each of its steps, and whatever happens leaves
the assertions of the others alone. -/
structure Annotated (T : Team σ P A E X) (ok : State σ P → Action A E X → Prop) (I : σ → Prop)
    (Q : σ → ℕ → P → Prop) : Prop where
  init : I T.init
  join : ∀ {st a s p}, ok st (.join a) → I st.shared → T.join st.shared a = some (s, p) →
    I s ∧ Q s st.parties.length p ∧
      ∀ j q, st.parties[j]? = some q → Q st.shared j q → Q s j q
  advance : ∀ {st i e p s p'}, ok st (.advance i e) → I st.shared → st.parties[i]? = some p →
    Q st.shared i p → T.advance st.shared i p e = some (s, p') →
    I s ∧ Q s i p' ∧ ∀ j q, j ≠ i → st.parties[j]? = some q → Q st.shared j q → Q s j q
  outside : ∀ {st x s}, ok st (.outside x) → I st.shared → T.outside st.shared x = some s →
    I s ∧ ∀ j q, st.parties[j]? = some q → Q st.shared j q → Q s j q

variable {T : Team σ P A E X} {ok : State σ P → Action A E X → Prop} {I : σ → Prop}
  {Q : σ → ℕ → P → Prop}

/-- Every step keeps what is annotated. -/
theorem Annotated.step (h : T.Annotated ok I Q) {st st' : State σ P} {a : Action A E X}
    (hst : I st.shared ∧ ∀ i p, st.parties[i]? = some p → Q st.shared i p) (hok : ok st a)
    (hs : T.machine.step st a = some st') :
    I st'.shared ∧ ∀ i p, st'.parties[i]? = some p → Q st'.shared i p := by
  obtain ⟨hI, hQ⟩ := hst
  cases step_cases hs with
  | join hr =>
      obtain ⟨hI', hp, hothers⟩ := h.join hok hI hr
      refine ⟨hI', fun j q hj => ?_⟩
      rcases Nat.lt_or_ge j st.parties.length with hlt | hge
      · rw [List.getElem?_append_left hlt] at hj
        exact hothers j q hj (hQ j q hj)
      · rw [List.getElem?_append_right hge, List.getElem?_singleton] at hj
        split at hj
        · next hzero =>
          obtain rfl : j = st.parties.length := by omega
          exact Option.some_inj.1 hj ▸ hp
        · cases hj
  | @advance i _ _ _ _ hp hr =>
      obtain ⟨hI', hp', hothers⟩ := h.advance hok hI hp (hQ _ _ hp) hr
      refine ⟨hI', fun j q hj => ?_⟩
      rcases eq_or_ne j i with rfl | hne
      · rw [List.getElem?_set_self (List.getElem?_eq_some_iff.1 hp).1, Option.some_inj] at hj
        exact hj ▸ hp'
      · rw [List.getElem?_set_ne hne.symm] at hj
        exact hothers j q hne hj (hQ j q hj)
  | outside hr =>
      obtain ⟨hI', hothers⟩ := h.outside hok hI hr
      exact ⟨hI', fun j q hj => hothers j q hj (hQ j q hj)⟩

/-- **What is annotated holds in every run.** -/
theorem Annotated.run (h : T.Annotated ok I Q) {as : List (Action A E X)} {st : State σ P}
    (hr : T.machine.Run ok as st) :
    I st.shared ∧ ∀ i p, st.parties[i]? = some p → Q st.shared i p :=
  hr.invariant (I := fun st => I st.shared ∧ ∀ i p, st.parties[i]? = some p → Q st.shared i p)
    ⟨h.init, fun _ _ hp => by cases hp⟩ fun _ _ _ _ _ hst hok hs => h.step hst hok hs

/-! ### Accounts -/

variable {M : Type z} [AddCancelCommMonoid M]

/-- Replacing an element changes a sum by the difference of the two elements. -/
theorem sum_map_set_add (w : P → M) {l : List P} {i : ℕ} {x : P} (y : P) (hx : l[i]? = some x) :
    ((l.set i y).map w).sum + w x = (l.map w).sum + w y := by
  induction l generalizing i with
  | nil => cases hx
  | cons z l ih =>
      cases i with
      | zero =>
          obtain rfl := Option.some_inj.1 hx
          simp only [List.set_cons_zero, List.map_cons, List.sum_cons]
          ac_rfl
      | succ i =>
          simp only [List.set_cons_succ, List.map_cons, List.sum_cons, add_assoc]
          rw [ih hx]

/-- An account: `out` is what the shared state has handed out, `held` what a party holds.  What a
step hands out is what the party that makes it gains. -/
structure Balanced (T : Team σ P A E X) (ok : State σ P → Action A E X → Prop) (out : σ → M)
    (held : P → M) : Prop where
  init : out T.init = 0
  join : ∀ {st a s p}, ok st (.join a) → T.join st.shared a = some (s, p) →
    out s = out st.shared + held p
  advance : ∀ {st i e p s p'}, ok st (.advance i e) → st.parties[i]? = some p →
    T.advance st.shared i p e = some (s, p') → out s + held p = out st.shared + held p'
  outside : ∀ {st x s}, ok st (.outside x) → T.outside st.shared x = some s → out s = out st.shared

/-- **What the parties hold together is what was handed out.** -/
theorem Balanced.run {out : σ → M} {held : P → M} (h : T.Balanced ok out held)
    {as : List (Action A E X)} {st : State σ P} (hr : T.machine.Run ok as st) :
    (st.parties.map held).sum = out st.shared := by
  refine hr.invariant (I := fun st => (st.parties.map held).sum = out st.shared) h.init.symm ?_
  intro _ st a st' _ hst hok hs
  cases step_cases hs with
  | join hr =>
      rw [List.map_append, List.sum_append, hst, h.join hok hr]
      simp
  | advance hp hr =>
      refine add_right_cancel ((sum_map_set_add held _ hp).trans ?_)
      rw [hst]
      exact (h.advance hok hp hr).symm
  | outside hr => exact hst.trans (h.outside hok hr).symm

end Team

end Threads
