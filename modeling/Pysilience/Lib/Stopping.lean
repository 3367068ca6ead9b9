/-
Computations that go through places and stop at the first one that stops them.

A computation that may fail is described by the places it visits, in order: when it succeeds none
of them stopped it, and when it fails it was the first place that stops, and the exception is one
this place may raise.  Such descriptions compose, and they determine how a computation ends.

Main definitions:

* `Stopping.First` — the first place of a list that stops;
* `Stopping.Outcome` — how a computation that visits these places ends.

Main results:

* `Stopping.First.unique` — there is only one first place;
* `Stopping.Outcome.map`, `Stopping.Outcome.bind` — how descriptions compose;
* `Stopping.Outcome.of_first` — **a computation ends at the first place that stops**.
-/

import Mathlib.Data.List.Basic

set_option relaxedAutoImplicit false
set_option autoImplicit false

namespace Stopping

universe u v w x

variable {α : Type u} {ε : Type v} {β : Type w} {γ : Type x}

/-! ### The first place that stops -/

section

variable {stops : α → Prop}

/-- The first place of the list that stops. -/
def First (stops : α → Prop) (places : List α) (a : α) : Prop :=
  ∃ before after, places = before ++ a :: after ∧ (∀ b ∈ before, ¬ stops b) ∧ stops a

theorem First.mem {places : List α} {a : α} (h : First stops places a) : a ∈ places := by
  obtain ⟨before, after, rfl, -, -⟩ := h
  exact List.mem_append_right before (.head _)

theorem First.holds {places : List α} {a : α} (h : First stops places a) : stops a := by
  obtain ⟨-, -, -, -, ha⟩ := h
  exact ha

/-- There is only one first place. -/
theorem First.unique {places : List α} {a b : α} (ha : First stops places a)
    (hb : First stops places b) : a = b := by
  classical
  have hfind : ∀ c, First stops places c → places.find? (fun c => decide (stops c)) = some c := by
    rintro c ⟨before, after, rfl, hbefore, hc⟩
    rw [List.find?_eq_some_iff_append]
    refine ⟨decide_eq_true hc, before, after, rfl, fun b hb => ?_⟩
    rw [decide_eq_false (hbefore b hb)]
    rfl
  exact Option.some_inj.1 ((hfind a ha).symm.trans (hfind b hb))

theorem First.append_left {places : List α} {a : α} (h : First stops places a)
    (places' : List α) : First stops (places ++ places') a := by
  obtain ⟨before, after, rfl, hbefore, ha⟩ := h
  exact ⟨before, after ++ places', by rw [List.append_assoc, List.cons_append], hbefore, ha⟩

theorem First.append_right {places places' : List α} {a : α} (h : First stops places' a)
    (hnone : ∀ b ∈ places, ¬ stops b) : First stops (places ++ places') a := by
  obtain ⟨before, after, rfl, hbefore, ha⟩ := h
  refine ⟨places ++ before, after, (List.append_assoc ..).symm, fun b hb => ?_, ha⟩
  rcases List.mem_append.1 hb with hb | hb
  · exact hnone b hb
  · exact hbefore b hb

end

/-! ### How a computation ends -/

variable {stops : α → Prop} {raises : α → ε → Prop}

/-- How a computation that visits the places ends: with a good result, and none of the places
stops, or with an exception that the first place that stops raises. -/
def Outcome (stops : α → Prop) (raises : α → ε → Prop) (places : List α) (good : β → Prop) :
    Except ε β → Prop
  | .ok b => good b ∧ ∀ a ∈ places, ¬ stops a
  | .error e => ∃ a, First stops places a ∧ raises a e

/-- A computation that visits nothing. -/
theorem Outcome.pure {good : β → Prop} {b : β} (h : good b) :
    Outcome stops raises [] good (.ok b) :=
  ⟨h, by simp⟩

/-- A place that does not stop. -/
theorem Outcome.pass {good : β → Prop} {a : α} {b : β} (h : good b) (ha : ¬ stops a) :
    Outcome stops raises [a] good (.ok b) :=
  ⟨h, List.forall_mem_singleton.2 ha⟩

/-- A place that stops. -/
theorem Outcome.stop {good : β → Prop} {a : α} {e : ε} (ha : stops a) (he : raises a e) :
    Outcome stops raises [a] good (.error e) :=
  ⟨a, ⟨[], [], rfl, by simp, ha⟩, he⟩

/-- Applying a function to the result. -/
theorem Outcome.map {good : β → Prop} {good' : γ → Prop} {places : List α} {r : Except ε β}
    {f : β → γ} (h : Outcome stops raises places good r) (hf : ∀ b, good b → good' (f b)) :
    Outcome stops raises places good' (r.map f) := by
  cases r with
  | ok b => exact ⟨hf b h.1, h.2⟩
  | error e => exact h

/-- One computation after another. -/
theorem Outcome.bind {good : β → Prop} {good' : γ → Prop} {places places' : List α}
    {r : Except ε β} {f : β → Except ε γ} (h : Outcome stops raises places good r)
    (hf : ∀ b, good b → Outcome stops raises places' good' (f b)) :
    Outcome stops raises (places ++ places') good' (r.bind f) := by
  cases r with
  | error e =>
      obtain ⟨a, ha, he⟩ := h
      exact ⟨a, ha.append_left places', he⟩
  | ok b =>
      obtain ⟨hgood, hnone⟩ := h
      have hnext := hf b hgood
      change Outcome stops raises (places ++ places') good' (f b)
      cases hr : f b with
      | error e =>
          rw [hr] at hnext
          obtain ⟨a, ha, he⟩ := hnext
          exact ⟨a, ha.append_right hnone, he⟩
      | ok c =>
          rw [hr] at hnext
          refine ⟨hnext.1, fun a ha => ?_⟩
          rcases List.mem_append.1 ha with ha | ha
          · exact hnone a ha
          · exact hnext.2 a ha

/-- **A computation ends at the first place that stops.** -/
theorem Outcome.of_first {good : β → Prop} {places : List α} {a : α} {r : Except ε β}
    (h : Outcome stops raises places good r) (ha : First stops places a) :
    ∃ e, r = .error e ∧ raises a e := by
  cases r with
  | ok b => exact absurd ha.holds (h.2 a ha.mem)
  | error e =>
      obtain ⟨a', ha', he⟩ := h
      exact ⟨e, rfl, ha.unique ha' ▸ he⟩

end Stopping
