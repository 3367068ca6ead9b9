/-
Reports that are written down when something happens and sent later.

Something happens and is written down at once; the report of it is left to a task that sends its
reports one after the other, at any later time, while other tasks do the same.  What is sent and
what is left to be sent then always make up what was written down, but not in the same order: two
tasks that have something to send at the same time may overtake each other.

Main definitions:

* `Outbox.State`, `Outbox.Step` — the record, the tasks, and what was sent;
* `Outbox.PromptStep` — the steps that write nothing down while something is left to be sent;
* `Outbox.Balanced` — what happens between two states.

Main results:

* `Outbox.balanced_of_steps` — **nothing is lost, invented or sent twice**, and what was sent stays
  in front of what is sent later;
* `Outbox.InOrder.step` — **prompt reports are sent in order**.
-/

import Mathlib.Data.List.Perm.Basic
import Mathlib.Logic.Relation

set_option relaxedAutoImplicit false
set_option autoImplicit false

namespace Outbox

universe u

/-- What happened, in order; what each task still has to send; and what was sent, in order. -/
structure State (α : Type u) where
  made : List α
  waiting : List (List α)
  sent : List α

variable {α : Type u}

/-- Nothing happened yet. -/
def State.empty : State α := ⟨[], [], []⟩

/-- All reports that are left to be sent. -/
def State.unsent (o : State α) : List α := o.waiting.flatten

/-- A step: things happen, and a new task is to report them; or some task sends its next report. -/
inductive Step : State α → State α → Prop
  | make (o : State α) (es : List α) : Step o ⟨o.made ++ es, o.waiting ++ [es], o.sent⟩
  | send (o : State α) (i : ℕ) (e : α) (es : List α) : o.waiting[i]? = some (e :: es) →
      Step o ⟨o.made, o.waiting.set i es, o.sent ++ [e]⟩

/-! ### The balance -/

/-- Taking the next report of a task off leaves the others. -/
theorem unsent_send {ws : List (List α)} {i : ℕ} {e : α} {es : List α}
    (h : ws[i]? = some (e :: es)) : (e :: (ws.set i es).flatten).Perm ws.flatten := by
  induction ws generalizing i with
  | nil => simp at h
  | cons w ws ih =>
      cases i with
      | zero =>
          simp only [List.getElem?_cons_zero, Option.some_inj] at h
          subst h
          simp
      | succ i =>
          rw [List.getElem?_cons_succ] at h
          rw [List.set_cons_succ, List.flatten_cons, List.flatten_cons]
          exact List.perm_middle.symm.trans ((ih h).append_left w)

/-- Between two states: what was sent before is in front of what was sent meanwhile, what happened
before is in front of what happened meanwhile, and what was sent meanwhile is, up to its order,
what was left to be sent or happened meanwhile and is not left to be sent now. -/
def Balanced (o o' : State α) : Prop :=
  ∃ later news, o'.sent = o.sent ++ later ∧ o'.made = o.made ++ news ∧
    (later ++ o'.unsent).Perm (o.unsent ++ news)

theorem Balanced.refl (o : State α) : Balanced o o := ⟨[], [], by simp, by simp, by simp⟩

theorem Balanced.trans {o o' o'' : State α} (h : Balanced o o') (h' : Balanced o' o'') :
    Balanced o o'' := by
  obtain ⟨later, news, hs, hm, hp⟩ := h
  obtain ⟨later', news', hs', hm', hp'⟩ := h'
  refine ⟨later ++ later', news ++ news', by rw [hs', hs, List.append_assoc],
    by rw [hm', hm, List.append_assoc], ?_⟩
  calc (later ++ later' ++ o''.unsent).Perm (later ++ (o'.unsent ++ news')) := by
        rw [List.append_assoc]
        exact hp'.append_left later
    _ = later ++ o'.unsent ++ news' := by rw [List.append_assoc]
    List.Perm _ (o.unsent ++ news ++ news') := hp.append_right news'
    _ = o.unsent ++ (news ++ news') := List.append_assoc _ _ _

theorem Step.balanced {o o' : State α} (h : Step o o') : Balanced o o' := by
  cases h with
  | make es => exact ⟨[], es, by simp, rfl, by simp [State.unsent]⟩
  | send i e es hi =>
      refine ⟨[e], [], rfl, by simp, ?_⟩
      simpa [State.unsent] using unsent_send hi

/-- **Nothing is lost, invented or sent twice**, and what was sent stays in front. -/
theorem balanced_of_steps {o o' : State α} (h : Relation.ReflTransGen Step o o') :
    Balanced o o' := by
  induction h with
  | refl => exact Balanced.refl o
  | tail _ hstep ih => exact ih.trans hstep.balanced

/-! ### The order -/

/-- A step that makes at most one thing happen, and that only when nothing is left to be sent. -/
inductive PromptStep : State α → State α → Prop
  | idle (o : State α) : PromptStep o ⟨o.made ++ [], o.waiting ++ [[]], o.sent⟩
  | make (o : State α) (e : α) : o.unsent = [] →
      PromptStep o ⟨o.made ++ [e], o.waiting ++ [[e]], o.sent⟩
  | send (o : State α) (i : ℕ) (e : α) (es : List α) : o.waiting[i]? = some (e :: es) →
      PromptStep o ⟨o.made, o.waiting.set i es, o.sent ++ [e]⟩

/-- What was sent and at most one report that is left make up what happened, in order. -/
structure InOrder (o : State α) : Prop where
  made : o.sent ++ o.unsent = o.made
  unsent : o.unsent.length ≤ 1

theorem InOrder.empty : InOrder (State.empty : State α) :=
  ⟨rfl, by simp [State.empty, State.unsent]⟩

/-- **Prompt reports are sent in order.** -/
theorem InOrder.step {o o' : State α} (h : InOrder o) (hstep : PromptStep o o') : InOrder o' := by
  cases hstep with
  | idle => exact ⟨by simpa [State.unsent] using h.made, by simpa [State.unsent] using h.unsent⟩
  | make e hnone =>
      have hmade : o.sent = o.made := by simpa [hnone] using h.made
      rw [State.unsent] at hnone
      exact ⟨by simp [State.unsent, hnone, hmade], by simp [State.unsent, hnone]⟩
  | send i e es hi =>
      have hperm : (e :: (o.waiting.set i es).flatten).Perm o.unsent := unsent_send hi
      -- the report is the only one left
      have hnil : (o.waiting.set i es).flatten = [] := by
        have hlen := hperm.length_eq
        have hle := h.unsent
        rw [List.length_cons] at hlen
        exact List.length_eq_zero_iff.1 (by omega)
      rw [hnil] at hperm
      have hall : o.unsent = [e] := List.perm_singleton.1 hperm.symm
      have hmade := h.made
      rw [hall] at hmade
      exact ⟨by simp [State.unsent, hnil, hmade], by simp [State.unsent, hnil]⟩

end Outbox
