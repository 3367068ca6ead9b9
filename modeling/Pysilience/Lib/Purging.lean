/-
Inputs that cannot be seen.

A system takes one input after the other, and an observer sees a part of its state only.  Some
inputs are hidden from the observer.  It suffices to look at single steps: if a hidden input does
not change what is seen, and every other input makes of states that look the same states that look
the same, then no run tells the observer anything about the hidden inputs, which may as well be left
out.

Main definitions:

* `Purging.Unwinding` — the two conditions on single steps.

Main results:

* `Purging.Unwinding.foldl` — states that look the same look the same after the same inputs;
* `Purging.Unwinding.purge` — **leaving out the hidden inputs changes nothing that is seen**;
* `Purging.Unwinding.insert` — one hidden input changes nothing that is seen, now or later.
-/

import Mathlib.Data.List.Basic

set_option relaxedAutoImplicit false
set_option autoImplicit false

namespace Purging

universe u v w

variable {σ : Type u} {α : Type v} {β : Type w}

/-- The observer sees `view s` of a state `s`, and nothing of the inputs that are `hidden`. -/
structure Unwinding (step : σ → α → σ) (view : σ → β) (hidden : α → Bool) : Prop where
  hide : ∀ s a, hidden a = true → view (step s a) = view s
  carry : ∀ s t a, hidden a = false → view s = view t → view (step s a) = view (step t a)

namespace Unwinding

variable {step : σ → α → σ} {view : σ → β} {hidden : α → Bool}

/-- States that look the same look the same after one more input. -/
theorem congr (h : Unwinding step view hidden) {s t : σ} (hst : view s = view t) (a : α) :
    view (step s a) = view (step t a) := by
  cases ha : hidden a with
  | true => rw [h.hide s a ha, h.hide t a ha, hst]
  | false => exact h.carry s t a ha hst

/-- States that look the same look the same after the same inputs. -/
theorem foldl (h : Unwinding step view hidden) (as : List α) : ∀ {s t : σ}, view s = view t →
    view (as.foldl step s) = view (as.foldl step t) := by
  induction as with
  | nil => exact fun hst => hst
  | cons a as ih =>
      intro s t hst
      rw [List.foldl_cons, List.foldl_cons]
      exact ih (h.congr hst a)

/-- **Leaving out the hidden inputs changes nothing that is seen.** -/
theorem purge (h : Unwinding step view hidden) (as : List α) (s : σ) :
    view (as.foldl step s) = view ((as.filter fun a => !hidden a).foldl step s) := by
  induction as generalizing s with
  | nil => rfl
  | cons a as ih =>
      rw [List.foldl_cons, ih]
      cases ha : hidden a with
      | true =>
          rw [List.filter_cons_of_neg (by simp [ha])]
          exact h.foldl _ (h.hide s a ha)
      | false => rw [List.filter_cons_of_pos (by simp [ha]), List.foldl_cons]

/-- One hidden input changes nothing that is seen, now or later. -/
theorem insert (h : Unwinding step view hidden) (before after : List α) {a : α}
    (ha : hidden a = true) (s : σ) :
    view ((before ++ a :: after).foldl step s) = view ((before ++ after).foldl step s) := by
  rw [List.foldl_append, List.foldl_append, List.foldl_cons]
  exact h.foldl after (h.hide _ a ha)

end Unwinding

end Purging
