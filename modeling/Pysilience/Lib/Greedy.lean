/-
Granting greedily under limits on intervals.

Requests arrive one after the other, and each is granted or refused at once.  There are limits on
the number of grants that an interval may contain.  A process is greedy if it refuses a request only
where one more grant would exceed the limit of some interval that ends there.  No way of choosing
among the same requests that keeps to the limits grants more of them: if another choice is about to
catch up, consider the interval that made the greedy process refuse.  The other choice has fewer
grants in it, and it had no more before it.

Main definitions:

* `Greedy.Limits`, `Greedy.Limits.Respects` — limits on intervals, and grants that keep to them;
* `Greedy.Granted` — the requests and the grants of a greedy process;
* `Greedy.Ahead` — as many grants, before every instant and altogether.

Main result:

* `Greedy.Granted.ahead` — **a greedy process grants as many requests as possible**, at all times.
-/

import Pysilience.Lib.ArrivalCurve

set_option relaxedAutoImplicit false
set_option autoImplicit false

namespace Greedy

open ArrivalCurve

universe u

variable {K : Type u} [LinearOrder K]

variable (K) in
/-- Limits on the number of grants that an interval may contain. -/
structure Limits where
  /-- The interval from the first to the second instant may contain so many grants. -/
  admits : K → K → ℕ → Prop
  mono : ∀ {s t m n}, admits s t n → m ≤ n → admits s t m

/-- The grants keep to the limits. -/
def Limits.Respects (L : Limits K) (g : List K) : Prop :=
  ∀ s t, s ≤ t → L.admits s t (grantsIn g s t)

/-- Fewer grants keep to the limits, too. -/
theorem Limits.Respects.sublist {L : Limits K} {g g' : List K} (h : L.Respects g)
    (hg : g'.Sublist g) : L.Respects g' :=
  fun s t hst => L.mono (h s t hst) (hg.countP_le)

/-- The requests so far and those that were granted, the latest first: a request is refused only
where one more grant would exceed a limit. -/
inductive Granted (L : Limits K) : List K → List K → Prop
  | nil : Granted L [] []
  | grant {requests g : List K} {t : K} : Granted L requests g → (∀ x ∈ requests, x ≤ t) →
      Granted L (t :: requests) (t :: g)
  | refuse {requests g : List K} {s t : K} : Granted L requests g → (∀ x ∈ requests, x ≤ t) →
      s ≤ t → ¬ L.admits s t (grantsIn g s t + 1) → Granted L (t :: requests) g

/-- The grants `g` are ahead of the grants `g'`: there are as many before every instant, and
altogether. -/
structure Ahead (g g' : List K) : Prop where
  before : ∀ s, g'.countP (· < s) ≤ g.countP (· < s)
  length_le : g'.length ≤ g.length

variable {L : Limits K} {g g' requests : List K} {s t : K}

theorem Granted.sublist (h : Granted L requests g) : g.Sublist requests := by
  induction h with
  | nil => exact List.Sublist.slnil
  | grant _ _ ih => exact ih.cons_cons _
  | refuse _ _ _ _ ih => exact ih.cons _

/-- The grants that are not in an interval were made before it. -/
theorem length_eq (hg : ∀ x ∈ g, x ≤ t) (s : K) :
    g.length = g.countP (· < s) + grantsIn g s t := by
  rw [List.length_eq_countP_add_countP (· < s), grantsIn]
  congr 1
  refine List.countP_congr fun x hx => ?_
  simp [hg x hx]

namespace Ahead

theorem nil : Ahead ([] : List K) [] := ⟨fun _ => le_rfl, le_rfl⟩

/-- One more grant keeps the grants ahead. -/
theorem lead (h : Ahead g g') (t : K) : Ahead (t :: g) g' where
  before s := (h.before s).trans (List.sublist_cons_self t g).countP_le
  length_le := Nat.le_succ_of_le h.length_le

/-- The others may grant the same request. -/
theorem both (h : Ahead g g') (t : K) : Ahead (t :: g) (t :: g') where
  before s := by
    simp only [List.countP_cons]
    exact Nat.add_le_add_right (h.before s) _
  length_le := Nat.succ_le_succ h.length_le

/-- **The others only catch up** by granting a request that exceeds a limit. -/
theorem catch_up (h : Ahead g g') (hg : ∀ x ∈ g, x ≤ t) (hg' : ∀ x ∈ g', x ≤ t) (hst : s ≤ t)
    (hfull : ¬ L.admits s t (grantsIn g s t + 1)) (hrespects : L.Respects (t :: g')) :
    Ahead g (t :: g') := by
  have hfewer : grantsIn g' s t + 1 ≤ grantsIn g s t := by
    by_contra hlt
    refine hfull (L.mono (hrespects s t hst) ?_)
    rw [grantsIn_cons, if_pos ⟨hst, le_rfl⟩]
    omega
  have hlen : (t :: g').length ≤ g.length := by
    have hbefore := h.before s
    rw [List.length_cons, length_eq hg s, length_eq hg' s]
    omega
  refine ⟨fun x => ?_, hlen⟩
  rcases lt_or_ge t x with hx | hx
  · have hall : g.countP (· < x) = g.length :=
      List.countP_eq_length.2 fun y hy => decide_eq_true ((hg y hy).trans_lt hx)
    rw [hall]
    exact (List.countP_le_length).trans hlen
  · rw [List.countP_cons_of_neg (by simpa using hx)]
    exact h.before x

end Ahead

/-- **A greedy process grants as many requests as possible**: it is ahead of every other way of
choosing among the same requests that keeps to the limits. -/
theorem Granted.ahead (h : Granted L requests g) : ∀ {g'}, g'.Sublist requests → L.Respects g' →
    Ahead g g' := by
  induction h with
  | nil =>
      intro g' hsub _
      obtain rfl := List.sublist_nil.1 hsub
      exact Ahead.nil
  | grant _ _ ih =>
      intro g' hsub hrespects
      rcases List.sublist_cons_iff.1 hsub with hsub | ⟨g'', rfl, htail⟩
      · exact (ih hsub hrespects).lead _
      · exact (ih htail (hrespects.sublist (List.sublist_cons_self _ _))).both _
  | refuse hgranted hlast hst hfull ih =>
      intro g' hsub hrespects
      rcases List.sublist_cons_iff.1 hsub with hsub | ⟨g'', rfl, htail⟩
      · exact ih hsub hrespects
      · have hless := ih htail (hrespects.sublist (List.sublist_cons_self _ _))
        exact hless.catch_up (fun x hx => hlast x (hgranted.sublist.subset hx))
          (fun x hx => hlast x (htail.subset hx)) hst hfull hrespects

end Greedy
