/-
A pool of workers that serve jobs first come, first served.

A job waits until a worker starts it, runs for as long as it takes, and is done; a job that waits
may also be dropped.  The pool is *diligent* if no time passes while a worker is idle and a job
waits, and *fair* if no time passes while a job waits and another runs that was submitted after it.
In which order the jobs are started that are started at one instant makes no difference.

What a job waits for is then the work of the jobs before it, and nothing else: while it waits all
workers are busy, and they are busy with jobs that were submitted before.  So the time it waits,
once for every worker, is the time for which these jobs run meanwhile.  In particular a job waits no
longer than the work before it, divided by the number of workers.

Main definitions:

* `WorkerPool.Status`, `WorkerPool.Job`, `WorkerPool.Pool` — the jobs and the pool;
* `WorkerPool.Pool.Fair` — whoever runs came before all that wait;
* `WorkerPool.Pool.Moves` — the steps of a diligent and fair pool;
* `WorkerPool.Status.ranWithin` — for how long a job ran in a period;
* `WorkerPool.Pool.Ok` — what the steps keep.

Main results:

* `WorkerPool.Pool.Ok.step` — every step keeps the account;
* `WorkerPool.Pool.Ok.of_moves` — **a job waits for the work before it**.
-/

import Mathlib.Algebra.BigOperators.Group.List.Basic
import Mathlib.Algebra.Order.Group.Defs
import Mathlib.Algebra.Order.Group.MinMax
import Mathlib.Algebra.Order.Sub.Basic
import Mathlib.Logic.Relation
import Mathlib.Tactic.Abel

set_option relaxedAutoImplicit false
set_option autoImplicit false

namespace WorkerPool

universe u

/-- What is in a list after something was appended to it. -/
theorem getElem?_concat_cases {α : Type u} {l : List α} {a b : α} {i : ℕ}
    (h : (l ++ [a])[i]? = some b) : l[i]? = some b ∧ i < l.length ∨ i = l.length ∧ b = a := by
  rcases Nat.lt_or_ge i l.length with hlt | hge
  · rw [List.getElem?_append_left hlt] at h
    exact .inl ⟨h, hlt⟩
  · rw [List.getElem?_append_right hge, List.getElem?_singleton] at h
    split at h
    · next hzero => exact .inr ⟨by omega, (Option.some_inj.1 h).symm⟩
    · cases h

/-! ### The pool -/

/-- What has become of a job. -/
inductive Status (T : Type u)
  | waiting
  | dropped (till : T)
  | running (since : T)
  | done (since till : T)
  deriving DecidableEq

variable {T : Type u}

namespace Status

def isWaiting : Status T → Bool
  | .waiting => true
  | _ => false

def isRunning : Status T → Bool
  | .running _ => true
  | _ => false

/-- Some worker has started the job. -/
def isStarted : Status T → Bool
  | .running _ | .done .. => true
  | _ => false

/-- Until when the job has waited for nothing, at the instant `now`. -/
def waitedTill (now : T) : Status T → Option T
  | .waiting => some now
  | .dropped till => some till
  | _ => none

end Status

/-- A job: when it was submitted, and what has become of it. -/
structure Job (T : Type u) where
  submittedAt : T
  status : Status T

/-- The pool at the instant `now`, with the jobs in the order of their submission. -/
structure Pool (T : Type u) where
  workers : ℕ
  now : T
  jobs : List (Job T)

namespace Pool

/-- How many workers are at work. -/
def busy (p : Pool T) : ℕ := p.jobs.countP fun job => job.status.isRunning

/-- The pool with another status of a job. -/
def become (p : Pool T) (i : ℕ) (job : Job T) (status : Status T) : Pool T :=
  { p with jobs := p.jobs.set i { job with status := status } }

/-- What runs was submitted before everything that waits. -/
def Fair (p : Pool T) : Prop :=
  ∀ (i j : ℕ) (first second : Job T), i < j → p.jobs[i]? = some first →
    p.jobs[j]? = some second → first.status = .waiting → second.status.isRunning = false

/-- The steps of a diligent and fair pool. -/
inductive Moves [AddCommGroup T] [LinearOrder T] (p : Pool T) : Pool T → Prop
  | submit : Moves p { p with jobs := p.jobs ++ [⟨p.now, .waiting⟩] }
  /-- A worker that is free starts a job that waits. -/
  | start (i : ℕ) (job : Job T) : p.jobs[i]? = some job → job.status = .waiting →
      p.busy < p.workers → Moves p (p.become i job (.running p.now))
  | finish (i : ℕ) (job : Job T) (since : T) : p.jobs[i]? = some job →
      job.status = .running since → Moves p (p.become i job (.done since p.now))
  | drop (i : ℕ) (job : Job T) : p.jobs[i]? = some job → job.status = .waiting →
      Moves p (p.become i job (.dropped p.now))
  /-- No time passes while a worker is idle and a job waits, or while a job waits and a later one
  runs. -/
  | pass (d : T) : 0 ≤ d →
      ((∀ job ∈ p.jobs, job.status.isWaiting = false) ∨ p.busy = p.workers ∧ p.Fair) →
      Moves p { p with now := p.now + d }

end Pool

/-! ### Work within a period -/

section Work

variable [AddCommGroup T] [LinearOrder T] [IsOrderedAddMonoid T]

/-- The part of the period from `a` to `b` in which something ran that began at `since` and ended at
`till`. -/
def overlap (a b since till : T) : T := max 0 (min till b - max since a)

/-- What runs goes on for as long as time passes. -/
theorem overlap_add {a b since d : T} (ha : a ≤ b) (hsince : since ≤ b) (hd : 0 ≤ d) :
    overlap a (b + d) since (b + d) = overlap a b since b + d := by
  have hbefore : 0 ≤ b - max since a := sub_nonneg.2 (max_le hsince ha)
  rw [overlap, overlap, min_self, min_self, max_eq_right hbefore, add_sub_right_comm,
    max_eq_right (add_nonneg hbefore hd)]

omit [IsOrderedAddMonoid T] in
/-- What runs on after the period adds nothing to it. -/
theorem overlap_of_le {a b since till till' : T} (h : b ≤ till) (h' : b ≤ till') :
    overlap a b since till' = overlap a b since till := by
  rw [overlap, overlap, min_eq_right h, min_eq_right h']

omit [IsOrderedAddMonoid T] in
/-- What ended before adds nothing to what passes. -/
theorem overlap_ended {a b b' since till : T} (h : till ≤ b) (h' : till ≤ b') :
    overlap a b' since till = overlap a b since till := by
  rw [overlap, overlap, min_eq_left h, min_eq_left h']

/-- What begins after the period does not run in it. -/
theorem overlap_begun {a b since till : T} (h : b ≤ since) : overlap a b since till = 0 := by
  refine max_eq_left (sub_nonpos.2 ?_)
  exact ((min_le_right _ _).trans h).trans (le_max_left _ _)

/-- A period of no length. -/
theorem overlap_self {a since till : T} : overlap a a since till = 0 :=
  max_eq_left (sub_nonpos.2 ((min_le_right _ _).trans (le_max_right _ _)))

/-- For how long a job ran between `a` and `b`, at the instant `now`. -/
def Status.ranWithin (a b now : T) : Status T → T
  | .running since => overlap a b since now
  | .done since till => overlap a b since till
  | _ => 0

/-- In a period of no length nothing runs. -/
theorem Status.ranWithin_self (a now : T) (status : Status T) : status.ranWithin a a now = 0 := by
  cases status with
  | running | done => exact overlap_self
  | _ => rfl

/-- The instants of a job lie in the past, and in order. -/
def Job.Past (now : T) (job : Job T) : Prop :=
  job.submittedAt ≤ now ∧ match job.status with
    | .waiting => True
    | .dropped till => job.submittedAt ≤ till ∧ till ≤ now
    | .running since => since ≤ now
    | .done since till => since ≤ till ∧ till ≤ now

theorem Job.Past.add {now d : T} {job : Job T} (h : job.Past now) (hd : 0 ≤ d) :
    job.Past (now + d) := by
  have hle : now ≤ now + d := le_add_of_nonneg_right hd
  obtain ⟨submittedAt, status⟩ := job
  obtain ⟨hsubmitted, hstatus⟩ := h
  refine ⟨hsubmitted.trans hle, ?_⟩
  cases status with
  | waiting => trivial
  | dropped till => exact ⟨hstatus.1, hstatus.2.trans hle⟩
  | running since => exact hstatus.trans hle
  | done since till => exact ⟨hstatus.1, hstatus.2.trans hle⟩

/-- As time passes, what runs goes on and the rest stays. -/
theorem Job.Past.ranWithin_now {now d a : T} {job : Job T} (h : job.Past now) (ha : a ≤ now)
    (hd : 0 ≤ d) : job.status.ranWithin a (now + d) (now + d) =
      job.status.ranWithin a now now + if job.status.isRunning then d else 0 := by
  have hle : now ≤ now + d := le_add_of_nonneg_right hd
  obtain ⟨submittedAt, status⟩ := job
  obtain ⟨-, hstatus⟩ := h
  cases status with
  | running since => exact overlap_add ha hstatus hd
  | done since till =>
      exact (overlap_ended hstatus.2 (hstatus.2.trans hle)).trans (add_zero _).symm
  | waiting | dropped => exact (add_zero (0 : T)).symm

/-- A period that is over does not change. -/
theorem Job.ranWithin_past {now d a b : T} {job : Job T} (hb : b ≤ now) (hd : 0 ≤ d) :
    job.status.ranWithin a b (now + d) = job.status.ranWithin a b now := by
  cases job.status with
  | running since => exact overlap_of_le hb (hb.trans (le_add_of_nonneg_right hd))
  | _ => rfl

omit [AddCommGroup T] [IsOrderedAddMonoid T] in
/-- Nobody has waited beyond the present. -/
theorem Job.Past.till_le {now till : T} {job : Job T} (h : job.Past now)
    (htill : job.status.waitedTill now = some till) : job.submittedAt ≤ till ∧ till ≤ now := by
  obtain ⟨submittedAt, status⟩ := job
  obtain ⟨hsubmitted, hstatus⟩ := h
  cases status with
  | waiting =>
      obtain rfl := Option.some_inj.1 htill
      exact ⟨hsubmitted, le_refl _⟩
  | dropped t =>
      obtain rfl := Option.some_inj.1 htill
      exact hstatus
  | running | done => cases htill

/-! ### What the steps keep -/

namespace Pool

/-- What the steps keep; the last part is the account of the jobs that wait, or have waited until
they were dropped. -/
structure Ok (p : Pool T) : Prop where
  past : ∀ job ∈ p.jobs, job.Past p.now
  busy_le : p.busy ≤ p.workers
  account : ∀ (i : ℕ) (job : Job T) till, p.jobs[i]? = some job →
    job.status.waitedTill p.now = some till → p.workers • (till - job.submittedAt) =
      ((p.jobs.take i).map fun earlier =>
        earlier.status.ranWithin job.submittedAt till p.now).sum

omit [AddCommGroup T] [LinearOrder T] [IsOrderedAddMonoid T] in
/-- The jobs with another status of one of them. -/
theorem getElem?_become {p : Pool T} {i : ℕ} {job : Job T} (hi : p.jobs[i]? = some job)
    (status : Status T) (j : ℕ) : (p.become i job status).jobs[j]? =
      if j = i then some { job with status := status } else p.jobs[j]? := by
  rw [become, List.getElem?_set]
  split
  · next h =>
    subst h
    rw [if_pos rfl, if_pos (List.getElem?_eq_some_iff.1 hi).1]
  · next h => rw [if_neg (Ne.symm h)]

omit [AddCommGroup T] [LinearOrder T] [IsOrderedAddMonoid T] in
/-- What does not change with the status of one of the jobs. -/
theorem map_take_become {β : Type*} {p : Pool T} {i : ℕ} {job : Job T} (hi : p.jobs[i]? = some job)
    {status : Status T} (f : Job T → β) (hf : f { job with status := status } = f job) (k : ℕ) :
    ((p.become i job status).jobs.take k).map f = (p.jobs.take k).map f := by
  rw [List.map_take, List.map_take]
  congr 1
  refine List.ext_getElem? fun j => ?_
  rw [List.getElem?_map, List.getElem?_map, getElem?_become hi]
  split
  · next h =>
    subst h
    rw [hi, Option.map_some, Option.map_some, hf]
  · rfl

omit [AddCommGroup T] [LinearOrder T] [IsOrderedAddMonoid T] in
/-- The workers at work with another status of a job. -/
theorem busy_become {p : Pool T} {i : ℕ} {job : Job T} (hi : p.jobs[i]? = some job)
    (status : Status T) :
    (p.become i job status).busy + (if job.status.isRunning then 1 else 0) =
      p.busy + if status.isRunning then 1 else 0 := by
  obtain ⟨hlt, rfl⟩ := List.getElem?_eq_some_iff.1 hi
  simp only [busy, become, List.countP_set hlt]
  have hpos : (if (p.jobs[i]).status.isRunning then 1 else 0) ≤
      p.jobs.countP fun job => job.status.isRunning := by
    split
    · next h => exact List.countP_pos_iff.2 ⟨_, List.getElem_mem hlt, h⟩
    · exact Nat.zero_le _
  omega

omit [AddCommGroup T] [LinearOrder T] [IsOrderedAddMonoid T] in
/-- A job that is submitted occupies no worker. -/
theorem busy_submit (p : Pool T) (submittedAt : T) :
    busy { p with jobs := p.jobs ++ [⟨submittedAt, .waiting⟩] } = p.busy := by
  rw [busy, List.countP_append, List.countP_singleton]
  rfl

omit [IsOrderedAddMonoid T] in
/-- A job gets another status, for which it has run and waited as long as before. -/
theorem Ok.become {p : Pool T} (h : p.Ok) {i : ℕ} {job : Job T} (hi : p.jobs[i]? = some job)
    {status : Status T} (hpast : Job.Past p.now { job with status := status })
    (hbusy : (p.become i job status).busy ≤ p.workers)
    (hran : ∀ a b, b ≤ p.now → status.ranWithin a b p.now = job.status.ranWithin a b p.now)
    (htill : ∀ till, status.waitedTill p.now = some till →
      job.status.waitedTill p.now = some till) : (p.become i job status).Ok := by
  refine ⟨fun other hother => ?_, hbusy, fun k other till hk hother => ?_⟩
  · obtain ⟨j, hj⟩ := List.getElem?_of_mem hother
    rw [getElem?_become hi] at hj
    split at hj
    · exact Option.some_inj.1 hj ▸ hpast
    · exact h.past other (List.mem_of_getElem? hj)
  · obtain ⟨first, hfirst, hsubmitted, htill'⟩ : ∃ first, p.jobs[k]? = some first ∧
        first.submittedAt = other.submittedAt ∧ first.status.waitedTill p.now = some till := by
      rw [getElem?_become hi] at hk
      split at hk
      · next hkey =>
        subst hkey
        obtain rfl := Option.some_inj.1 hk
        exact ⟨job, hi, rfl, htill till hother⟩
      · exact ⟨other, hk, rfl, hother⟩
    have hle := ((h.past first (List.mem_of_getElem? hfirst)).till_le htill').2
    rw [map_take_become hi _ (hran _ _ hle), ← hsubmitted]
    exact h.account k first till hfirst htill'

/-- A job is submitted. -/
theorem Ok.submit {p : Pool T} (h : p.Ok) :
    Ok { p with jobs := p.jobs ++ [⟨p.now, .waiting⟩] } := by
  refine ⟨fun job hjob => ?_, ?_, fun i job till hi htill => ?_⟩
  · rcases List.mem_append.1 hjob with hjob | hjob
    · exact h.past job hjob
    · rw [List.mem_singleton.1 hjob]
      exact ⟨le_refl _, trivial⟩
  · exact (busy_submit p p.now).trans_le h.busy_le
  · rcases getElem?_concat_cases hi with ⟨hi, hlt⟩ | ⟨rfl, rfl⟩
    · change _ = (((p.jobs ++ [_]).take i).map _).sum
      rw [List.take_append_of_le_length hlt.le]
      exact h.account i job till hi htill
    · obtain rfl : p.now = till := Option.some_inj.1 htill
      have hzero : ∀ job ∈ p.jobs.take p.jobs.length,
          job.status.ranWithin p.now p.now p.now = 0 := fun job _ => Status.ranWithin_self ..
      change p.workers • (p.now - p.now) = (((p.jobs ++ [_]).take p.jobs.length).map _).sum
      rw [sub_self, nsmul_zero, List.take_append_of_le_length (le_refl _),
        List.map_congr_left hzero, List.map_const', List.sum_replicate, nsmul_zero]

omit [LinearOrder T] [IsOrderedAddMonoid T] in
/-- The sum of what grows by the same where it grows. -/
theorem sum_map_add {β : Type*} (l : List β) (f g : β → T) (q : β → Bool) (d : T)
    (h : ∀ x ∈ l, g x = f x + if q x then d else 0) :
    (l.map g).sum = (l.map f).sum + l.countP q • d := by
  induction l with
  | nil => simp
  | cons x l ih =>
      rw [List.map_cons, List.map_cons, List.sum_cons, List.sum_cons, List.countP_cons,
        ih fun y hy => h y (List.mem_cons_of_mem _ hy), h x List.mem_cons_self]
      split
      · rw [add_nsmul, one_nsmul]
        abel
      · rw [add_zero, add_zero, add_assoc]

omit [AddCommGroup T] [LinearOrder T] [IsOrderedAddMonoid T] in
/-- While a job waits, the workers are busy with the jobs before it. -/
theorem Fair.busy_eq {p : Pool T} (h : p.Fair) {i : ℕ} {job : Job T} (hi : p.jobs[i]? = some job)
    (hw : job.status = .waiting) :
    (p.jobs.take i).countP (fun job => job.status.isRunning) = p.busy := by
  have hafter : (p.jobs.drop i).countP (fun job => job.status.isRunning) = 0 := by
    refine List.countP_eq_zero.2 fun later hlater => ?_
    obtain ⟨j, hj⟩ := List.getElem?_of_mem hlater
    rw [List.getElem?_drop] at hj
    cases j with
    | zero =>
        rw [Nat.add_zero, hi] at hj
        obtain rfl := Option.some_inj.1 hj
        rw [hw]
        exact Bool.false_ne_true
    | succ j =>
        rw [h i (i + (j + 1)) job later (by omega) hi hj hw]
        exact Bool.false_ne_true
  conv_rhs => rw [busy, ← List.take_append_drop i p.jobs, List.countP_append, hafter, Nat.add_zero]

/-- Time passes. -/
theorem Ok.pass {p : Pool T} (h : p.Ok) {d : T} (hd : 0 ≤ d)
    (hdiligent : (∀ job ∈ p.jobs, job.status.isWaiting = false) ∨ p.busy = p.workers ∧ p.Fair) :
    Ok { p with now := p.now + d } := by
  refine ⟨fun job hjob => (h.past job hjob).add hd, h.busy_le, fun i job till hi htill => ?_⟩
  have hpast := h.past job (List.mem_of_getElem? hi)
  cases hs : job.status with
  | waiting =>
      -- all workers are busy, and the jobs before this one go on
      obtain ⟨hbusy, hfair⟩ : p.busy = p.workers ∧ p.Fair := by
        refine hdiligent.resolve_left fun hnone => ?_
        have hnot := hnone job (List.mem_of_getElem? hi)
        rw [hs] at hnot
        cases hnot
      have haccount := h.account i job p.now hi (by rw [hs]; rfl)
      rw [hs] at htill
      obtain rfl : p.now + d = till := Option.some_inj.1 htill
      have hsum := sum_map_add (p.jobs.take i)
        (fun earlier => earlier.status.ranWithin job.submittedAt p.now p.now)
        (fun earlier => earlier.status.ranWithin job.submittedAt (p.now + d) (p.now + d))
        (fun earlier => earlier.status.isRunning) d
        fun earlier hearlier =>
          (h.past earlier (List.mem_of_mem_take hearlier)).ranWithin_now hpast.1 hd
      change p.workers • (p.now + d - job.submittedAt) = _
      rw [hsum, ← haccount, hfair.busy_eq hi hs, hbusy, ← nsmul_add, sub_add_eq_add_sub]
  | dropped t =>
      -- the period in which it waited is over
      rw [hs] at htill
      obtain rfl : t = till := Option.some_inj.1 htill
      have hle : t ≤ p.now := (hpast.till_le (by rw [hs]; rfl)).2
      have hsame : ∀ earlier ∈ p.jobs.take i,
          earlier.status.ranWithin job.submittedAt t (p.now + d) =
            earlier.status.ranWithin job.submittedAt t p.now := fun earlier _ =>
        Job.ranWithin_past hle hd
      change _ = ((p.jobs.take i).map _).sum
      rw [List.map_congr_left hsame]
      exact h.account i job t hi (by rw [hs]; rfl)
  | running | done =>
      rw [hs] at htill
      cases htill

/-- **Every step keeps the account.** -/
theorem Ok.step {p q : Pool T} (h : p.Ok) (hmoves : p.Moves q) : q.Ok := by
  cases hmoves with
  | submit => exact h.submit
  | start i job hi hs hfree =>
      have hpast := h.past job (List.mem_of_getElem? hi)
      have hbusy := busy_become hi (.running p.now)
      rw [hs] at hbusy
      refine h.become hi ⟨hpast.1, le_refl p.now⟩ ?_ (fun a b hb => ?_) nofun
      · exact (show (p.become i job (.running p.now)).busy = p.busy + 1 from hbusy) ▸ hfree
      · rw [hs]
        exact overlap_begun hb
  | finish i job since hi hs =>
      have hpast := h.past job (List.mem_of_getElem? hi)
      obtain ⟨hsubmitted, hsince⟩ := hpast
      rw [hs] at hsince
      have hbusy := busy_become hi (.done since p.now)
      refine h.become hi ⟨hsubmitted, hsince, le_refl p.now⟩ ?_ (fun a b _ => by rw [hs]; rfl)
        nofun
      have hle : (p.become i job (.done since p.now)).busy ≤ p.busy := by
        rw [hs] at hbusy
        exact (Nat.le_add_right _ 1).trans hbusy.le
      exact hle.trans h.busy_le
  | drop i job hi hs =>
      have hpast := h.past job (List.mem_of_getElem? hi)
      have hbusy := busy_become hi (.dropped p.now)
      rw [hs] at hbusy
      refine h.become hi ⟨hpast.1, hpast.1, le_refl p.now⟩ ?_ (fun a b _ => by rw [hs]; rfl)
        (fun till htill => by rw [hs]; exact htill)
      exact (show (p.become i job (.dropped p.now)).busy = p.busy from hbusy) ▸ h.busy_le
  | pass d hd hdiligent => exact h.pass hd hdiligent

/-- **A job waits for the work before it.**  Whatever a diligent and fair pool does, the time for
which a job waits, or has waited until it was dropped, is once for every worker the time for which
the jobs before it run meanwhile. -/
theorem Ok.of_moves {p q : Pool T} (h : p.Ok) (hmoves : Relation.ReflTransGen Moves p q) :
    q.Ok := by
  induction hmoves with
  | refl => exact h
  | tail _ hstep ih => exact ih.step hstep

omit [IsOrderedAddMonoid T] in
/-- A pool without jobs. -/
theorem Ok.empty (workers : ℕ) (now : T) : Ok ⟨workers, now, []⟩ :=
  ⟨nofun, Nat.zero_le _, nofun⟩

end Pool

end Work

end WorkerPool
