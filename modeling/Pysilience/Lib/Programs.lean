/-
Programs that change a state and raise exceptions.

A program takes a state to a value or an exception, and to the state it leaves; what it did before
it raised an exception stays done.  `Programs.tryExcept` and `tryFinally` are the statements of
Python of these names.  As the exceptions a handler raises may be of other kinds than those it
handles, the two sides of `tryExcept` have types of exceptions of their own.

Two programs are *coupled* by a relation between their states when from related states they come to
the same value or exception, and to related states.  The rules for coupled programs follow the
statements, so that two runs of one program are compared without executing it.

Main definitions:

* `Programs.Program`, `Programs.exec` — the programs and what they do;
* `Programs.tryExcept`, `Programs.attempt` — the statements;
* `Programs.Coupled` — programs that no one can tell apart by their results.

Main results:

* `Programs.exec_bind_ok`, `Programs.exec_tryExcept_ok`, … — symbolic execution, one step at a time;
* `Programs.Coupled.bind`, `Programs.Coupled.ite`, `Programs.Coupled.tryExcept`,
  `Programs.Coupled.tryFinally`, `Programs.Coupled.mapM`, `Programs.Coupled.forM` — **coupled parts
  make coupled programs**.
-/

import Mathlib.Data.List.Basic

set_option relaxedAutoImplicit false
set_option autoImplicit false

namespace Programs

variable {σ τ Exc Exc' α β : Type}

/-- A program on states `σ` that returns a value or raises an exception. -/
abbrev Program (σ Exc α : Type) := ExceptT Exc (StateM σ) α

/-- What a program returns or raises, and the state it leaves. -/
def exec (x : Program σ Exc α) (s : σ) : Except Exc α × σ := (x.run.run s).run

/-- The program that is given by what it does. -/
def ofExec (f : σ → Except Exc α × σ) : Program σ Exc α := ExceptT.mk f

/-- An exception of one kind as an exception of another. -/
class Raises (Exc Exc' : Type) where
  raised : Exc → Exc'

instance : Raises Exc Exc := ⟨id⟩

/-! ### Execution -/

section Execution

@[simp] theorem exec_ofExec (f : σ → Except Exc α × σ) (s : σ) : exec (ofExec f) s = f s := rfl

@[simp] theorem exec_pure (a : α) (s : σ) : exec (pure a : Program σ Exc α) s = (.ok a, s) := rfl

@[simp] theorem exec_throw (e : Exc) (s : σ) :
    exec (throw e : Program σ Exc α) s = (.error e, s) := rfl

theorem exec_bind (x : Program σ Exc α) (f : α → Program σ Exc β) (s : σ) :
    exec (x >>= f) s =
      match exec x s with
      | (.ok a, s') => exec (f a) s'
      | (.error e, s') => (.error e, s') := by
  have hrun : exec (x >>= f) s = (ExceptT.bindCont f (exec x s).1).run (exec x s).2 := rfl
  rw [hrun]
  rcases exec x s with ⟨_ | _, _⟩ <;> rfl

theorem exec_bind_ok {x : Program σ Exc α} {s s' : σ} {a : α} (h : exec x s = (.ok a, s'))
    (f : α → Program σ Exc β) : exec (x >>= f) s = exec (f a) s' := by
  rw [exec_bind, h]

theorem exec_bind_error {x : Program σ Exc α} {s s' : σ} {e : Exc} (h : exec x s = (.error e, s'))
    (f : α → Program σ Exc β) : exec (x >>= f) s = (.error e, s') := by
  rw [exec_bind, h]

end Execution

/-! ### Statements -/

section Statements

variable [Raises Exc Exc']

/-- The statement `try: body; except …: handler; else: orelse`, where `catches` are the exceptions
the handler is for.  Several clauses `except` are one handler that tells them apart. -/
def tryExcept (body : Program σ Exc α) (catches : Exc → Bool) (handler : Exc → Program σ Exc' β)
    (orelse : α → Program σ Exc' β) : Program σ Exc' β :=
  ofExec fun s =>
    match exec body s with
    | (.ok a, s') => exec (orelse a) s'
    | (.error e, s') => if catches e then exec (handler e) s' else (.error (Raises.raised e), s')

/-- The program whose exceptions are of another kind. -/
def raising (x : Program σ Exc α) : Program σ Exc' α :=
  tryExcept x (fun _ => false) (fun e => throw (Raises.raised e)) pure

/-- A program as its caller sees it, who gets a value or an exception and goes on. -/
def attempt (x : Program σ Exc α) : Program σ Exc' (Except Exc α) :=
  ofExec fun s => ((.ok (exec x s).1), (exec x s).2)

theorem exec_tryExcept_ok {body : Program σ Exc α} {s s' : σ} {a : α}
    (h : exec body s = (.ok a, s')) (catches : Exc → Bool) (handler : Exc → Program σ Exc' β)
    (orelse : α → Program σ Exc' β) :
    exec (tryExcept body catches handler orelse) s = exec (orelse a) s' := by
  rw [tryExcept, exec_ofExec, h]

theorem exec_tryExcept_caught {body : Program σ Exc α} {s s' : σ} {e : Exc}
    (h : exec body s = (.error e, s')) {catches : Exc → Bool} (hc : catches e = true)
    (handler : Exc → Program σ Exc' β) (orelse : α → Program σ Exc' β) :
    exec (tryExcept body catches handler orelse) s = exec (handler e) s' := by
  rw [tryExcept, exec_ofExec, h]
  exact if_pos hc

theorem exec_tryExcept_passed {body : Program σ Exc α} {s s' : σ} {e : Exc}
    (h : exec body s = (.error e, s')) {catches : Exc → Bool} (hc : catches e = false)
    (handler : Exc → Program σ Exc' β) (orelse : α → Program σ Exc' β) :
    exec (tryExcept body catches handler orelse) s = (.error (Raises.raised e), s') := by
  rw [tryExcept, exec_ofExec, h]
  exact if_neg (Bool.eq_false_iff.1 hc)

omit [Raises Exc Exc'] in
theorem exec_attempt (x : Program σ Exc α) (s : σ) :
    exec (attempt x : Program σ Exc' (Except Exc α)) s = (.ok (exec x s).1, (exec x s).2) := rfl

theorem exec_raising_ok {x : Program σ Exc α} {s s' : σ} {a : α} (h : exec x s = (.ok a, s')) :
    exec (raising x : Program σ Exc' α) s = (.ok a, s') :=
  exec_tryExcept_ok h _ _ _

/-- The statement `try: body; finally: cleanup`. -/
theorem exec_tryFinally (body : Program σ Exc α) (cleanup : Program σ Exc Unit) (s : σ) :
    exec (tryFinally body cleanup) s =
      match exec cleanup (exec body s).2 with
      | (.ok (), s') => ((exec body s).1, s')
      | (.error e, s') => (.error e, s') := by
  rcases hb : exec body s with ⟨r, s'⟩
  rcases hc : exec cleanup s' with ⟨q, s''⟩
  have hb' : body s = (r, s') := hb
  have hc' : cleanup s' = (q, s'') := hc
  cases r <;> cases q <;>
    simp [exec, tryFinally, tryFinally', ExceptT.run, ExceptT.map, StateT.run, StateT.bind, bind,
      Functor.map, hb', hc', Id.run, ExceptT.mk, pure] <;> rfl

end Statements

/-! ### Coupled programs -/

/-- From related states the programs come to the same value or exception, and to related states. -/
def Coupled (R : σ → τ → Prop) (x : Program σ Exc α) (y : Program τ Exc α) : Prop :=
  ∀ s t, R s t → (exec x s).1 = (exec y t).1 ∧ R (exec x s).2 (exec y t).2

namespace Coupled

variable {R : σ → τ → Prop}

theorem pure (a : α) : Coupled R (pure a : Program σ Exc α) (pure a) :=
  fun _ _ h => ⟨rfl, h⟩

theorem throw (e : Exc) : Coupled R (throw e : Program σ Exc α) (throw e) :=
  fun _ _ h => ⟨rfl, h⟩

/-- **One after the other.** -/
theorem bind {x : Program σ Exc α} {y : Program τ Exc α} {f : α → Program σ Exc β}
    {g : α → Program τ Exc β} (hx : Coupled R x y) (hf : ∀ a, Coupled R (f a) (g a)) :
    Coupled R (x >>= f) (y >>= g) := by
  intro s t h
  obtain ⟨hres, hrel⟩ := hx s t h
  rw [exec_bind, exec_bind]
  rcases hs : exec x s with ⟨r, s'⟩
  rcases ht : exec y t with ⟨r', t'⟩
  rw [hs, ht] at hres hrel
  obtain rfl : r = r' := hres
  cases r with
  | ok a => exact hf a s' t' hrel
  | error e => exact ⟨rfl, hrel⟩

/-- **A statement `if`.** -/
theorem ite {c : Prop} [Decidable c] {x x' : Program σ Exc α} {y y' : Program τ Exc α}
    (hx : Coupled R x y) (hx' : Coupled R x' y') :
    Coupled R (if c then x else x') (if c then y else y') := by
  split
  · exact hx
  · exact hx'

/-- **A `try` statement with a handler.** -/
theorem tryExcept [Raises Exc Exc'] {x : Program σ Exc α} {y : Program τ Exc α}
    {catches : Exc → Bool} {f : Exc → Program σ Exc' β} {g : Exc → Program τ Exc' β}
    {f' : α → Program σ Exc' β} {g' : α → Program τ Exc' β} (hx : Coupled R x y)
    (hf : ∀ e, Coupled R (f e) (g e)) (hf' : ∀ a, Coupled R (f' a) (g' a)) :
    Coupled R (tryExcept x catches f f') (tryExcept y catches g g') := by
  intro s t h
  obtain ⟨hres, hrel⟩ := hx s t h
  rcases hs : exec x s with ⟨r, s'⟩
  rcases ht : exec y t with ⟨r', t'⟩
  rw [hs, ht] at hres hrel
  obtain rfl : r = r' := hres
  cases r with
  | ok a =>
      rw [exec_tryExcept_ok hs, exec_tryExcept_ok ht]
      exact hf' a s' t' hrel
  | error e =>
      cases hc : catches e with
      | true =>
          rw [exec_tryExcept_caught hs hc, exec_tryExcept_caught ht hc]
          exact hf e s' t' hrel
      | false =>
          rw [exec_tryExcept_passed hs hc, exec_tryExcept_passed ht hc]
          exact ⟨rfl, hrel⟩

/-- **A `try` statement with a clause `finally`.** -/
theorem tryFinally {x : Program σ Exc α} {y : Program τ Exc α} {c : Program σ Exc Unit}
    {d : Program τ Exc Unit} (hx : Coupled R x y) (hc : Coupled R c d) :
    Coupled R (tryFinally x c) (tryFinally y d) := by
  intro s t h
  obtain ⟨hres, hrel⟩ := hx s t h
  obtain ⟨hres', hrel'⟩ := hc _ _ hrel
  rw [exec_tryFinally, exec_tryFinally]
  rcases hs : exec c (exec x s).2 with ⟨q, s'⟩
  rcases ht : exec d (exec y t).2 with ⟨q', t'⟩
  rw [hs, ht] at hres' hrel'
  obtain rfl : q = q' := hres'
  cases q with
  | ok a => exact ⟨hres, hrel'⟩
  | error e => exact ⟨rfl, hrel'⟩

theorem raising [Raises Exc Exc'] {x : Program σ Exc α} {y : Program τ Exc α}
    (hx : Coupled R x y) : Coupled R (raising x : Program σ Exc' α) (raising y) :=
  hx.tryExcept (fun _ => throw _) pure

theorem attempt {x : Program σ Exc α} {y : Program τ Exc α} (hx : Coupled R x y) :
    Coupled R (attempt x : Program σ Exc' (Except Exc α)) (attempt y) := by
  intro s t h
  obtain ⟨hres, hrel⟩ := hx s t h
  exact ⟨congrArg Except.ok hres, hrel⟩

/-- **One program for each element of a list.** -/
theorem mapM {f : α → Program σ Exc β} {g : α → Program τ Exc β}
    (hf : ∀ a, Coupled R (f a) (g a)) (as : List α) : Coupled R (as.mapM f) (as.mapM g) := by
  induction as with
  | nil => exact pure []
  | cons a as ih =>
      rw [List.mapM_cons, List.mapM_cons]
      exact (hf a).bind fun b => ih.bind fun bs => pure (b :: bs)

/-- **A loop over a list.** -/
theorem forM {f : α → Program σ Exc PUnit} {g : α → Program τ Exc PUnit}
    (hf : ∀ a, Coupled R (f a) (g a)) (as : List α) : Coupled R (forM as f) (forM as g) := by
  induction as with
  | nil => exact pure PUnit.unit
  | cons a as ih =>
      rw [List.forM_cons, List.forM_cons]
      exact (hf a).bind fun _ => ih

end Coupled

end Programs
