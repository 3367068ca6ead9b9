/-
The part of Python's data model that the patterns of the library rely on.

Exceptions are kept abstract: a type of exceptions, a type of exception classes and the
`isinstance` test between them, with the built-in class `Exception` singled out because
`except Exception` is the only kind of handler the library uses.  What is *not* an instance of
`Exception` (`KeyboardInterrupt`, `SystemExit`, `asyncio.CancelledError`) passes through such a
handler.  `Python.Builtin` is the fragment of the built-in hierarchy that concrete runs use.

The `__post_init__` methods of the configuration classes are sequences of checks, each of which
raises a `ValueError` with an f-string; `Python.checks` is that shape.

* `Python.Exceptions`, `Python.caught` — the exceptions, and what `except Exception` catches;
* `Python.isinstanceAny` — `isinstance` with a tuple of classes;
* `Python.toInt` — the conversion of a number to an integer;
* `Python.FString` — an f-string: literal text and the numbers it interpolates;
* `Python.checks`, `Python.checks_eq_ok` — a sequence of checks, and when it passes.
-/

import Mathlib.Algebra.Order.Archimedean.Basic
import Mathlib.Data.Rat.Floor
import Mathlib.Tactic.Linarith

set_option relaxedAutoImplicit false
set_option autoImplicit false

namespace Python

universe u v

/-! ### Exceptions -/

/-- The exceptions of a program and their classes. -/
class Exceptions (Exc : Type u) (Cls : outParam (Type v)) where
  /-- `isinstance(exc, cls)`. -/
  isinstance : Exc → Cls → Bool
  /-- The built-in class `Exception`. -/
  exception : Cls

variable {Exc : Type u} {Cls : Type v} [Exceptions Exc Cls]

/-- Whether a handler `except Exception` catches the exception. -/
def caught (exc : Exc) : Bool := Exceptions.isinstance exc (Exceptions.exception Exc)

/-- The test `isinstance(exc, classes)` against a tuple of classes. -/
def isinstanceAny (exc : Exc) (classes : List Cls) : Bool :=
  classes.any fun c => Exceptions.isinstance exc c

/-- Asking first whether the tuple is empty makes no difference. -/
theorem isinstanceAny_of_nonempty (exc : Exc) (classes : List Cls) :
    (!classes.isEmpty && isinstanceAny exc classes) = isinstanceAny exc classes := by
  cases classes <;> rfl

/-- Some of the built-in exception classes; an exception is represented by its class. -/
inductive Builtin
  | baseException | exception | keyboardInterrupt | cancelledError
  | runtimeError | valueError | keyError
  deriving DecidableEq, Repr

/-- The superclasses of a built-in exception class, itself included. -/
def Builtin.mro : Builtin → List Builtin
  | baseException => [baseException]
  | exception => [exception, baseException]
  | keyboardInterrupt => [keyboardInterrupt, baseException]
  | cancelledError => [cancelledError, baseException]
  | runtimeError => [runtimeError, exception, baseException]
  | valueError => [valueError, exception, baseException]
  | keyError => [keyError, exception, baseException]

instance : Exceptions Builtin Builtin where
  isinstance exc cls := decide (cls ∈ exc.mro)
  exception := .exception

/-! ### Numbers -/

/-- `int(q)`, which rounds towards zero. -/
def toInt (q : ℚ) : ℤ := if 0 ≤ q then q.floor else q.ceil

/-- Rounding towards zero does not decide whether a number reaches one. -/
theorem one_le_toInt {q : ℚ} : 1 ≤ toInt q ↔ 1 ≤ q := by
  rw [toInt]
  split
  · rw [Rat.le_floor_iff, Int.cast_one]
  · next hneg =>
    rw [not_le] at hneg
    have hceil : q.ceil ≤ 0 := Rat.ceil_le_iff.2 (by simpa using hneg.le)
    exact iff_of_false (by omega) (by linarith)

/-- Rounding keeps the order. -/
theorem toInt_mono {p q : ℚ} (h : p ≤ q) : toInt p ≤ toInt q := by
  rw [toInt, toInt]
  by_cases hp : 0 ≤ p
  · rw [if_pos hp, if_pos (hp.trans h)]
    exact Rat.floor_monotone h
  · rw [if_neg hp]
    have hp := (not_le.1 hp).le
    by_cases hq : 0 ≤ q
    · have hceil : p.ceil ≤ 0 := Rat.ceil_le_iff.2 (by simpa using hp)
      have hfloor : 0 ≤ q.floor := Rat.le_floor_iff.2 (by simpa using hq)
      rw [if_pos hq]
      exact hceil.trans hfloor
    · rw [if_neg hq, Rat.ceil_le_iff]
      exact h.trans Rat.le_ceil

/-- Rounding commutes with taking one away from a number that reaches it. -/
theorem toInt_sub_one {q : ℚ} (h : 1 ≤ q) : toInt (q - 1) = toInt q - 1 := by
  rw [toInt, toInt, if_pos (sub_nonneg.2 h), if_pos (zero_le_one.trans h)]
  exact Rat.floor_sub_one

/-- A number that is not negative is rounded down. -/
theorem toInt_of_nonneg {q : ℚ} (h : 0 ≤ q) : toInt q = (⌊q⌋₊ : ℤ) := by
  rw [toInt, if_pos h, Int.natCast_floor_eq_floor h]
  rfl

/-! ### Checks -/

/-- A piece of an f-string. -/
inductive Fragment
  | text (s : String)
  | int (n : ℤ)
  | float (q : ℚ)
  deriving DecidableEq

/-- An f-string, before its numbers are rendered. -/
abbrev FString := List Fragment

/-- A sequence of checks `if bad: raise ValueError(message)`: the message of the first check that
fails, if one does. -/
def checks : List (Bool × FString) → Except FString Unit
  | [] => .ok ()
  | (bad, message) :: rest => if bad then .error message else checks rest

/-- A sequence of checks passes exactly when each of them does. -/
theorem checks_eq_ok (cs : List (Bool × FString)) :
    checks cs = .ok () ↔ ∀ c ∈ cs, c.1 = false := by
  induction cs with
  | nil => simp [checks]
  | cons c rest ih =>
      obtain ⟨bad, message⟩ := c
      cases bad <;> simp [checks, ih]

end Python
