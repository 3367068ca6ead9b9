/-
Glob patterns over bytes, as Redis matches keys against them.

A pattern is read into tokens first: `*` stands for any bytes, `?` for one byte, a bracket class
for one byte of (or, after `^`, not of) its members, a backslash takes the next byte literally, and
every other byte stands for itself.  A class that is not closed ends with the pattern.

Main definitions:

* `Glob.Token`, `Glob.parse` — the tokens of a pattern;
* `Glob.accepts`, `Glob.glob` — matching;
* `Glob.plain` — the bytes that are a token on their own, wildcards included;
* `Glob.literal` — the bytes that stand for themselves.

Main results:

* `Glob.glob_plain_star` — **a plain pattern followed by `*` matches what it is a prefix of**;
* `Glob.glob_literal_star` — **a literal followed by `*` matches this and nothing else**.
-/

import Mathlib.Data.List.Infix

set_option relaxedAutoImplicit false
set_option autoImplicit false

namespace Glob

/-! ### Tokens -/

/-- The byte of an ASCII character. -/
def byte (c : Char) : UInt8 := c.toUInt8

/-- A member of a bracket class: one byte, or a range, whose bounds may stand in either order. -/
inductive Member
  | one (b : UInt8)
  | range (lo hi : UInt8)
  deriving DecidableEq, Repr

/-- A token of a pattern. -/
inductive Token
  | star
  | any
  | oneOf (negated : Bool) (members : List Member)
  | lit (b : UInt8)
  deriving DecidableEq, Repr

def Member.contains (b : UInt8) : Member → Bool
  | .one c => b == c
  | .range lo hi => min lo hi ≤ b && b ≤ max lo hi

/-- The members of a bracket class up to its end, and the pattern behind it.  The fuel is the
length of the pattern. -/
def parseClass : ℕ → List UInt8 → List Member × List UInt8
  | 0, p => ([], p)
  | _, [] => ([], [])
  | n + 1, c :: p =>
      match p with
      | b :: p' =>
          if c = byte '\\' then
            let (members, rest) := parseClass n p'
            (.one b :: members, rest)
          else if c = byte ']' then ([], p)
          else
            match p' with
            | hi :: p'' =>
                if b = byte '-' then
                  let (members, rest) := parseClass n p''
                  (.range c hi :: members, rest)
                else
                  let (members, rest) := parseClass n p
                  (.one c :: members, rest)
            | [] =>
                let (members, rest) := parseClass n p
                (.one c :: members, rest)
      | [] => if c = byte ']' then ([], []) else ([.one c], [])

/-- The tokens of a pattern; the fuel is its length. -/
def parseAux : ℕ → List UInt8 → List Token
  | 0, _ => []
  | _, [] => []
  | n + 1, c :: p =>
      if c = byte '*' then .star :: parseAux n p
      else if c = byte '?' then .any :: parseAux n p
      else if c = byte '[' then
        if p.head? = some (byte '^') then
          let (members, rest) := parseClass p.tail.length p.tail
          .oneOf true members :: parseAux n rest
        else
          let (members, rest) := parseClass p.length p
          .oneOf false members :: parseAux n rest
      else if c = byte '\\' then
        match p with
        | b :: p' => .lit b :: parseAux n p'
        | [] => [.lit c]
      else .lit c :: parseAux n p

def parse (pattern : List UInt8) : List Token := parseAux pattern.length pattern

/-! ### Matching -/

/-- Whether a sequence of tokens matches a string. -/
def accepts : List Token → List UInt8 → Bool
  | [], s => s.isEmpty
  | .star :: ts, s => s.tails.any fun rest => accepts ts rest
  | .any :: _, [] => false
  | .any :: ts, _ :: s => accepts ts s
  | .oneOf _ _ :: _, [] => false
  | .oneOf negated members :: ts, b :: s =>
      (members.any (Member.contains b) != negated) && accepts ts s
  | .lit _ :: _, [] => false
  | .lit c :: ts, b :: s => b == c && accepts ts s

/-- Whether the pattern matches the string. -/
def glob (pattern s : List UInt8) : Bool := accepts (parse pattern) s

/-! ### Plain patterns -/

/-- The bytes that are a token on their own. -/
def plain (c : UInt8) : Bool := c != byte '[' && c != byte '\\'

/-- The token of a plain byte. -/
def token (c : UInt8) : Token :=
  if c = byte '*' then .star else if c = byte '?' then .any else .lit c

theorem parseAux_plain_star {p : List UInt8} (h : ∀ c ∈ p, plain c = true) (n : ℕ) :
    parseAux (p.length + 1 + n) (p ++ [byte '*']) = p.map token ++ [.star] := by
  induction p with
  | nil =>
      rw [List.length_nil, Nat.zero_add, Nat.add_comm]
      cases n <;> rfl
  | cons c p ih =>
      obtain ⟨hc, hp⟩ := List.forall_mem_cons.1 h
      simp only [plain, Bool.and_eq_true, bne_iff_ne, ne_eq] at hc
      have hlen : (c :: p).length + 1 + n = (p.length + 1 + n) + 1 := by
        rw [List.length_cons]
        omega
      rw [hlen, List.cons_append]
      simp only [parseAux, if_neg hc.1, if_neg hc.2, ih hp, List.map_cons, List.cons_append,
        token]
      split
      · rfl
      · split <;> rfl

/-- A final `*` matches anything. -/
theorem accepts_star (s : List UInt8) : accepts [.star] s = true := by
  rw [accepts, List.any_eq_true]
  exact ⟨[], (List.mem_tails _ _).2 List.nil_suffix, rfl⟩

/-- A plain byte matches itself. -/
theorem accepts_token {c : UInt8} {ts : List Token} {s : List UInt8} (h : accepts ts s = true) :
    accepts (token c :: ts) (c :: s) = true := by
  rw [token]
  split
  · rw [accepts, List.any_eq_true]
    exact ⟨s, (List.mem_tails _ _).2 (List.suffix_cons c s), h⟩
  · split
    · exact h
    · rw [accepts, beq_self_eq_true, Bool.true_and]
      exact h

/-- **A plain pattern followed by `*` matches whatever it is a prefix of**, even where it has
wildcards. -/
theorem glob_plain_star {p : List UInt8} (h : ∀ c ∈ p, plain c = true) (rest : List UInt8) :
    glob (p ++ [byte '*']) (p ++ rest) = true := by
  have hparse := parseAux_plain_star h 0
  rw [glob, parse, List.length_append, List.length_singleton]
  rw [Nat.add_zero] at hparse
  rw [hparse]
  clear hparse h
  induction p with
  | nil => exact accepts_star rest
  | cons c p ih => exact accepts_token ih

/-! ### Literals -/

/-- The bytes that stand for themselves outside a class. -/
def literal (c : UInt8) : Bool :=
  c != byte '*' && c != byte '?' && c != byte '[' && c != byte '\\'

theorem plain_of_literal {c : UInt8} (h : literal c = true) : plain c = true := by
  simp only [literal, plain, Bool.and_eq_true] at h ⊢
  exact ⟨h.1.2, h.2⟩

theorem token_of_literal {c : UInt8} (h : literal c = true) : token c = .lit c := by
  simp only [literal, Bool.and_eq_true, bne_iff_ne, ne_eq] at h
  rw [token, if_neg h.1.1.1, if_neg h.1.1.2]

theorem parseAux_literal_star {p : List UInt8} (h : ∀ c ∈ p, literal c = true) (n : ℕ) :
    parseAux (p.length + 1 + n) (p ++ [byte '*']) = p.map .lit ++ [.star] := by
  rw [parseAux_plain_star (fun c hc => plain_of_literal (h c hc)) n,
    List.map_congr_left fun c hc => token_of_literal (h c hc)]

theorem accepts_literals (p s : List UInt8) (ts : List Token) :
    accepts (p.map .lit ++ ts) s = true ↔ ∃ rest, s = p ++ rest ∧ accepts ts rest = true := by
  induction p generalizing s with
  | nil => simp
  | cons c p ih =>
      cases s with
      | nil => simp [accepts]
      | cons b s =>
          rw [List.map_cons, List.cons_append, accepts, Bool.and_eq_true, ih, beq_iff_eq]
          constructor
          · rintro ⟨rfl, rest, rfl, h⟩
            exact ⟨rest, rfl, h⟩
          · rintro ⟨rest, heq, h⟩
            rw [List.cons_append] at heq
            injection heq with hb hs
            exact ⟨hb, rest, hs, h⟩

/-- **A literal followed by `*` matches exactly the strings it is a prefix of.** -/
theorem glob_literal_star {p : List UInt8} (h : ∀ c ∈ p, literal c = true) (s : List UInt8) :
    glob (p ++ [byte '*']) s = true ↔ p <+: s := by
  have hparse := parseAux_literal_star h 0
  rw [glob, parse, List.length_append, List.length_singleton]
  rw [Nat.add_zero] at hparse
  rw [hparse, accepts_literals]
  constructor
  · rintro ⟨rest, rfl, -⟩
    exact List.prefix_append p rest
  · rintro ⟨rest, rfl⟩
    exact ⟨rest, rfl, accepts_star rest⟩

end Glob
