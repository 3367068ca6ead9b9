/-
Clients in front of functions.

A function is a program with a state of its own: a call of it returns or raises.  A *client* calls a
function a number of times, and what it comes to depends on what these calls come to.  A client in
front of a function is a function again, and another client can be put in front of it.

A client uses a function *economically* if it calls it a bounded number of times, goes on only after
failures of a certain kind, and hands on what ends its calls.  Economical clients in front of each
other are economical, and their bounds multiply.

Main definitions:

* `Services.Client`, `Services.Client.over` — clients, and clients in front of functions;
* `Services.recorded`, `Services.Accounts` — a function that keeps a record of its calls, and what
  a call of one function adds to the record of another one;
* `Services.Economical` — the economical use of a function.

Main results:

* `Services.Accounts.over` — the calls that a client causes, call by call of the client;
* `Services.Economical.flatMap` — **economical clients compose, and their bounds multiply**;
* `Services.coupled_over`, `Services.coupled_recorded` — the record is not noticed.
-/

import Pysilience.Lib.Programs
import Mathlib.Algebra.Order.BigOperators.Group.List
import Mathlib.Algebra.Order.Ring.Nat
import Mathlib.Data.List.Infix

set_option relaxedAutoImplicit false
set_option autoImplicit false

namespace Services

open Programs

variable {σ τ ρ Exc V : Type}

/-! ### Repeated calls -/

/-- The state of a function after some calls. -/
def after (f : Program σ Exc V) (s : σ) : ℕ → σ
  | 0 => s
  | k + 1 => (exec f (after f s k)).2

/-- What the call number `k` comes to; the first call is number one. -/
def outcome (f : Program σ Exc V) (s : σ) (k : ℕ) : Except Exc V :=
  (exec f (after f s (k - 1))).1

/-! ### Clients -/

/-- How a client ends: its result, its state, and the number of calls it has made. -/
structure Ended (ρ Exc V : Type) where
  result : Except Exc V
  state : ρ
  calls : ℕ

/-- A client of a function, given by what it does when the calls have certain outcomes. -/
structure Client (ρ Exc V : Type) where
  run : (ℕ → Except Exc V) → ρ → Ended ρ Exc V

/-- The outcomes of the calls that a client makes, in order. -/
def Client.used (client : Client ρ Exc V) (outcomes : ℕ → Except Exc V) (r : ρ) :
    List (Except Exc V) :=
  (List.range' 1 (client.run outcomes r).calls).map outcomes

/-- A client in front of a function. -/
def Client.over (client : Client ρ Exc V) (f : Program σ Exc V) : Program (ρ × σ) Exc V :=
  ofExec fun s =>
    let ended := client.run (outcome f s.2) s.1
    (ended.result, ended.state, after f s.2 ended.calls)

/-! ### The record -/

/-- A function that keeps a record of what its calls came to. -/
def recorded (f : Program σ Exc V) : Program (σ × List (Except Exc V)) Exc V :=
  ofExec fun s => ((exec f s.1).1, (exec f s.1).2, s.2 ++ [(exec f s.1).1])

/-- Every call of the function adds some calls to the record, and they and the result are as `P`
says. -/
def Accounts (log : σ → List (Except Exc V)) (P : List (Except Exc V) → Except Exc V → Prop)
    (f : Program σ Exc V) : Prop :=
  ∀ s, ∃ calls, log (exec f s).2 = log s ++ calls ∧ P calls (exec f s).1

/-- A function adds its own calls to its record. -/
theorem accounts_recorded (f : Program σ Exc V) :
    Accounts Prod.snd (fun calls result => calls = [result]) (recorded f) :=
  fun _ => ⟨_, rfl, rfl⟩

theorem Accounts.mono {log : σ → List (Except Exc V)}
    {P Q : List (Except Exc V) → Except Exc V → Prop} {f : Program σ Exc V}
    (h : Accounts log P f) (hPQ : ∀ calls result, P calls result → Q calls result) :
    Accounts log Q f := by
  intro s
  obtain ⟨calls, hlog, hP⟩ := h s
  exact ⟨calls, hlog, hPQ _ _ hP⟩

/-- What some calls in a row add to the record. -/
theorem Accounts.after {log : σ → List (Except Exc V)}
    {P : List (Except Exc V) → Except Exc V → Prop} {f : Program σ Exc V}
    (h : Accounts log P f) (s : σ) (k : ℕ) :
    ∃ blocks : List (List (Except Exc V) × Except Exc V),
      log (after f s k) = log s ++ blocks.flatMap Prod.fst ∧
      blocks.map Prod.snd = (List.range' 1 k).map (outcome f s) ∧ ∀ b ∈ blocks, P b.1 b.2 := by
  induction k with
  | zero => exact ⟨[], (List.append_nil _).symm, rfl, nofun⟩
  | succ k ih =>
      obtain ⟨blocks, hlog, hresults, hP⟩ := ih
      obtain ⟨calls, hcalls, hlast⟩ := h (Services.after f s k)
      refine ⟨blocks ++ [(calls, outcome f s (k + 1))], ?_, ?_, ?_⟩
      · change log (exec f (Services.after f s k)).2 = _
        rw [hcalls, hlog, List.flatMap_append, List.flatMap_singleton, List.append_assoc]
      · rw [List.map_append, hresults, List.range'_1_concat, List.map_append, Nat.add_comm 1 k]
        rfl
      · intro b hb
        rcases List.mem_append.1 hb with hb | hb
        · exact hP b hb
        · rw [List.mem_singleton.1 hb]
          exact hlast

/-- **What a client in front of a function adds to the record**: a block for each of its calls. -/
theorem Accounts.over {log : σ → List (Except Exc V)}
    {P : List (Except Exc V) → Except Exc V → Prop} {f : Program σ Exc V}
    (h : Accounts log P f) (client : Client ρ Exc V) :
    Accounts (log ∘ Prod.snd) (fun calls result =>
      ∃ blocks : List (List (Except Exc V) × Except Exc V),
        calls = blocks.flatMap Prod.fst ∧ (∀ b ∈ blocks, P b.1 b.2) ∧
        ∃ outcomes r, (∀ k, ∃ block, P block (outcomes k)) ∧
          blocks.map Prod.snd = client.used outcomes r ∧
          result = (client.run outcomes r).result) (client.over f) := by
  intro s
  obtain ⟨blocks, hlog, hresults, hP⟩ := h.after s.2 (client.run (outcome f s.2) s.1).calls
  refine ⟨_, hlog, blocks, rfl, hP, outcome f s.2, s.1, fun k => ?_, hresults, rfl⟩
  obtain ⟨block, -, hblock⟩ := h (Services.after f s.2 (k - 1))
  exact ⟨block, hblock⟩

/-! ### Economical use -/

/-- The calls of a function and the result of whoever made them: at most `n` calls, of which all but
the last failed in a way after which one goes on; the result is the value of the last call, or its
exception if one does not go on after it. -/
structure Economical (goesOn : Exc → Prop) (n : ℕ) (calls : List (Except Exc V))
    (result : Except Exc V) : Prop where
  length_le : calls.length ≤ n
  failed : ∀ outcome ∈ calls.dropLast, ∃ exc, outcome = .error exc ∧ goesOn exc
  value : ∀ v, calls.getLast? = some (.ok v) → result = .ok v
  passed : ∀ exc, calls.getLast? = some (.error exc) → ¬ goesOn exc → result = .error exc

namespace Economical

variable {goesOn : Exc → Prop} {m n : ℕ} {calls : List (Except Exc V)} {result : Except Exc V}

/-- A single call. -/
theorem single (goesOn : Exc → Prop) (result : Except Exc V) :
    Economical goesOn 1 [result] result where
  length_le := le_rfl
  failed := nofun
  value := fun _ h => Option.some_inj.1 h
  passed := fun _ h _ => Option.some_inj.1 h

/-- The calls of a client that are numbered. -/
theorem of_numbered {outcomes : ℕ → Except Exc V} {k : ℕ} (hle : k ≤ n)
    (hfailed : ∀ i, 1 ≤ i → i < k → ∃ exc, outcomes i = .error exc ∧ goesOn exc)
    (hvalue : ∀ v, 1 ≤ k → outcomes k = .ok v → result = .ok v)
    (hpassed : ∀ exc, 1 ≤ k → outcomes k = .error exc → ¬ goesOn exc → result = .error exc) :
    Economical goesOn n ((List.range' 1 k).map outcomes) result := by
  cases k with
  | zero => exact ⟨Nat.zero_le n, nofun, nofun, nofun⟩
  | succ k =>
      have hlast : ((List.range' 1 (k + 1)).map outcomes).getLast? = some (outcomes (k + 1)) := by
        rw [List.range'_1_concat, List.map_append, Nat.add_comm 1 k]
        simp
      refine ⟨by simpa using hle, ?_, ?_, ?_⟩
      · intro outcome hmem
        rw [List.range'_1_concat, List.map_append, List.map_singleton, List.dropLast_concat] at hmem
        obtain ⟨i, hi, rfl⟩ := List.mem_map.1 hmem
        rw [List.mem_range'_1] at hi
        exact hfailed i hi.1 (by omega)
      · intro v hv
        rw [hlast] at hv
        exact hvalue v (by omega) (Option.some_inj.1 hv)
      · intro exc hexc hstops
        rw [hlast] at hexc
        exact hpassed exc (by omega) (Option.some_inj.1 hexc) hstops

/-- If the result is a failure after which one goes on, then so is every call. -/
theorem all_failed {exc : Exc} (h : Economical goesOn n calls (.error exc)) (hexc : goesOn exc) :
    ∀ outcome ∈ calls, ∃ exc', outcome = .error exc' ∧ goesOn exc' := by
  intro outcome hmem
  rcases List.eq_nil_or_concat calls with rfl | ⟨init, last, rfl⟩
  · cases hmem
  have hlast : (init.concat last).getLast? = some last := by simp
  rw [List.concat_eq_append, List.mem_append, List.mem_singleton] at hmem
  rcases hmem with hmem | rfl
  · exact h.failed outcome (by simpa using hmem)
  · cases outcome with
    | ok v => cases h.value v hlast
    | error exc' =>
        by_cases hgoes : goesOn exc'
        · exact ⟨exc', rfl, hgoes⟩
        · cases h.passed exc' hlast hgoes
          exact ⟨exc, rfl, hexc⟩

/-- **Economical clients compose**: if the calls of a client are economical, and so are the calls of
the function that each of them causes, then so are all of these together. -/
theorem flatMap {blocks : List (List (Except Exc V) × Except Exc V)}
    (houter : Economical goesOn m (blocks.map Prod.snd) result)
    (hinner : ∀ b ∈ blocks, Economical goesOn n b.1 b.2) :
    Economical goesOn (m * n) (blocks.flatMap Prod.fst) result := by
  have hlength : (blocks.flatMap Prod.fst).length ≤ m * n := by
    have hblock : ∀ l ∈ blocks.map fun b => b.1.length, l ≤ n := by
      intro l hl
      obtain ⟨b, hb, rfl⟩ := List.mem_map.1 hl
      exact (hinner b hb).length_le
    have hsum := List.sum_le_card_nsmul _ n hblock
    have hle := houter.length_le
    rw [List.length_map] at hsum hle
    rw [List.length_flatMap]
    exact hsum.trans (Nat.mul_le_mul_right n hle)
  rcases List.eq_nil_or_concat blocks with rfl | ⟨init, last, rfl⟩
  · exact ⟨hlength, nofun, nofun, nofun⟩
  rw [List.concat_eq_append] at *
  -- the calls before the last block have failed
  have hinit : ∀ outcome ∈ init.flatMap Prod.fst, ∃ exc, outcome = .error exc ∧ goesOn exc := by
    intro outcome hmem
    obtain ⟨b, hb, hmem⟩ := List.mem_flatMap.1 hmem
    obtain ⟨exc, hexc, hgoes⟩ := houter.failed b.2 (by
      rw [List.map_append, List.map_singleton, List.dropLast_concat]
      exact List.mem_map_of_mem hb)
    have hb' := hinner b (List.mem_append_left _ hb)
    rw [hexc] at hb'
    exact hb'.all_failed hgoes outcome hmem
  have hlast := hinner last (List.mem_append_right _ (List.mem_singleton_self _))
  have hresult : ((init ++ [last]).map Prod.snd).getLast? = some last.2 := by simp
  have hsplit : (init ++ [last]).flatMap Prod.fst = init.flatMap Prod.fst ++ last.1 := by simp
  -- what the last call came to, it came to in the last block
  have hend : ∀ outcome, ((init ++ [last]).flatMap Prod.fst).getLast? = some outcome →
      (∃ exc, outcome = .error exc ∧ goesOn exc) ∨ last.1.getLast? = some outcome := by
    intro outcome h
    rw [hsplit, List.getLast?_append] at h
    cases hl : last.1.getLast? with
    | none =>
        rw [hl, Option.none_or] at h
        exact .inl (hinit outcome (List.mem_of_getLast? h))
    | some o =>
        rw [hl, Option.some_or] at h
        exact .inr h
  refine ⟨hlength, ?_, ?_, ?_⟩
  · intro outcome hmem
    rw [hsplit] at hmem
    by_cases hnil : last.1 = []
    · rw [hnil, List.append_nil] at hmem
      exact hinit outcome (List.mem_of_mem_dropLast hmem)
    · rw [List.dropLast_append_of_ne_nil hnil, List.mem_append] at hmem
      rcases hmem with hmem | hmem
      · exact hinit outcome hmem
      · exact hlast.failed outcome hmem
  · intro v h
    rcases hend _ h with ⟨exc, hexc, -⟩ | h
    · cases hexc
    · exact houter.value v (hresult.trans (congrArg some (hlast.value v h)))
  · intro exc h hstops
    rcases hend _ h with ⟨exc', hexc, hgoes⟩ | h
    · cases hexc
      exact absurd hgoes hstops
    · exact houter.passed exc (hresult.trans (congrArg some (hlast.passed exc h hstops))) hstops

end Economical

/-! ### The record is not noticed -/

section Coupling

variable {R : σ → τ → Prop} {f : Program σ Exc V} {g : Program τ Exc V}

/-- Coupled functions are coupled after any number of calls. -/
theorem coupled_after (h : Coupled R f g) {s : σ} {t : τ} (hst : R s t) (k : ℕ) :
    R (after f s k) (after g t k) := by
  induction k with
  | zero => exact hst
  | succ k ih => exact (h _ _ ih).2

/-- **A client does not tell coupled functions apart.** -/
theorem coupled_over (h : Coupled R f g) (client : Client ρ Exc V) :
    Coupled (fun s t => s.1 = t.1 ∧ R s.2 t.2) (client.over f) (client.over g) := by
  rintro ⟨r, s⟩ ⟨r', t⟩ ⟨rfl, hst⟩
  have houtcomes : outcome f s = outcome g t := by
    funext k
    exact (h _ _ (coupled_after h hst (k - 1))).1
  have hrun : client.run (outcome f s) r = client.run (outcome g t) r := by rw [houtcomes]
  refine ⟨congrArg Ended.result hrun, congrArg Ended.state hrun, ?_⟩
  change R (after f s (client.run (outcome f s) r).calls)
    (after g t (client.run (outcome g t) r).calls)
  rw [hrun]
  exact coupled_after h hst _

/-- Nobody notices the record of a function. -/
theorem coupled_recorded (f : Program σ Exc V) :
    Coupled (fun s t => s.1 = t) (recorded f) f := by
  rintro s t rfl
  exact ⟨rfl, rfl⟩

end Coupling

end Services
