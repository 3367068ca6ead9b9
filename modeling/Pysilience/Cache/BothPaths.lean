/-
Threads and coroutines on one cache.

Each path coalesces its own calls: threads reserve a key in `_inflight`, coroutines in
`_async_inflight`.  Neither looks at the table of the other.  So while a thread is computing the
value of a key, a coroutine that finds nothing for the key reserves it as well and invokes the
function a second time, and the other way round.  Nothing else can go wrong: as long as no call
takes that step, no key is ever computed twice at a time, on whatever paths the calls are.

Main definitions:

* `Caching.System.Exclusive` — at most one invocation of the function is in progress for a key;
* `Caching.System.Crosses` — the step is a lookup by a call of one path that finds a key free which
  a call of the other path is computing.

Main results:

* `Caching.both_paths_exclusive` — **invocations are exclusive in every run without such a step**,
  and every such step breaks it;
* `Caching.not_both_paths_exclusive` — a thread and a coroutine compute the same key.
-/

import Pysilience.Cache.Coalescing

set_option relaxedAutoImplicit false
set_option autoImplicit false

namespace Caching

open Python Transition

universe u v w x y z t

variable {T : Type t} {K : Type u} {V : Type v} {Exc : Type w} {B : Type x} {D : Type y}

/-! ### Invocations in progress -/

/-- The function of the call is running. -/
def Phase.invoking : Phase V Exc → Bool
  | .computing | .awaiting => true
  | _ => false

theorem Phase.invoking_cases {ph : Phase V Exc} (h : ph.invoking = true) :
    ph = .computing ∨ ph = .awaiting := by
  cases ph <;> first | exact .inl rfl | exact .inr rfl | cases h

/-- The coroutine is about to look for its key under the lock. -/
def Phase.looksUp (events : List Bool) : Phase V Exc → Prop
  | .asyncChecking => True
  | .suspended event => events[event]? = some true
  | _ => False

namespace System

/-- The function of the call of this caller is running, for the key `k`. -/
def Invokes (s : System T K V Exc B) (caller : T) (k : K) : Prop :=
  ∃ c, s.calls caller = some c ∧ c.key = k ∧ c.phase.invoking = true

/-- At most one invocation of the function is in progress for each key. -/
def Exclusive (s : System T K V Exc B) : Prop :=
  ∀ t u k, s.Invokes t k → s.Invokes u k → t = u

/-- Some call with the key `k` is in the phase `ph`. -/
def SomeoneIn (s : System T K V Exc B) (ph : Phase V Exc) (k : K) : Prop :=
  ∃ u d, s.calls u = some d ∧ d.key = k ∧ d.phase = ph

variable [DecidableEq K]

/-- The step is a lookup that finds nothing for a key that is free in the table of its own path,
while a call of the other path is computing it. -/
def Crosses (cache : Cache K V Exc B D) (s : System T K V Exc B) : Action T K V Exc D → Prop
  | .advance caller .turn => ∃ c, s.calls caller = some c ∧
      (cache.ops.get s.state.backend c.key).1 = .ok none ∧
      (c.phase = .checking ∧ c.key ∉ s.state.inflight ∧ s.SomeoneIn .awaiting c.key ∨
        c.phase.looksUp s.state.events ∧ s.state.asyncInflight c.key = none ∧
          s.SomeoneIn .computing c.key)
  | _ => False

variable [DecidableEq T] {Cls : Type z} [Exceptions Exc Cls] {cache : Cache K V Exc B D}

/-- A thread that computes after a step was computing before, or it has just found its key free. -/
theorem computing_cases {s s' : System T K V Exc B} {a : Action T K V Exc D}
    (hstep : s.step cache a = some s') {caller : T} {d : Call K V Exc}
    (hd : s'.calls caller = some d) (hph : d.phase = .computing) :
    s.calls caller = some d ∨
      a = .advance caller .turn ∧ ∃ c, s.calls caller = some c ∧ c.key = d.key ∧
        c.phase = .checking ∧ (cache.ops.get s.state.backend c.key).1 = .ok none ∧
        c.key ∉ s.state.inflight := by
  obtain hd' | ⟨c, ev, m, hc, ha, hcase, rfl, -⟩ :=
    kept_or_advanced hstep hd (P := (· = .computing)) hph nofun nofun nofun
  · exact .inl hd'
  · refine .inr ?_
    generalize hcph : c.phase = ph at hcase
    cases hcase with
    | reserve b hg hk => exact ⟨ha, c, hc, rfl, hcph, by rw [hg], hk⟩
    | asyncFinish v => cases hm : cache.isMemory <;> simp [hm] at hph
    | _ => cases hph

/-- A coroutine that awaits its function after a step was awaiting it before, or it has just found
its key free. -/
theorem awaiting_cases (hm : cache.isMemory = true) {s s' : System T K V Exc B}
    (hfits : FitsOk cache s) {a : Action T K V Exc D} (hstep : s.step cache a = some s')
    {caller : T} {d : Call K V Exc} (hd : s'.calls caller = some d) (hph : d.phase = .awaiting) :
    s.calls caller = some d ∨
      a = .advance caller .turn ∧ ∃ c, s.calls caller = some c ∧ c.key = d.key ∧
        c.phase.looksUp s.state.events ∧ (cache.ops.get s.state.backend c.key).1 = .ok none ∧
        s.state.asyncInflight c.key = none := by
  obtain hd' | ⟨c, ev, m, hc, ha, hcase, rfl, -⟩ :=
    kept_or_advanced hstep hd (P := (· = .awaiting)) hph nofun nofun nofun
  · exact .inl hd'
  · refine .inr ?_
    have hfit := hfits caller c hc
    generalize hcph : c.phase = ph at hcase hfit
    cases hcase with
    | asyncReserve ph b hl hn =>
        cases hl with
        | first _ _ hg => exact ⟨ha, c, hc, rfl, by rw [hcph]; trivial, by rw [hg], hn⟩
        | again event _ _ hev _ hg =>
            exact ⟨ha, c, hc, rfl, by rw [hcph]; exact hev, by rw [hg], hn⟩
        | gotten => simp [Phase.fits, hm] at hfit
    | asyncFinish v => cases hm : cache.isMemory <;> simp [hm] at hph
    | _ => cases hph

/-- Calls of one path are coalesced. -/
theorem eq_of_phase_eq {backend : B} {s : System T K V Exc B}
    (hr : (callers T cache backend).Reachable s) {t u : T} {c d : Call K V Exc}
    (hc : s.calls t = some c) (hd : s.calls u = some d) (hkey : c.key = d.key)
    (hinvoking : c.phase.invoking = true) (hphase : c.phase = d.phase) : t = u := by
  rcases Phase.invoking_cases hinvoking with hph | hph
  · refine (syncOrderly_of_reachable hr).unique t u c.key (syncTable_computing.2 ?_)
      (syncTable_computing.2 ?_)
    · exact ⟨c, hc, rfl, by rw [hph]; rfl⟩
    · exact ⟨d, hd, hkey.symm, by rw [← hphase, hph]; rfl⟩
  · refine (asyncOrderly_of_reachable hr).unique t u c.key (asyncTable_computing.2 ?_)
      (asyncTable_computing.2 ?_)
    · exact ⟨c, hc, rfl, by rw [hph]; rfl⟩
    · exact ⟨d, hd, hkey.symm, by rw [← hphase, hph]; rfl⟩

/-- A step that does not cross leaves no key computed on both paths, if there was none before. -/
theorem not_both (hm : cache.isMemory = true) {s s' : System T K V Exc B}
    (hfits : FitsOk cache s) (hex : s.Exclusive) {a : Action T K V Exc D}
    (hstep : s.step cache a = some s') (hok : ¬ s.Crosses cache a) {t u : T} {c d : Call K V Exc}
    (hc : s'.calls t = some c) (hd : s'.calls u = some d) (hkey : c.key = d.key)
    (hcph : c.phase = .computing) (hdph : d.phase = .awaiting) : False := by
  have hne : t ≠ u := by
    rintro rfl
    rw [Option.some_inj.1 (hc.symm.trans hd), hdph] at hcph
    cases hcph
  rcases computing_cases hstep hc hcph with hc' | ⟨ha, c', hc', hkey', hchk, hmiss, hfree⟩
  · rcases awaiting_cases hm hfits hstep hd hdph with
      hd' | ⟨ha, d', hd', hkey', hlook, hmiss, hfree⟩
    · -- both were in progress before
      exact hne (hex t u c.key ⟨c, hc', rfl, by rw [hcph]; rfl⟩
        ⟨d, hd', hkey.symm, by rw [hdph]; rfl⟩)
    · subst ha
      exact hok ⟨d', hd', hmiss, .inr ⟨hlook, hfree, t, c, hc', hkey.trans hkey'.symm, hcph⟩⟩
  · rcases awaiting_cases hm hfits hstep hd hdph with hd' | ⟨ha', -⟩
    · subst ha
      exact hok ⟨c', hc', hmiss, .inl ⟨hchk, hfree, u, d, hd', hkey.symm.trans hkey'.symm, hdph⟩⟩
    · -- only one call moves in a step
      rw [ha] at ha'
      cases ha'
      exact hne rfl

/-- A step that does not cross keeps the invocations exclusive. -/
theorem exclusive_step (hm : cache.isMemory = true) {backend : B} {s s' : System T K V Exc B}
    (hr : (callers T cache backend).Reachable s) (hex : s.Exclusive) {a : Action T K V Exc D}
    (hstep : s.step cache a = some s') (hok : ¬ s.Crosses cache a) : s'.Exclusive := by
  have hfits := fitsOk_of_reachable hr
  rintro t u k ⟨c, hc, rfl, hcinv⟩ ⟨d, hd, hkey, hdinv⟩
  rcases Phase.invoking_cases hcinv with hcph | hcph
  · rcases Phase.invoking_cases hdinv with hdph | hdph
    · exact eq_of_phase_eq (hr.step hstep) hc hd hkey.symm hcinv (hcph.trans hdph.symm)
    · exact (not_both hm hfits hex hstep hok hc hd hkey.symm hcph hdph).elim
  · rcases Phase.invoking_cases hdinv with hdph | hdph
    · exact (not_both hm hfits hex hstep hok hd hc hkey hdph hcph).elim
    · exact eq_of_phase_eq (hr.step hstep) hc hd hkey.symm hcinv (hcph.trans hdph.symm)

omit [DecidableEq K] in
/-- The calls that are not blocked stay as they are when another call makes a step. -/
theorem moved_calls_other {s : System T K V Exc B} {caller u : T} {c d : Call K V Exc}
    {m : Moved K V Exc B} (hu : u ≠ caller) (hd : s.calls u = some d)
    (hinvoking : d.phase.invoking = true) : (s.moved caller c m).calls u = some d := by
  have hwake : d.wake = d := by
    rcases d.wake_phase with ⟨hb, -⟩ | hw
    · rw [hb] at hinvoking
      cases hinvoking
    · exact hw
  simp only [System.moved, Function.update_of_ne hu]
  split
  · simp [notifyAll, hd, hwake]
  · exact hd

omit [DecidableEq K] in
/-- A call that comes to invoke the function while another call for its key does is not exclusive.
-/
theorem not_exclusive_of_moved {s : System T K V Exc B} {caller u : T} {c d : Call K V Exc}
    {m : Moved K V Exc B} (hc : s.calls caller = some c) (hd : s.calls u = some d)
    (hkey : d.key = c.key) (hphase : c.phase ≠ d.phase) (hdinv : d.phase.invoking = true)
    (hminv : m.phase.invoking = true) : ¬ (s.moved caller c m).Exclusive := by
  intro hex
  have hu : u ≠ caller := by
    rintro rfl
    exact hphase (by rw [Option.some_inj.1 (hc.symm.trans hd)])
  exact hu (hex u caller c.key ⟨d, moved_calls_other hu hd hdinv, hkey, hdinv⟩
    ⟨_, moved_calls_self, rfl, hminv⟩)

/-- A step that crosses invokes the function for a key that is being computed. -/
theorem not_exclusive_of_crosses (hm : cache.isMemory = true) {s s' : System T K V Exc B}
    {a : Action T K V Exc D} (hstep : s.step cache a = some s') (hcross : s.Crosses cache a) :
    ¬ s'.Exclusive := by
  cases step_cases hstep with
  | advance caller ev c m hc hadv =>
      cases ev with
      | turn =>
          obtain ⟨c', hc', hmiss, hcross⟩ := hcross
          obtain rfl := Option.some_inj.1 (hc'.symm.trans hc)
          have hcase := Cache.advance_cases hadv
          rcases hcross with ⟨hchk, hfree, u, d, hd, hkey, hdph⟩ |
            ⟨hlook, hfree, u, d, hd, hkey, hdph⟩
          · have hne : c'.phase ≠ d.phase := by
              rw [hchk, hdph]
              nofun
            refine not_exclusive_of_moved hc hd hkey hne (by rw [hdph]; rfl) ?_
            rw [hchk] at hcase
            cases hcase with
            | reserve b hg hk => rfl
            | hit v b hg | getRaises e b hg =>
                rw [hg] at hmiss
                cases hmiss
            | wait b hg hk => exact absurd hk hfree
            | asyncHit _ _ _ hl | asyncGetRaises _ _ _ hl | asyncReserve _ _ hl
            | asyncWait _ _ _ hl => cases hl
          · have hne : c'.phase ≠ d.phase := by
              intro heq
              rw [heq, hdph] at hlook
              exact hlook
            refine not_exclusive_of_moved hc hd hkey hne (by rw [hdph]; rfl) ?_
            generalize c'.phase = ph at hcase hlook
            cases hcase with
            | asyncReserve ph b hl hn => rfl
            | asyncHit ph v b hl | asyncGetRaises ph e b hl =>
                cases hl with
                | first _ _ hg | again _ _ _ _ _ hg =>
                    rw [hg] at hmiss
                    cases hmiss
                | gotten => cases hlook
            | asyncWait ph b event hl hn =>
                rw [hfree] at hn
                cases hn
            | retry event hev hnm =>
                rw [hm] at hnm
                cases hnm
            | _ => cases hlook
      | _ => cases hcross
  | _ => cases hcross

end System

/-! ### Exclusion -/

section Runs

variable [DecidableEq K] [DecidableEq T] {Cls : Type z} [Exceptions Exc Cls]

/-- **On both paths together, invocations are exclusive in every run without a crossing step**, and
every crossing step breaks it: with a `MemoryBackend`, any number of threads calling `execute` and
of coroutines calling `execute_async` compute a key one at a time, as long as no call finds its key
free on its own path while a call of the other path is computing it. -/
theorem both_paths_exclusive (cache : Cache K V Exc B D) (hm : cache.isMemory = true)
    (backend : B) :
    (∀ as s, (callers T cache backend).Run (fun s a => ¬ s.Crosses cache a) as s → s.Exclusive) ∧
    ∀ s a s', (callers T cache backend).Reachable s → s.step cache a = some s' → s.Exclusive →
      (s'.Exclusive ↔ ¬ s.Crosses cache a) := by
  constructor
  · intro as s h
    refine h.invariant (I := System.Exclusive) ?_ ?_
    · rintro t u k ⟨c, hc, -⟩
      cases hc
    · intro as s a s' hr hex hok hstep
      exact System.exclusive_step hm hr.reachable hex hstep hok
  · intro s a s' hr hstep hex
    exact ⟨fun hex' hcross => System.not_exclusive_of_crosses hm hstep hcross hex',
      System.exclusive_step hm hr hex hstep⟩

end Runs

/-- The call of the one caller that makes a step has another key than that of the other. -/
def otherKey (s : System Bool ℕ ℕ Builtin (MemoryBackend ℕ ℕ × ℚ)) :
    Action Bool ℕ ℕ Builtin {d : ℚ // 0 ≤ d} → Bool
  | .advance caller _ => (s.calls caller).all fun c => (s.calls !caller).all fun d => c.key != d.key
  | _ => true

theorem not_crosses_of_otherKey (s : System Bool ℕ ℕ Builtin (MemoryBackend ℕ ℕ × ℚ))
    (a : Action Bool ℕ ℕ Builtin {d : ℚ // 0 ≤ d}) (h : otherKey s a = true) :
    ¬ s.Crosses tinyCache a := by
  cases a with
  | advance caller ev =>
      cases ev with
      | turn =>
          rintro ⟨c, hc, -, hcross⟩
          have hother : ∀ u d, s.calls u = some d → d.key = c.key → d.phase = c.phase := by
            intro u d hd hkey
            rcases Bool.eq_or_eq_not u caller with rfl | rfl
            · rw [Option.some_inj.1 (hd.symm.trans hc)]
            · simp [otherKey, hc, hd, hkey] at h
          rcases hcross with ⟨hchk, -, u, d, hd, hkey, hph⟩ | ⟨hlook, -, u, d, hd, hkey, hph⟩
          · rw [hother u d hd hkey, hchk] at hph
            cases hph
          · rw [← hother u d hd hkey, hph] at hlook
            exact hlook
      | _ => exact id
  | _ => exact id

/-- A thread computes the key `7` and a coroutine the key `8`. -/
theorem both_paths_exclusive_for_two_keys :
    ∃ s : System Bool ℕ ℕ Builtin (MemoryBackend ℕ ℕ × ℚ),
      (s.Invokes false 7 ∧ s.Invokes true 8) ∧ s.Exclusive := by
  obtain ⟨s, hr, hs⟩ := Machine.exists_run_of_exec
    (callers Bool tinyCache (MemoryBackend.init 128 none, 0)) otherKey not_crosses_of_otherKey
    [.execute false 7, .advance false .turn, .executeAsync true 8, .advance true .turn]
    (fun s => ((s.calls false).any fun (c : Call ℕ ℕ Builtin) =>
        decide (c.key = 7) && c.phase.invoking) &&
      (s.calls true).any fun (c : Call ℕ ℕ Builtin) => decide (c.key = 8) && c.phase.invoking)
    (by decide +kernel)
  rw [Bool.and_eq_true, Option.any_eq_true, Option.any_eq_true] at hs
  obtain ⟨⟨c, hc, hcall⟩, d, hd, hdall⟩ := hs
  rw [Bool.and_eq_true, decide_eq_true_iff] at hcall hdall
  exact ⟨s, ⟨⟨c, hc, hcall⟩, ⟨d, hd, hdall⟩⟩, (both_paths_exclusive tinyCache rfl _).1 _ s hr⟩

/-- A thread and a coroutine compute the key `7` at the same time. -/
theorem not_both_paths_exclusive :
    ∃ s, (callers Bool tinyCache (MemoryBackend.init 128 none, 0)).Reachable s ∧
      ¬ s.Exclusive := by
  obtain ⟨s, hr, hs⟩ := Machine.exists_reachable_of_exec
    (callers Bool tinyCache (MemoryBackend.init 128 none, 0))
    [.execute false 7, .advance false .turn, .executeAsync true 7, .advance true .turn]
    (fun s => ((s.calls false).any fun (c : Call ℕ ℕ Builtin) =>
        decide (c.key = 7) && c.phase.invoking) &&
      (s.calls true).any fun (c : Call ℕ ℕ Builtin) => decide (c.key = 7) && c.phase.invoking)
    (by decide +kernel)
  rw [Bool.and_eq_true, Option.any_eq_true, Option.any_eq_true] at hs
  obtain ⟨⟨c, hc, hcall⟩, d, hd, hdall⟩ := hs
  rw [Bool.and_eq_true, decide_eq_true_iff] at hcall hdall
  refine ⟨s, hr, fun hex => ?_⟩
  exact Bool.false_ne_true (hex false true 7 ⟨c, hc, hcall⟩ ⟨d, hd, hdall⟩)

end Caching
