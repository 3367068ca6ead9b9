/-
The asynchronous bulkhead conserves its permits.

The critical sections of the lock contain no `await`, so the call that holds the lock has control
until it releases it.  Hence the lock is never contended, no call is ever suspended on it, and in
particular no cancellation can hit a call that is about to give its permit back.  With this the
counter, the event and the calls are kept in step by every statement.

Main definitions:

* `Bulkheads.Phase.charged` — the permit of a call in this phase has been taken from the counter;
* `Bulkheads.Guarded`, `Bulkheads.CallOk` — what holds of the bulkhead and of each call;
* `Bulkheads.System.Inv` — the invariant of the machine.

Main results:

* `Bulkheads.run_cases` — all the next statement of a call can do;
* `Bulkheads.run_spec`, `Bulkheads.resume_spec` — each statement of a call keeps it;
* `Bulkheads.System.inv_of_reachable` — it holds in every run;
* `Bulkheads.async_permits_conserved` — **permits are conserved**, at most `max_concurrent`
  factories run, every permit is given back once, and no call waits or is rejected while a permit
  is free.
-/

import Pysilience.Bulkhead.Calls
import Mathlib.Tactic.Linarith

set_option relaxedAutoImplicit false
set_option autoImplicit false

namespace Bulkheads

open Python Transition

universe u v

variable {V : Type v} {Exc : Type u} {Cls : Type v} [Exceptions Exc Cls] {cfg : BulkheadConfig}

/-! ### What holds of the bulkhead and of each call -/

namespace Phase

/-- The permit of a call in this phase has been taken from `_async_n` and not been given back. -/
def charged : Phase V Exc → Bool
  | leaving .acquired | running | releasing _ | releaseBlocked _ | givingBack _ => true
  | _ => false

/-- How many permits a call in this phase has taken and given back. -/
def account : Phase V Exc → ℕ × ℕ
  | leaving .acquired | running | releasing _ | releaseBlocked _ | givingBack _ => (1, 0)
  | leaving (.released _) | ended (.returned _) | ended (.raised _) => (1, 1)
  | _ => (0, 0)

/-- The deadline a call carries in this phase. -/
def deadline : Phase V Exc → Option (Option ℚ)
  | locking d | lockBlocked d | checking d | leaving (.mustWait d _) | awaiting d _
  | waiting d _ => some d
  | _ => none

/-- The call has not executed a statement yet. -/
def fresh : Phase V Exc → Bool
  | created | entering => true
  | _ => false

/-- The call is not suspended on the lock, and its assertion has not failed. -/
def sound : Phase V Exc → Bool
  | lockBlocked _ | releaseBlocked _ | leaving .assertionError | ended .assertionError => false
  | _ => true

end Phase

/-- The bulkhead while the call that has control holds the lock (`held`) or does not: nobody is
suspended on the lock, and the event is set exactly while permits are left. -/
structure Guarded (b : Bulkhead cfg) (held : Bool) : Prop where
  waiters : b.asyncMu.waiters = []
  locked : b.asyncMu.locked = held
  nonneg : 0 ≤ b.asyncN
  wake : b.asyncWake.isSet = true ↔ 0 < b.asyncN
  settled : b.asyncWake.Settled

/-- A call whose record agrees with its phase, and whose deadline is `max_wait` after its
beginning. -/
structure CallOk (cfg : BulkheadConfig) (c : Call V Exc) : Prop where
  account : (c.taken, c.given) = c.phase.account
  deadline : ∀ d, c.phase.deadline = some d → 0 < cfg.maxWait →
    ∃ t, c.beganAt = some t ∧ d = some (t + cfg.maxWait)
  fresh : c.phase.fresh = true → c.beganAt = none
  sound : c.phase.sound = true

theorem guarded_init (cfg : BulkheadConfig) (name : Option String) :
    Guarded (Bulkhead.init cfg name) false := by
  have hpos : 0 < cfg.maxConcurrent := cfg.bounds.1
  refine ⟨rfl, rfl, hpos.le, ?_, ?_⟩
  · simp [Bulkhead.init, hpos]
  · intro _
    simp [Bulkhead.init, hpos, Asyncio.Event.set, Asyncio.Event.new]

theorem callOk_new (cfg : BulkheadConfig) : CallOk cfg (Call.new : Call V Exc) where
  account := rfl
  deadline d hd := by cases hd
  fresh _ := rfl
  sound := rfl

/-! ### The bodies of the critical sections -/

variable (V Exc) in
/-- How `check` decides: it takes a permit, or there is none, and then it refuses one or decides to
wait. -/
theorem check_cases (b : Bulkhead cfg) (deadline : Option ℚ) (now : ℚ) :
    (0 < b.asyncN ∧ b.check deadline now = (b.take, (.acquired : Exit V Exc))) ∨
    b.asyncN ≤ 0 ∧
      ((b.check deadline now = (b, (.full : Exit V Exc)) ∧
        (cfg.maxWait = 0 ∨ ∃ due, deadline = some due ∧ due ≤ now)) ∨
      (b.check deadline now = (b, (.assertionError : Exit V Exc)) ∧ cfg.maxWait ≠ 0 ∧
        deadline = none) ∨
      ∃ remaining, b.check deadline now = (b, (.mustWait deadline remaining : Exit V Exc))) := by
  unfold Bulkhead.check
  by_cases hn : 0 < b.asyncN
  · exact Or.inl ⟨hn, if_pos hn⟩
  · refine Or.inr ⟨not_lt.1 hn, ?_⟩
    rw [if_neg hn]
    by_cases hw : cfg.maxWait = 0
    · exact Or.inl ⟨if_pos hw, Or.inl hw⟩
    · rw [if_neg hw]
      cases deadline with
      | none => exact Or.inr (Or.inl ⟨rfl, hw, rfl⟩)
      | some due =>
          by_cases hr : due - now ≤ 0
          · exact Or.inl ⟨if_pos hr, Or.inr ⟨due, rfl, by linarith⟩⟩
          · exact Or.inr (Or.inr ⟨_, if_neg hr⟩)

/-- What the next statement of a call can do: the phase the call is in, and the bulkhead and the
phase the statement leads to. -/
inductive RunCase (b : Bulkhead cfg) (i : ℕ) (now : ℚ) :
    Phase V Exc → Bulkhead cfg → Phase V Exc → Prop
  | entered : RunCase b i now .entering b
      (.locking (if 0 < cfg.maxWait then some (now + cfg.maxWait) else none))
  | locked (d : Option ℚ) (got : Bool) (mu : Asyncio.Lock ℕ) : b.asyncMu.acquire i = (got, mu) →
      RunCase b i now (.locking d) { b with asyncMu := mu }
        (if got then .checking d else .lockBlocked d)
  | acquired (d : Option ℚ) : 0 < b.asyncN →
      RunCase b i now (.checking d) b.take (.leaving .acquired)
  | full (d : Option ℚ) : b.asyncN ≤ 0 → (cfg.maxWait = 0 ∨ ∃ due, d = some due ∧ due ≤ now) →
      RunCase b i now (.checking d) b (.leaving .full)
  | noDeadline : cfg.maxWait ≠ 0 → RunCase b i now (.checking none) b (.leaving .assertionError)
  | mustWait (d : Option ℚ) (r : ℚ) : RunCase b i now (.checking d) b (.leaving (.mustWait d r))
  | left (exit : Exit V Exc) : RunCase b i now (.leaving exit)
      { b with asyncMu := b.asyncMu.release } (Bulkhead.after exit)
  | awaited (d : Option ℚ) (r : ℚ) : RunCase b i now (.awaiting d r)
      { b with asyncWake := (b.asyncWake.wait i).2 }
      (if (b.asyncWake.wait i).1 then .locking d else .waiting d r)
  | rejected : RunCase b i now .rejecting b (.ended (.rejected b.reject))
  | releasing (outcome : Except Exc V) (got : Bool) (mu : Asyncio.Lock ℕ) :
      b.asyncMu.acquire i = (got, mu) → RunCase b i now (.releasing outcome)
        { b with asyncMu := mu } (if got then .givingBack outcome else .releaseBlocked outcome)
  | gaveBack (outcome : Except Exc V) :
      RunCase b i now (.givingBack outcome) b.giveBack (.leaving (.released outcome))

/-- **All the next statement of a call can do.** -/
theorem run_cases {b b' : Bulkhead cfg} {i : ℕ} {now : ℚ} {p p' : Phase V Exc}
    {events : List (BulkheadEvent Exc)} (h : b.run i now p = some (b', p', events)) :
    RunCase b i now p b' p' := by
  have hcase : ∀ {b₁ : Bulkhead cfg} {p₁ : Phase V Exc} {ev : List (BulkheadEvent Exc)},
      RunCase b i now p b₁ p₁ → some (b₁, p₁, ev) = some (b', p', events) →
        RunCase b i now p b' p' := by
    intro b₁ p₁ ev hcase heq
    simp only [Option.some.injEq, Prod.mk.injEq] at heq
    obtain ⟨rfl, rfl, -⟩ := heq
    exact hcase
  cases p with
  | entering => exact hcase .entered h
  | locking d => exact hcase (.locked d _ _ rfl) h
  | checking d =>
      rw [Bulkhead.run] at h
      rcases check_cases V Exc b d now with
        ⟨hn, hcheck⟩ | ⟨hn, ⟨hcheck, hwhy⟩ | ⟨hcheck, hw, rfl⟩ | ⟨r, hcheck⟩⟩
      · rw [hcheck] at h
        exact hcase (.acquired d hn) h
      · rw [hcheck] at h
        exact hcase (.full d hn hwhy) h
      · rw [hcheck] at h
        exact hcase (.noDeadline hw) h
      · rw [hcheck] at h
        exact hcase (.mustWait d r) h
  | leaving exit => exact hcase (.left exit) h
  | awaiting d r => exact hcase (.awaited d r) h
  | rejecting => exact hcase .rejected h
  | releasing outcome => exact hcase (.releasing outcome _ _ rfl) h
  | givingBack outcome => exact hcase (.gaveBack outcome) h
  | _ => cases h

/-- Taking a permit keeps the event in step with the counter. -/
theorem Guarded.take {b : Bulkhead cfg} (hg : Guarded b true) (hn : 0 < b.asyncN) :
    Guarded b.take true where
  waiters := hg.waiters
  locked := hg.locked
  nonneg := by
    change 0 ≤ b.asyncN - 1
    omega
  wake := by
    change (if b.asyncN - 1 = 0 then b.asyncWake.clear else b.asyncWake).isSet = true ↔
      0 < b.asyncN - 1
    split
    · next hlast => simp [hlast]
    · rw [hg.wake]
      omega
  settled := by
    change (if b.asyncN - 1 = 0 then b.asyncWake.clear else b.asyncWake).Settled
    split
    · exact Asyncio.Event.Settled.clear _
    · exact hg.settled

/-- Giving a permit back keeps the event in step with the counter. -/
theorem Guarded.giveBack {b : Bulkhead cfg} (hg : Guarded b true) : Guarded b.giveBack true where
  waiters := hg.waiters
  locked := hg.locked
  nonneg := by
    have := hg.nonneg
    change 0 ≤ b.asyncN + 1
    omega
  wake := by
    have := hg.nonneg
    change b.asyncWake.set.isSet = true ↔ 0 < b.asyncN + 1
    simp only [Asyncio.Event.set_isSet, true_iff]
    omega
  settled := hg.settled.set

/-- The lock is free for whoever has control, and is taken without suspending. -/
theorem Guarded.acquire {b : Bulkhead cfg} (hg : Guarded b false) (i : ℕ) :
    ∃ mu, b.asyncMu.acquire i = (true, mu) ∧
      Guarded ({ b with asyncMu := mu } : Bulkhead cfg) true :=
  ⟨_, b.asyncMu.acquire_of_free i hg.locked hg.waiters,
    hg.waiters, rfl, hg.nonneg, hg.wake, hg.settled⟩

/-- Releasing the lock. -/
theorem Guarded.release {b : Bulkhead cfg} (hg : Guarded b true) :
    Guarded ({ b with asyncMu := b.asyncMu.release } : Bulkhead cfg) false :=
  ⟨hg.waiters, rfl, hg.nonneg, hg.wake, hg.settled⟩

/-- Whatever keeps the flag of the event and leaves nobody suspended on a set event. -/
theorem Guarded.wakeup {b : Bulkhead cfg} {held : Bool} (hg : Guarded b held)
    {wake : Asyncio.Event ℕ} (hflag : wake.isSet = b.asyncWake.isSet) (hwake : wake.Settled) :
    Guarded ({ b with asyncWake := wake } : Bulkhead cfg) held :=
  ⟨hg.waiters, hg.locked, hg.nonneg, by rw [hflag, hg.wake], hwake⟩

/-! ### Every statement keeps it -/

/-- What a statement of a call, which leads from the bulkhead `b` and the phase of `c` to `b'` and
`p'`, keeps: the two stay in step, and what it takes from the counter it charges to the call. -/
def Keeps (b b' : Bulkhead cfg) (c : Call V Exc) (beganAt : Option ℚ) (p' : Phase V Exc) : Prop :=
  Guarded b' p'.locked ∧ CallOk cfg (c.moved beganAt b.asyncN b'.asyncN p') ∧
    b'.asyncN + (p'.charged.toNat : ℤ) = b.asyncN + (c.phase.charged.toNat : ℤ)

/-- A statement that leaves the counter alone keeps everything if it keeps the account, the
deadline and the charge of the call. -/
theorem Keeps.of_counter_eq {b b' : Bulkhead cfg} {c : Call V Exc} {beganAt : Option ℚ}
    {p' : Phase V Exc} (hg : Guarded b' p'.locked) (hc : CallOk cfg c)
    (hn : b'.asyncN = b.asyncN) (haccount : p'.account = c.phase.account)
    (hcharged : p'.charged = c.phase.charged)
    (hdeadline : ∀ d, p'.deadline = some d → 0 < cfg.maxWait →
      ∃ t, beganAt = some t ∧ d = some (t + cfg.maxWait))
    (hfresh : p'.fresh = true → beganAt = none) (hsound : p'.sound = true) :
    Keeps b b' c beganAt p' := by
  refine ⟨hg, ⟨?_, hdeadline, hfresh, hsound⟩, by rw [hn, hcharged]⟩
  have : ¬ b.asyncN < b.asyncN := lt_irrefl _
  simp only [Call.moved, hn, if_neg this, haccount, hc.account]

/-- A permit is taken from the counter and charged to the call. -/
theorem Keeps.take {b : Bulkhead cfg} {c : Call V Exc} {d beganAt : Option ℚ}
    (hg : Guarded b true) (hc : CallOk cfg c) (hphase : c.phase = .checking d)
    (hn : 0 < b.asyncN) : Keeps b b.take c beganAt (.leaving .acquired) := by
  have haccount := hc.account
  rw [hphase] at haccount
  refine ⟨hg.take hn, ⟨?_, nofun, nofun, rfl⟩, ?_⟩
  · have h1 : b.take.asyncN < b.asyncN := by
      change b.asyncN - 1 < b.asyncN
      omega
    obtain ⟨htaken, hgiven⟩ := Prod.mk.inj haccount
    simp only [Call.moved, if_pos h1, if_neg (lt_asymm h1), htaken, hgiven]
    rfl
  · rw [hphase]
    change b.asyncN - 1 + 1 = b.asyncN + 0
    omega

/-- The permit of a call goes back to the counter. -/
theorem Keeps.giveBack {b : Bulkhead cfg} {c : Call V Exc} {outcome : Except Exc V}
    {beganAt : Option ℚ} (hg : Guarded b true) (hc : CallOk cfg c)
    (hphase : c.phase = .givingBack outcome) :
    Keeps b b.giveBack c beganAt (.leaving (.released outcome)) := by
  have haccount := hc.account
  rw [hphase] at haccount
  refine ⟨hg.giveBack, ⟨?_, nofun, nofun, rfl⟩, ?_⟩
  · have h1 : b.asyncN < b.giveBack.asyncN := by
      change b.asyncN < b.asyncN + 1
      omega
    obtain ⟨htaken, hgiven⟩ := Prod.mk.inj haccount
    simp only [Call.moved, if_pos h1, if_neg (lt_asymm h1), htaken, hgiven]
    rfl
  · rw [hphase]
    change b.asyncN + 1 + 0 = b.asyncN + 1
    omega

/-- **Each statement of the call that has control keeps everything.** -/
theorem run_spec {b b' : Bulkhead cfg} {i : ℕ} {now : ℚ} {c : Call V Exc} {p' : Phase V Exc}
    {events : List (BulkheadEvent Exc)} (hg : Guarded b c.phase.locked) (hc : CallOk cfg c)
    (h : b.run i now c.phase = some (b', p', events)) :
    Keeps b b' c (c.beganAt <|> some now) p' := by
  obtain ⟨phase, beganAt, taken, given⟩ := c
  -- a deadline once computed is kept
  have hkept : ∀ d, phase.deadline = some d → 0 < cfg.maxWait →
      ∃ t, (beganAt <|> some now) = some t ∧ d = some (t + cfg.maxWait) := by
    intro d hd hw
    obtain ⟨t, ht, hd⟩ := hc.deadline d hd hw
    have ht : beganAt = some t := ht
    exact ⟨t, by rw [ht]; rfl, hd⟩
  cases run_cases h with
  | entered =>
      have hnone : beganAt = none := hc.fresh rfl
      refine Keeps.of_counter_eq hg hc rfl rfl rfl ?_ nofun rfl
      intro d hd hw
      obtain rfl := Option.some_inj.1 hd
      exact ⟨now, by rw [hnone]; rfl, if_pos hw⟩
  | locked d got mu hmu =>
      obtain ⟨mu', hmu', hg'⟩ := hg.acquire i
      obtain ⟨rfl, rfl⟩ := Prod.mk.inj (hmu.symm.trans hmu')
      exact Keeps.of_counter_eq hg' hc rfl rfl rfl hkept nofun rfl
  | acquired d hn => exact Keeps.take hg hc rfl hn
  | full => exact Keeps.of_counter_eq hg hc rfl rfl rfl nofun nofun rfl
  | noDeadline hw =>
      -- a call that may wait carries a deadline
      have hpos : 0 < cfg.maxWait := lt_of_le_of_ne cfg.bounds.2 (Ne.symm hw)
      obtain ⟨t, -, hsome⟩ := hc.deadline none rfl hpos
      cases hsome
  | mustWait => exact Keeps.of_counter_eq hg hc rfl rfl rfl hkept nofun rfl
  | left exit =>
      cases exit with
      | acquired => exact Keeps.of_counter_eq hg.release hc rfl rfl rfl nofun nofun rfl
      | full => exact Keeps.of_counter_eq hg.release hc rfl rfl rfl nofun nofun rfl
      | mustWait d r => exact Keeps.of_counter_eq hg.release hc rfl rfl rfl hkept nofun rfl
      | assertionError => cases hc.sound
      | released outcome =>
          cases outcome <;> exact Keeps.of_counter_eq hg.release hc rfl rfl rfl nofun nofun rfl
  | awaited d r =>
      have hwake : Guarded ({ b with asyncWake := (b.asyncWake.wait i).2 } : Bulkhead cfg) false :=
        hg.wakeup (b.asyncWake.wait_isSet i) (hg.settled.wait i)
      cases (b.asyncWake.wait i).1 with
      | true => exact Keeps.of_counter_eq hwake hc rfl rfl rfl hkept nofun rfl
      | false => exact Keeps.of_counter_eq hwake hc rfl rfl rfl hkept nofun rfl
  | rejected => exact Keeps.of_counter_eq hg hc rfl rfl rfl nofun nofun rfl
  | releasing outcome got mu hmu =>
      obtain ⟨mu', hmu', hg'⟩ := hg.acquire i
      obtain ⟨rfl, rfl⟩ := Prod.mk.inj (hmu.symm.trans hmu')
      exact Keeps.of_counter_eq hg' hc rfl rfl rfl nofun nofun rfl
  | gaveBack outcome => exact Keeps.giveBack hg hc rfl

/-- **Each resumption of a suspended call keeps everything.** -/
theorem resume_spec {b b' : Bulkhead cfg} {i : ℕ} {wakeup : Wakeup V Exc} {c : Call V Exc}
    {p' : Phase V Exc} {events : List (BulkheadEvent Exc)} (hg : Guarded b false)
    (hc : CallOk cfg c) (h : b.resume i c.phase wakeup = some (b', p', events)) :
    Keeps b b' c c.beganAt p' := by
  obtain ⟨phase, beganAt, taken, given⟩ := c
  have hforget : Guarded ({ b with asyncWake := b.asyncWake.forget i } : Bulkhead cfg) false :=
    hg.wakeup rfl (hg.settled.forget i)
  have hkeeps : ∀ {b₁ : Bulkhead cfg} {p₁ : Phase V Exc} {ev : List (BulkheadEvent Exc)},
      some (b₁, p₁, ev) = some (b', p', events) →
        Keeps b b₁ ⟨phase, beganAt, taken, given⟩ beganAt p₁ →
          Keeps b b' ⟨phase, beganAt, taken, given⟩ beganAt p' := by
    intro b₁ p₁ ev heq hkeeps
    simp only [Option.some.injEq, Prod.mk.injEq] at heq
    obtain ⟨rfl, rfl, -⟩ := heq
    exact hkeeps
  cases phase with
  | created =>
      cases wakeup with
      | started =>
          refine hkeeps h (Keeps.of_counter_eq hg hc rfl rfl rfl nofun ?_ rfl)
          exact fun _ => hc.fresh rfl
      | cancelled => exact hkeeps h (Keeps.of_counter_eq hg hc rfl rfl rfl nofun nofun rfl)
      | _ => cases h
  | waiting d r =>
      cases wakeup with
      | woken =>
          simp only [Bulkhead.resume] at h
          split at h
          · cases h
          · exact hkeeps h (Keeps.of_counter_eq hg hc rfl rfl rfl hc.deadline nofun rfl)
      | timedOut =>
          exact hkeeps h (Keeps.of_counter_eq hforget hc rfl rfl rfl hc.deadline nofun rfl)
      | cancelled => exact hkeeps h (Keeps.of_counter_eq hforget hc rfl rfl rfl nofun nofun rfl)
      | _ => cases h
  | running =>
      cases wakeup with
      | finished outcome => exact hkeeps h (Keeps.of_counter_eq hg hc rfl rfl rfl nofun nofun rfl)
      | _ => cases h
  | lockBlocked d => cases hc.sound
  | releaseBlocked outcome => cases hc.sound
  | _ => cases wakeup <;> cases h

/-! ### The invariant of the machine -/

/-- Replacing an element changes a count by the difference of the two elements. -/
theorem countP_set_add {α : Type u} (p : α → Bool) {l : List α} {i : ℕ} {x : α} (y : α)
    (hx : l[i]? = some x) : (l.set i y).countP p + (p x).toNat = l.countP p + (p y).toNat := by
  induction l generalizing i with
  | nil => cases hx
  | cons z l ih =>
      cases i with
      | zero =>
          obtain rfl := Option.some_inj.1 hx
          simp only [List.set_cons_zero, List.countP_cons]
          cases p z <;> cases p y <;> simp
      | succ i =>
          have := ih hx
          simp only [List.set_cons_succ, List.countP_cons]
          omega

/-- What a list holds it still holds when it is extended. -/
theorem getElem?_append_some {α : Type u} {l l' : List α} {i : ℕ} {x : α} (hx : l[i]? = some x) :
    (l ++ l')[i]? = some x := by
  rw [List.getElem?_append_left (List.getElem?_eq_some_iff.1 hx).1, hx]

/-- Only a call that has control holds the lock. -/
theorem Phase.executing_of_locked {p : Phase V Exc} (h : p.locked = true) :
    p.executing = true := by
  cases p with
  | checking d => rfl
  | leaving exit => rfl
  | givingBack outcome => rfl
  | _ => cases h

namespace System

/-- The call that has control holds the lock. -/
def held (s : System cfg V Exc) : Bool :=
  (s.control.bind fun i => s.calls[i]?).elim false fun c => c.phase.locked

/-- The invariant of the machine: control lies with the one call that executes, the bulkhead and the
calls are in step, and the permits are conserved. -/
structure Inv (s : System cfg V Exc) : Prop where
  owner : ∀ i, s.control = some i → ∃ c, s.calls[i]? = some c
  control : ∀ i c, s.calls[i]? = some c → (c.phase.executing = true ↔ s.control = some i)
  guarded : Guarded s.bulkhead s.held
  calls : ∀ c ∈ s.calls, CallOk cfg c
  conserved : s.bulkhead.asyncN + (s.calls.countP fun c => c.phase.charged) = cfg.maxConcurrent

theorem inv_init (cfg : BulkheadConfig) (name : Option String) :
    (System.init cfg name : System cfg V Exc).Inv where
  owner i h := by cases h
  control i c h := by cases h
  guarded := guarded_init cfg name
  calls c h := by cases h
  conserved := add_zero _

/-- Creating a call keeps the invariant. -/
theorem Inv.created {s : System cfg V Exc} (hi : s.Inv) :
    ({ s with calls := s.calls ++ [.new] } : System cfg V Exc).Inv where
  owner i h := by
    obtain ⟨c, hc⟩ := hi.owner i h
    exact ⟨c, getElem?_append_some hc⟩
  control i c h := by
    rcases lt_or_ge i s.calls.length with hlt | hge
    · rw [List.getElem?_append_left hlt] at h
      exact hi.control i c h
    · -- the new call is suspended, and nobody had its number
      rw [List.getElem?_append_right hge] at h
      obtain rfl := List.mem_singleton.1 (List.mem_of_getElem? h)
      refine ⟨nofun, fun hcontrol => ?_⟩
      obtain ⟨d, hd⟩ := hi.owner i hcontrol
      exact absurd (List.getElem?_eq_some_iff.1 hd).1 (not_lt.2 hge)
  guarded := by
    have hheld : ({ s with calls := s.calls ++ [.new] } : System cfg V Exc).held = s.held := by
      unfold held
      cases hcontrol : s.control with
      | none => rfl
      | some i =>
          obtain ⟨c, hc⟩ := hi.owner i hcontrol
          simp only [Option.bind_some, hc, getElem?_append_some hc]
    rw [hheld]
    exact hi.guarded
  calls c h := by
    rcases List.mem_append.1 h with h | h
    · exact hi.calls c h
    · obtain rfl := List.mem_singleton.1 h
      exact callOk_new cfg
  conserved := by
    have := hi.conserved
    simpa [List.countP_append, Call.new, Phase.charged] using this

/-- Moving a call keeps the invariant, if nobody else has control and the statement keeps what it
has to keep. -/
theorem Inv.move {s : System cfg V Exc} (hi : s.Inv) {i : ℕ} {c : Call V Exc}
    (hc : s.calls[i]? = some c) (hcontrol : ∀ j, s.control = some j → j = i)
    {beganAt : Option ℚ} {b : Bulkhead cfg} {p : Phase V Exc} {events : List (BulkheadEvent Exc)}
    (hk : Keeps s.bulkhead b c beganAt p) : (s.move i c beganAt (b, p, events)).Inv := by
  obtain ⟨hguarded, hcall, hcounter⟩ := hk
  have hlt : i < s.calls.length := (List.getElem?_eq_some_iff.1 hc).1
  have hself : (s.move i c beganAt (b, p, events)).calls[i]? =
      some (c.moved beganAt s.bulkhead.asyncN b.asyncN p) :=
    List.getElem?_set_self hlt
  have hctl : ∀ j, (s.move i c beganAt (b, p, events)).control = some j ↔
      p.executing = true ∧ j = i := by
    intro j
    simp only [System.move]
    split
    · next he => simp [he, eq_comm]
    · next he => simp [he]
  refine ⟨?_, ?_, ?_, ?_, ?_⟩
  · intro j hj
    obtain ⟨-, rfl⟩ := (hctl j).1 hj
    exact ⟨_, hself⟩
  · intro j d hd
    rw [hctl]
    rcases eq_or_ne j i with rfl | hne
    · obtain rfl := Option.some_inj.1 (hself.symm.trans hd)
      simp [Call.moved]
    · -- the others are suspended before and after
      have hd' : s.calls[j]? = some d := by
        rwa [System.move, List.getElem?_set_ne hne.symm] at hd
      have hsusp : ¬ d.phase.executing = true := by
        intro he
        exact hne (hcontrol j ((hi.control j d hd').1 he))
      exact ⟨fun he => absurd he hsusp, fun he => absurd he.2 hne⟩
  · have hheld : (s.move i c beganAt (b, p, events)).held = p.locked := by
      by_cases he : p.executing = true
      · rw [held, (hctl i).2 ⟨he, rfl⟩]
        change ((s.move i c beganAt (b, p, events)).calls[i]?).elim false _ = _
        rw [hself]
        rfl
      · have hnone : (s.move i c beganAt (b, p, events)).control = none := if_neg he
        have hfree : p.locked = false := by
          by_contra hl
          exact he (Phase.executing_of_locked (by simpa using hl))
        rw [held, hnone, hfree]
        rfl
    rw [hheld]
    exact hguarded
  · intro d hd
    rcases List.mem_or_eq_of_mem_set hd with hd | rfl
    · exact hi.calls d hd
    · exact hcall
  · have hcount := countP_set_add (fun c : Call V Exc => c.phase.charged)
      (c.moved beganAt s.bulkhead.asyncN b.asyncN p) hc
    have hcons := hi.conserved
    simp only [Call.moved] at hcount
    simp only [System.move, Call.moved]
    omega

/-- Every step keeps the invariant. -/
theorem inv_step {s s' : System cfg V Exc} {a : Action V Exc} (hi : s.Inv)
    (h : s.step a = some s') : s'.Inv := by
  cases step_cases h with
  | created => exact hi.created
  | ran hcontrol hc hrun =>
      rename_i i now c b phase events
      have hheld : s.held = c.phase.locked := by
        rw [held, hcontrol, Option.bind_some, hc]
        rfl
      refine hi.move hc ?_ (run_spec (hheld ▸ hi.guarded) ?_ hrun)
      · intro j hj
        exact Option.some_inj.1 (hj.symm.trans hcontrol)
      · exact hi.calls c (List.mem_of_getElem? hc)
  | resumed hcontrol hc hresume =>
      rename_i i wakeup c b phase events
      have hheld : s.held = false := by
        rw [held, hcontrol]
        rfl
      refine hi.move hc ?_ (resume_spec (hheld ▸ hi.guarded) ?_ hresume)
      · intro j hj
        rw [hcontrol] at hj
        cases hj
      · exact hi.calls c (List.mem_of_getElem? hc)

/-- The invariant holds in every run. -/
theorem inv_of_reachable {name : Option String} {s : System cfg V Exc}
    (hr : (Bulkheads.calls V Exc cfg name).Reachable s) : s.Inv :=
  hr.invariant (I := Inv) (inv_init cfg name) fun _ _ _ hi hs => inv_step hi hs

/-! ### Permits are conserved -/

/-- At the end of a critical section only the call that has control is between the counter and its
own phase: elsewhere the permits charged are the permits held. -/
theorem Inv.charged_eq_holders {s : System cfg V Exc} (hi : s.Inv)
    (hleaving : ∀ i c, s.control = some i → s.calls[i]? = some c →
      ∀ exit, c.phase ≠ .leaving exit) :
    (s.calls.countP fun c => c.phase.charged) = s.holders := by
  refine List.countP_congr fun c hc => ?_
  obtain ⟨i, hc⟩ := List.mem_iff_getElem?.1 hc
  cases hphase : c.phase with
  | leaving exit =>
      have hcontrol := (hi.control i c hc).1 (by rw [hphase]; rfl)
      exact absurd hphase (hleaving i c hcontrol hc exit)
  | _ => rfl

/-- While the lock is free no call is at the end of a critical section. -/
theorem Inv.not_leaving {s : System cfg V Exc} (hi : s.Inv)
    (hfree : s.bulkhead.asyncMu.locked = false) (i : ℕ) (c : Call V Exc)
    (hcontrol : s.control = some i) (hc : s.calls[i]? = some c) (exit : Exit V Exc) :
    c.phase ≠ .leaving exit := by
  intro hphase
  have hheld : s.held = true := by
    rw [held, hcontrol, Option.bind_some, hc]
    change c.phase.locked = true
    rw [hphase]
    rfl
  have := hi.guarded.locked
  rw [hfree, hheld] at this
  cases this

/-- What the asynchronous bulkhead guarantees in a state. -/
structure Conserves (s : System cfg V Exc) : Prop where
  /-- While the lock is free every permit is either counted or held, and the event is set exactly
  while some are counted. -/
  permits : s.bulkhead.asyncMu.locked = false →
    s.bulkhead.asyncN + s.holders = cfg.maxConcurrent ∧
      (s.bulkhead.asyncWake.isSet = true ↔ 0 < s.bulkhead.asyncN)
  /-- No more factories run than there are permits. -/
  factories_le : (s.factories : ℤ) ≤ cfg.maxConcurrent
  /-- A call takes one permit at most, and has given back what it has taken when it has ended. -/
  given_once : ∀ c ∈ s.calls, c.taken ≤ 1 ∧ c.given ≤ c.taken ∧
    (c.phase.isEnded = true → c.given = c.taken)
  /-- No call is ever suspended on the lock, where a cancellation could lose its permit. -/
  never_blocked : ∀ c ∈ s.calls, c.phase.isBlocked = false
  /-- While a permit is free, every call suspended on the event has been woken. -/
  woken : ∀ i (c : Call V Exc), s.calls[i]? = some c → c.phase.isWaiting = true →
    0 < s.bulkhead.asyncN →
    s.bulkhead.asyncWake.isSet = true ∧ i ∉ s.bulkhead.asyncWake.waiters
  /-- A call is refused only at a check, where all permits are held and there is no waiting or
  `max_wait` has passed since the call began. -/
  refused : ∀ (a : Action V Exc) (t : System cfg V Exc), s.step a = some t →
    ∀ (i : ℕ) (c d : Call V Exc), s.calls[i]? = some c → t.calls[i]? = some d →
    c.phase.refused = false → d.phase.refused = true →
      ∃ now deadline, a = .run now ∧ c.phase = .checking deadline ∧
        (s.holders : ℤ) = cfg.maxConcurrent ∧
        (cfg.maxWait = 0 ∨ ∃ began, c.beganAt = some began ∧ cfg.maxWait ≤ now - began)

/-- A statement refuses a call only at the check. -/
theorem run_refused {b b' : Bulkhead cfg} {i : ℕ} {now : ℚ} {p p' : Phase V Exc}
    {events : List (BulkheadEvent Exc)} (h : b.run i now p = some (b', p', events))
    (hp : p.refused = false) (hp' : p'.refused = true) :
    ∃ deadline, p = .checking deadline ∧ b.asyncN ≤ 0 ∧
      (cfg.maxWait = 0 ∨ ∃ due, deadline = some due ∧ due ≤ now) := by
  cases run_cases h with
  | full deadline hn hwhy => exact ⟨deadline, rfl, hn, hwhy⟩
  | locked d got | releasing outcome got => cases got <;> cases hp'
  | left exit =>
      cases exit with
      | full => cases hp
      | released outcome => cases outcome <;> cases hp'
      | _ => cases hp'
  | awaited d r => split at hp' <;> cases hp'
  | rejected => cases hp
  | _ => cases hp'

/-- A call that is resumed has not been refused. -/
theorem resume_refused {b b' : Bulkhead cfg} {i : ℕ} {p p' : Phase V Exc} {wakeup : Wakeup V Exc}
    {events : List (BulkheadEvent Exc)} (h : b.resume i p wakeup = some (b', p', events)) :
    p'.refused = false := by
  have hgone : ∀ {q : Phase V Exc} {b₁ : Bulkhead cfg} {ev : List (BulkheadEvent Exc)},
      q.refused = false → some (b₁, q, ev) = some (b', p', events) → p'.refused = false := by
    intro q b₁ ev hq heq
    simp only [Option.some.injEq, Prod.mk.injEq] at heq
    obtain ⟨-, rfl, -⟩ := heq
    exact hq
  unfold Bulkhead.resume at h
  split at h
  · exact hgone rfl h
  · exact hgone rfl h
  · obtain ⟨mu, -, h⟩ := Option.map_eq_some_iff.1 h
    exact hgone rfl (congrArg some h)
  · exact hgone rfl h
  · split at h
    · cases h
    · exact hgone rfl h
  · exact hgone rfl h
  · exact hgone rfl h
  · exact hgone rfl h
  · obtain ⟨mu, -, h⟩ := Option.map_eq_some_iff.1 h
    exact hgone rfl (congrArg some h)
  · exact hgone rfl h
  · cases h

/-- What the account of a phase says. -/
theorem account_spec (p : Phase V Exc) :
    p.account.1 ≤ 1 ∧ p.account.2 ≤ p.account.1 ∧
      (p.isEnded = true → p.account.2 = p.account.1) := by
  cases p with
  | leaving exit => cases exit <;> simp [Phase.account, Phase.isEnded]
  | ended ending => cases ending <;> simp [Phase.account, Phase.isEnded]
  | _ => simp [Phase.account, Phase.isEnded]

/-- A refusal happens at a check that finds all permits held and no time left. -/
theorem Inv.refused {s t : System cfg V Exc} (hi : s.Inv) {a : Action V Exc}
    (hstep : s.step a = some t) {i : ℕ} {c d : Call V Exc} (hc : s.calls[i]? = some c)
    (hd : t.calls[i]? = some d) (hbefore : c.phase.refused = false)
    (hafter : d.phase.refused = true) :
    ∃ now deadline, a = .run now ∧ c.phase = .checking deadline ∧
      (s.holders : ℤ) = cfg.maxConcurrent ∧
      (cfg.maxWait = 0 ∨ ∃ began, c.beganAt = some began ∧ cfg.maxWait ≤ now - began) := by
  -- only the call that moves can change its phase
  have hother : ∀ {j c' beganAt r}, t = s.move j c' beganAt r → j ≠ i → False := by
    intro j c' beganAt r ht hne
    rw [ht, System.move, List.getElem?_set_ne hne, hc] at hd
    obtain rfl := Option.some_inj.1 hd
    rw [hbefore] at hafter
    cases hafter
  have hself : ∀ {c' beganAt b p ev}, t = s.move i c' beganAt (b, p, ev) → d.phase = p := by
    intro c' beganAt b p ev ht
    rw [ht, System.move, List.getElem?_set_self (List.getElem?_eq_some_iff.1 hc).1] at hd
    obtain rfl := Option.some_inj.1 hd
    rfl
  generalize ht : t = t' at hstep
  cases step_cases hstep with
  | created =>
      rw [ht, getElem?_append_some hc] at hd
      obtain rfl := Option.some_inj.1 hd
      rw [hbefore] at hafter
      cases hafter
  | ran hcontrol hc' hrun =>
      rename_i j now c' b p ev
      rcases eq_or_ne j i with rfl | hne
      · obtain rfl := Option.some_inj.1 (hc'.symm.trans hc)
        rw [hself ht] at hafter
        obtain ⟨deadline, hphase, hn, hwhy⟩ := run_refused hrun hbefore hafter
        refine ⟨now, deadline, rfl, hphase, ?_, ?_⟩
        · -- the counter is zero, so that all permits are charged, and hence held
          have hcharged := hi.charged_eq_holders fun k e hk he exit hleaving => by
            obtain rfl := Option.some_inj.1 (hk.symm.trans hcontrol)
            obtain rfl := Option.some_inj.1 (he.symm.trans hc)
            rw [hphase] at hleaving
            cases hleaving
          have hcons := hi.conserved
          have hnonneg := hi.guarded.nonneg
          rw [hcharged] at hcons
          omega
        · rcases hwhy with hw | ⟨due, hdue, hle⟩
          · exact Or.inl hw
          · rcases cfg.bounds.2.eq_or_lt with hw | hw
            · exact Or.inl hw.symm
            · obtain ⟨began, hbegan, hd⟩ :=
                (hi.calls c' (List.mem_of_getElem? hc)).deadline deadline (by rw [hphase]; rfl) hw
              obtain rfl := Option.some_inj.1 (hdue.symm.trans hd)
              exact Or.inr ⟨began, hbegan, by linarith⟩
      · exact (hother ht hne).elim
  | resumed hcontrol hc' hresume =>
      rename_i j wakeup c' b p ev
      rcases eq_or_ne j i with rfl | hne
      · rw [hself ht, resume_refused hresume] at hafter
        cases hafter
      · exact (hother ht hne).elim

/-- **The asynchronous bulkhead conserves its permits**, for every accepted configuration and in
every run: any interleaving of calls that time out, are cancelled wherever they are suspended, and
whose factories end in any way. -/
theorem async_permits_conserved (cfg : BulkheadConfig) (name : Option String)
    (s : System cfg V Exc) (hr : (Bulkheads.calls V Exc cfg name).Reachable s) :
    s.Conserves := by
  have hi := inv_of_reachable hr
  have hnonneg := hi.guarded.nonneg
  refine ⟨?_, ?_, ?_, ?_, ?_, fun a t hstep i c d hc hd => hi.refused hstep hc hd⟩
  · intro hfree
    have hcharged := hi.charged_eq_holders fun i c hcontrol hc exit =>
      hi.not_leaving hfree i c hcontrol hc exit
    refine ⟨?_, hi.guarded.wake⟩
    rw [← hcharged]
    exact hi.conserved
  · -- a running factory holds a permit
    have hle : s.factories ≤ s.calls.countP fun c => c.phase.charged := by
      refine List.countP_mono_left fun c _ hrunning => ?_
      cases hphase : c.phase with
      | running => rfl
      | _ =>
          rw [hphase] at hrunning
          cases hrunning
    have hcons := hi.conserved
    omega
  · intro c hc
    have haccount := (hi.calls c hc).account
    obtain ⟨h1, h2, h3⟩ := account_spec c.phase
    rw [← haccount] at h1 h2 h3
    exact ⟨h1, h2, h3⟩
  · intro c hc
    have hsound := (hi.calls c hc).sound
    cases hphase : c.phase with
    | lockBlocked deadline =>
        rw [hphase] at hsound
        cases hsound
    | releaseBlocked outcome =>
        rw [hphase] at hsound
        cases hsound
    | _ => rfl
  · intro i c hc hwaiting hpos
    have hset := hi.guarded.wake.2 hpos
    refine ⟨hset, ?_⟩
    rw [hi.guarded.settled hset]
    exact List.not_mem_nil

/-- One permit and a wait of one second: the first call holds the permit, the second one has waited
for a second and is rejected, and the third one is cancelled while it waits. -/
theorem async_permits_conserved_when_full :
    ∃ s : System ⟨⟨1, 1⟩, by decide⟩ ℕ Builtin,
      (s.calls.map fun c => c.phase) = [.running,
        .ended (.rejected
          ⟨"Bulkhead is full and could not acquire a permit within max_wait", "db", 1⟩),
        .ended .cancelled] ∧ s.Conserves := by
  obtain ⟨s, hr, hs⟩ := Machine.exists_reachable_of_exec
    (Bulkheads.calls ℕ Builtin ⟨⟨1, 1⟩, by decide⟩ (some "db"))
    [.call, .call, .call,
      .resume 0 .started, .run 0, .run 0, .run 0, .run 0,
      .resume 1 .started, .run 0, .run 0, .run (1 / 2), .run (1 / 2), .run (1 / 2),
      .resume 2 .started, .run (3 / 4), .run (3 / 4), .run (3 / 4), .run (3 / 4), .run (3 / 4),
      .resume 1 .timedOut, .run 1, .run 1, .run 1, .run 1,
      .resume 2 .cancelled]
    (fun s => decide ((s.calls.map fun c => c.phase) = [.running,
      .ended (.rejected
        ⟨"Bulkhead is full and could not acquire a permit within max_wait", "db", 1⟩),
      .ended .cancelled]))
    (by decide +kernel)
  exact ⟨s, of_decide_eq_true hs, async_permits_conserved _ (some "db") s hr⟩

end System

end Bulkheads
