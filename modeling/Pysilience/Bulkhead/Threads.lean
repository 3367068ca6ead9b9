/-
The threads of a bulkhead.

Any number of threads call `Bulkhead.execute` and share its semaphore.  A thread that finds no
permit is rejected at once, or waits in the semaphore until a release wakes it up or `max_wait` has
passed; then it looks again.  A release wakes up one waiting thread, but it does not hand over the
permit: whoever looks first takes it.  The permit is given back in a clause `finally`, whatever the
function or a listener raises.

Main definitions:

* `Bulkheads.Sync.Gate` — the semaphore, the threads that wait in it, and those that were woken up;
* `Bulkheads.Sync.Phase`, `Bulkheads.Sync.Call` — where a call of `execute` stands, and a call;
* `Bulkheads.Sync.threads` — the calls, interleaved;
* `Bulkheads.Sync.KeepsWakeups` — no thread is interrupted between being woken up and looking.

Main results:

* `Bulkheads.Sync.Call.advance_cases` — all the next step of a call can do;
* `Bulkheads.Sync.threads_conserve_permits` — **permits are conserved**, at most `max_concurrent`
  functions run, every permit is given back once, and no call is rejected while a permit is free;
* `Bulkheads.Sync.no_wakeup_is_lost` — **a thread sleeps on only while every free permit has a
  thread that was woken up for it**.
-/

import Pysilience.Bulkhead.Execute
import Pysilience.Lib.Threads

set_option relaxedAutoImplicit false
set_option autoImplicit false

namespace Bulkheads.Sync

open Python Threads Transition

variable {Exc Cls V : Type} [Exceptions Exc Cls] {cfg : BulkheadConfig}

/-! ### The semaphore -/

/-- `_sync_sem`: the semaphore, the threads that wait in it, in order, and the threads that a
release has woken up and that have not looked yet. -/
structure Gate where
  sem : Semaphore
  waiters : List ℕ
  woken : List ℕ
  deriving DecidableEq

namespace Gate

/-- The semaphore of a new bulkhead. -/
def new (cfg : BulkheadConfig) : Gate := ⟨Bulkhead.syncSem cfg, [], []⟩

/-- The semaphore after the permit was taken. -/
def take (g : Gate) : Gate := { g with sem := g.sem.acquire.2 }

/-- The thread `i` goes to sleep. -/
def sleep (g : Gate) (i : ℕ) : Gate := { g with waiters := g.waiters ++ [i] }

/-- The thread `i` does not wait any more. -/
def leave (g : Gate) (i : ℕ) : Gate :=
  { g with waiters := g.waiters.erase i, woken := g.woken.erase i }

/-- `release()`, which wakes up the thread that has waited longest. -/
def release (g : Gate) : Gate where
  sem := g.sem.release
  waiters := g.waiters.tail
  woken := g.woken ++ g.waiters.head?.toList

end Gate

/-! ### A call -/

/-- How a call of `execute` ends. -/
inductive Ending (V Exc : Type)
  | returned (value : V)
  | raised (exc : Raised Exc)
  deriving DecidableEq

/-- How a call ends whose function had this outcome. -/
def Ending.ofOutcome : Except Exc V → Ending V Exc
  | .ok value => .returned value
  | .error exc => .raised (.original exc)

/-- Where a call of `execute` stands. -/
inductive Phase (V Exc : Type)
  /-- At `_sync_acquire`. -/
  | entering
  /-- Asleep in the semaphore. -/
  | waiting (endtime : ℚ)
  /-- Rejected, notifying the listeners. -/
  | rejecting (event : BulkheadEvent Exc) (err : BulkheadRejected)
  | running
  /-- Notifying the listeners of what became of the function. -/
  | reporting (event : BulkheadEvent Exc) (outcome : Except Exc V)
  /-- In the clause `finally`. -/
  | releasing (outcome : Except Exc V)
  | ended (ending : Ending V Exc)
  deriving DecidableEq

namespace Phase

/-- The call has a permit. -/
def holding : Phase V Exc → Bool
  | running | reporting _ _ | releasing _ => true
  | _ => false

def isRunning : Phase V Exc → Bool
  | running => true
  | _ => false

/-- The call has no permit yet and may get one. -/
def requesting : Phase V Exc → Bool
  | entering | waiting _ => true
  | _ => false

def isEnded : Phase V Exc → Bool
  | ended _ => true
  | _ => false

/-- The call has been rejected. -/
def refused : Phase V Exc → Bool
  | rejecting _ _ | ended (.raised (.bulkheadRejected _)) => true
  | _ => false

end Phase

/-- A call: how many permits it has taken and given back, when it began, when it was rejected, and
where it stands. -/
structure Call (V Exc : Type) where
  taken : ℕ
  given : ℕ
  beganAt : Option ℚ
  refusedAt : Option ℚ
  phase : Phase V Exc
  deriving DecidableEq

/-- What can happen to a call: it looks for a permit at a reading of the clock, for the first time
or after it has slept; an exception is raised in it while it sleeps; its function ends; it has
notified the listeners, of which one may have raised what is not an `Exception`; or it gives its
permit back. -/
inductive CallEvent (V Exc : Type)
  | acquire (now : ℚ)
  | wake (now : ℚ)
  | interrupted (exc : Exc)
  | finish (outcome : Except Exc V)
  | emitted (escaped : Option Exc)
  | release
  deriving DecidableEq

namespace Call

/-- A call that begins. -/
def new : Call V Exc := ⟨0, 0, none, none, .entering⟩

/-- A call in another phase. -/
def move (c : Call V Exc) (phase : Phase V Exc) : Call V Exc := { c with phase := phase }

/-- A call that has taken a permit. -/
def admitted (c : Call V Exc) : Call V Exc := { c with taken := c.taken + 1, phase := .running }

/-- A call that is rejected at the reading `now`. -/
def refuse (b : Bulkhead cfg) (c : Call V Exc) (now : ℚ) : Call V Exc :=
  { c with
    refusedAt := some now
    phase := .rejecting (b.event .rejected (some (.inr b.reject))) b.reject }

/-- What becomes of a call whose function has ended. -/
def finished (b : Bulkhead cfg) (c : Call V Exc) : Except Exc V → Call V Exc
  | .ok value => c.move (.reporting (b.event .success none) (.ok value))
  | .error exc =>
      if caught exc then c.move (.reporting (b.event .error (some (.inl exc))) (.error exc))
      else c.move (.releasing (.error exc))

/-- The next step of the call of the thread `i`. -/
def advance (b : Bulkhead cfg) (g : Gate) (i : ℕ) (c : Call V Exc) :
    CallEvent V Exc → Option (Gate × Call V Exc)
  | .acquire now =>
      match c.phase with
      | .entering =>
          let c := { c with beganAt := some now }
          if g.sem.acquire.1 then some (g.take, c.admitted)
          else if cfg.maxWait = 0 then some (g, c.refuse b now)
          else some (g.sleep i, c.move (.waiting (now + cfg.maxWait)))
      | _ => none
  | .wake now =>
      match c.phase with
      | .waiting endtime =>
          if i ∈ g.woken ∨ endtime ≤ now then
            let g := g.leave i
            if g.sem.acquire.1 then some (g.take, c.admitted)
            else if endtime ≤ now then some (g, c.refuse b now)
            else some (g.sleep i, c)
          else none
      | _ => none
  | .interrupted exc =>
      match c.phase with
      | .waiting _ => some (g.leave i, c.move (.ended (.raised (.original exc))))
      | _ => none
  | .finish outcome =>
      match c.phase with
      | .running => some (g, c.finished b outcome)
      | _ => none
  | .emitted none =>
      match c.phase with
      | .rejecting _ err => some (g, c.move (.ended (.raised (.bulkheadRejected err))))
      | .reporting _ outcome => some (g, c.move (.releasing outcome))
      | _ => none
  | .emitted (some exc) =>
      -- `notify_listeners` lets through what is not an `Exception`
      if caught exc then none
      else
        match c.phase with
        | .rejecting _ _ => some (g, c.move (.ended (.raised (.original exc))))
        | .reporting _ _ => some (g, c.move (.releasing (.error exc)))
        | _ => none
  | .release =>
      match c.phase with
      | .releasing outcome =>
          some (g.release, { c with given := c.given + 1, phase := .ended (.ofOutcome outcome) })
      | _ => none

end Call

variable (Exc V) in
/-- The threads of a bulkhead, interleaved. -/
def threads (b : Bulkhead cfg) : Team Gate (Call V Exc) Unit (CallEvent V Exc) Empty where
  init := Gate.new cfg
  join g _ := some (g, Call.new)
  advance g i c event := c.advance b g i event
  outside _ x := nomatch x

/-! ### What a call does -/

/-- A permit is taken where one is left. -/
theorem acquire_of_pos {sem : Semaphore} (h : 0 < sem.value) :
    sem.acquire = (true, ⟨sem.value - 1⟩) := if_pos h

theorem acquire_of_nonpos {sem : Semaphore} (h : sem.value ≤ 0) : sem.acquire = (false, sem) :=
  if_neg (not_lt.2 h)

/-- The semaphore after a permit was taken. -/
theorem Gate.take_eq {g : Gate} (h : 0 < g.sem.value) :
    g.take = { g with sem := ⟨g.sem.value - 1⟩ } := by
  rw [Gate.take, acquire_of_pos h]

/-- A call moves on to another phase: it keeps its permit or does not get one any more, and is
rejected only if it has been. -/
structure Phase.MovesOn (p q : Phase V Exc) : Prop where
  holding_eq : q.holding = p.holding
  requesting_eq : q.requesting = false
  refused : q.refused = true → p.refused = true

/-- The cases of a step of a call: it finds a permit, for the first time or after it has slept; it
finds none, and is rejected or sleeps; its sleep is interrupted; it moves on, without using the
semaphore; or it gives its permit back. -/
inductive AdvanceCase (b : Bulkhead cfg) (g : Gate) (i : ℕ) (c : Call V Exc) :
    CallEvent V Exc → Gate → Call V Exc → Prop
  | admitted {now : ℚ} : c.phase = .entering → 0 < g.sem.value →
      AdvanceCase b g i c (.acquire now) g.take { c with beganAt := some now }.admitted
  | refused {now : ℚ} : c.phase = .entering → g.sem.value ≤ 0 → cfg.maxWait = 0 →
      AdvanceCase b g i c (.acquire now) g ({ c with beganAt := some now }.refuse b now)
  | slept {now : ℚ} : c.phase = .entering → g.sem.value ≤ 0 → cfg.maxWait ≠ 0 →
      AdvanceCase b g i c (.acquire now) (g.sleep i)
        ({ c with beganAt := some now }.move (.waiting (now + cfg.maxWait)))
  | woken {now endtime : ℚ} : c.phase = .waiting endtime → 0 < g.sem.value →
      i ∈ g.woken ∨ endtime ≤ now → AdvanceCase b g i c (.wake now) (g.leave i).take c.admitted
  | timedOut {now endtime : ℚ} : c.phase = .waiting endtime → g.sem.value ≤ 0 → endtime ≤ now →
      AdvanceCase b g i c (.wake now) (g.leave i) (c.refuse b now)
  | sleptOn {now endtime : ℚ} : c.phase = .waiting endtime → g.sem.value ≤ 0 → i ∈ g.woken →
      AdvanceCase b g i c (.wake now) ((g.leave i).sleep i) c
  | interrupted {exc : Exc} {endtime : ℚ} : c.phase = .waiting endtime →
      AdvanceCase b g i c (.interrupted exc) (g.leave i)
        (c.move (.ended (.raised (.original exc))))
  | moved {event : CallEvent V Exc} {phase : Phase V Exc} : c.phase.MovesOn phase →
      AdvanceCase b g i c event g (c.move phase)
  | released {outcome : Except Exc V} : c.phase = .releasing outcome →
      AdvanceCase b g i c .release g.release
        { c with given := c.given + 1, phase := .ended (.ofOutcome outcome) }

variable {b : Bulkhead cfg} {g g' : Gate} {i : ℕ} {c c' : Call V Exc} {event : CallEvent V Exc}

/-- **All the next step of a call can do.** -/
theorem Call.advance_cases (ha : c.advance b g i event = some (g', c')) :
    AdvanceCase b g i c event g' c' := by
  cases event with
  | acquire now =>
      simp only [Call.advance] at ha
      split at ha
      · next hphase =>
        rcases lt_or_ge 0 g.sem.value with hpos | hzero
        · simp only [acquire_of_pos hpos, if_true] at ha
          cases ha
          exact .admitted hphase hpos
        · simp only [acquire_of_nonpos hzero, Bool.false_eq_true, if_false] at ha
          split at ha
          · next hwait =>
            cases ha
            exact .refused hphase hzero hwait
          · next hwait =>
            cases ha
            exact .slept hphase hzero hwait
      · cases ha
  | wake now =>
      simp only [Call.advance] at ha
      split at ha
      · next endtime hphase =>
        split at ha
        · next hawake =>
          rcases lt_or_ge 0 g.sem.value with hpos | hzero
          · have hpos' : 0 < (g.leave i).sem.value := hpos
            simp only [acquire_of_pos hpos', if_true] at ha
            cases ha
            exact .woken hphase hpos hawake
          · have hzero' : (g.leave i).sem.value ≤ 0 := hzero
            simp only [acquire_of_nonpos hzero', Bool.false_eq_true, if_false] at ha
            split at ha
            · next hdue =>
              cases ha
              exact .timedOut hphase hzero hdue
            · next hdue =>
              cases ha
              exact .sleptOn hphase hzero (hawake.resolve_right hdue)
        · cases ha
      · cases ha
  | interrupted exc =>
      simp only [Call.advance] at ha
      split at ha
      · next endtime hphase =>
        cases ha
        exact .interrupted hphase
      · cases ha
  | finish outcome =>
      simp only [Call.advance] at ha
      split at ha
      · next hphase =>
        cases ha
        unfold Call.finished
        split
        · exact .moved (hphase ▸ ⟨rfl, rfl, nofun⟩)
        · split
          · exact .moved (hphase ▸ ⟨rfl, rfl, nofun⟩)
          · exact .moved (hphase ▸ ⟨rfl, rfl, nofun⟩)
      · cases ha
  | emitted escaped =>
      cases escaped with
      | none =>
          simp only [Call.advance] at ha
          split at ha
          · next hphase =>
            cases ha
            exact .moved (hphase ▸ ⟨rfl, rfl, fun _ => rfl⟩)
          · next hphase =>
            cases ha
            exact .moved (hphase ▸ ⟨rfl, rfl, nofun⟩)
          · cases ha
      | some exc =>
          simp only [Call.advance] at ha
          split at ha
          · cases ha
          · split at ha
            · next hphase =>
              cases ha
              exact .moved (hphase ▸ ⟨rfl, rfl, nofun⟩)
            · next hphase =>
              cases ha
              exact .moved (hphase ▸ ⟨rfl, rfl, nofun⟩)
            · cases ha
  | release =>
      simp only [Call.advance] at ha
      split at ha
      · next outcome hphase =>
        cases ha
        exact .released hphase
      · cases ha

/-- The steps of the calls are those of the machine. -/
theorem threads_cases (ha : (threads Exc V b).advance g i c event = some (g', c')) :
    AdvanceCase b g i c event g' c' :=
  Call.advance_cases ha

/-! ### Permits are conserved -/

/-- What a call has done with its permit, and why it waits or was rejected. -/
structure CallOk (cfg : BulkheadConfig) (g : Gate) (i : ℕ) (c : Call V Exc) : Prop where
  account : c.taken = c.given + c.phase.holding.toNat
  taken_le : c.taken ≤ 1
  untaken : c.phase.requesting = true → c.taken = 0
  waiting : ∀ endtime, c.phase = .waiting endtime → (i ∈ g.waiters ∨ i ∈ g.woken) ∧
    0 < cfg.maxWait ∧ ∃ t, c.beganAt = some t ∧ endtime = t + cfg.maxWait
  refused : c.phase.refused = true → c.taken = 0 ∧
    (cfg.maxWait = 0 ∨ ∃ t u, c.beganAt = some t ∧ c.refusedAt = some u ∧ t + cfg.maxWait ≤ u)

theorem callOk_new (cfg : BulkheadConfig) (g : Gate) (i : ℕ) :
    CallOk cfg g i (Call.new : Call V Exc) :=
  ⟨rfl, Nat.zero_le _, fun _ => rfl, nofun, nofun⟩

/-- A call is left alone while it stays where it waits. -/
theorem CallOk.of_mem (h : CallOk cfg g i c)
    (hmem : i ∈ g.waiters ∨ i ∈ g.woken → i ∈ g'.waiters ∨ i ∈ g'.woken) : CallOk cfg g' i c :=
  { h with waiting := fun endtime hphase => (h.waiting endtime hphase).imp_left hmem }

/-- A thread that leaves the semaphore leaves the others there. -/
theorem mem_leave {j : ℕ} (hne : j ≠ i) (hj : j ∈ g.waiters ∨ j ∈ g.woken) :
    j ∈ (g.leave i).waiters ∨ j ∈ (g.leave i).woken :=
  hj.imp (List.mem_erase_of_ne hne).2 (List.mem_erase_of_ne hne).2

/-- A thread that goes to sleep leaves the others there. -/
theorem mem_sleep {j : ℕ} (hj : j ∈ g.waiters ∨ j ∈ g.woken) :
    j ∈ (g.sleep i).waiters ∨ j ∈ (g.sleep i).woken :=
  hj.imp_left fun h => List.mem_append_left _ h

/-- A release wakes a thread up, and leaves the others there. -/
theorem mem_release {j : ℕ} (hj : j ∈ g.waiters ∨ j ∈ g.woken) :
    j ∈ g.release.waiters ∨ j ∈ g.release.woken := by
  rcases hj with hj | hj
  · unfold Gate.release
    cases hw : g.waiters with
    | nil => exact absurd (hw ▸ hj) List.not_mem_nil
    | cons w ws =>
        rcases List.mem_cons.1 (hw ▸ hj) with rfl | hj
        · exact Or.inr (by simp)
        · exact Or.inl hj
  · exact Or.inr (List.mem_append_left _ hj)

/-- The step of a thread leaves the others where they wait. -/
theorem AdvanceCase.mem (ha : AdvanceCase b g i c event g' c') {j : ℕ} (hne : j ≠ i)
    (hj : j ∈ g.waiters ∨ j ∈ g.woken) : j ∈ g'.waiters ∨ j ∈ g'.woken := by
  cases ha with
  | admitted _ _ => exact hj
  | refused _ _ _ => exact hj
  | slept _ _ _ => exact mem_sleep hj
  | woken _ _ _ => exact mem_leave hne hj
  | timedOut _ _ _ => exact mem_leave hne hj
  | sleptOn _ _ _ => exact mem_sleep (mem_leave hne hj)
  | interrupted _ => exact mem_leave hne hj
  | moved _ => exact hj
  | released _ => exact mem_release hj

/-- A call that is rejected has waited for as long as it may. -/
theorem CallOk.refuse (h : CallOk cfg g i c) (hrequesting : c.phase.requesting = true) {now : ℚ}
    (hwaited : cfg.maxWait = 0 ∨ ∃ t, c.beganAt = some t ∧ t + cfg.maxWait ≤ now) :
    CallOk cfg g' i (c.refuse b now) := by
  have huntaken := h.untaken hrequesting
  have haccount := h.account
  refine ⟨?_, h.taken_le, nofun, nofun, fun _ => ⟨huntaken, hwaited.imp_right ?_⟩⟩
  · simp only [Call.refuse, Phase.holding, Bool.toNat_false]
    omega
  · rintro ⟨t, hbegan, hle⟩
    exact ⟨t, now, hbegan, rfl, hle⟩

/-- A call that takes a permit has had none. -/
theorem CallOk.admitted (h : CallOk cfg g i c) (hrequesting : c.phase.requesting = true) :
    CallOk cfg g' i c.admitted := by
  have huntaken := h.untaken hrequesting
  have haccount := h.account
  refine ⟨?_, ?_, nofun, nofun, nofun⟩
  · simp only [Call.admitted, Phase.holding, Bool.toNat_true]
    omega
  · simp only [Call.admitted]
    omega

/-- **Every step of a call keeps its record right.** -/
theorem AdvanceCase.callOk (ha : AdvanceCase b g i c event g' c') (h : CallOk cfg g i c) :
    CallOk cfg g' i c' := by
  cases ha with
  | @admitted now hphase _ =>
      have hrequesting : c.phase.requesting = true := hphase ▸ rfl
      have hbegan : CallOk cfg g i { c with beganAt := some now } :=
        ⟨h.account, h.taken_le, h.untaken, by simp [hphase], by simp [hphase, Phase.refused]⟩
      exact hbegan.admitted hrequesting
  | @refused now hphase _ hwait =>
      have hrequesting : c.phase.requesting = true := hphase ▸ rfl
      have hbegan : CallOk cfg g i { c with beganAt := some now } :=
        ⟨h.account, h.taken_le, h.untaken, by simp [hphase], by simp [hphase, Phase.refused]⟩
      exact hbegan.refuse hrequesting (Or.inl hwait)
  | @slept now hphase _ hwait =>
      have huntaken := h.untaken (hphase ▸ rfl)
      have hpos : 0 < cfg.maxWait := lt_of_le_of_ne cfg.bounds.2 (Ne.symm hwait)
      refine ⟨?_, h.taken_le, fun _ => huntaken, fun endtime hendtime => ?_, nofun⟩
      · have haccount := h.account
        rw [hphase] at haccount
        exact haccount
      · cases hendtime
        exact ⟨Or.inl (by simp [Gate.sleep]), hpos, now, rfl, rfl⟩
  | woken hphase _ _ => exact h.admitted (hphase ▸ rfl)
  | timedOut hphase _ hdue =>
      obtain ⟨_, _, t, hbegan, rfl⟩ := h.waiting _ hphase
      exact h.refuse (hphase ▸ rfl) (Or.inr ⟨t, hbegan, hdue⟩)
  | sleptOn hphase _ _ => exact h.of_mem fun _ => Or.inl (by simp [Gate.sleep])
  | interrupted hphase =>
      refine ⟨?_, h.taken_le, nofun, nofun, nofun⟩
      simpa only [Call.move, hphase, Phase.holding] using h.account
  | moved hmoves =>
      refine ⟨?_, h.taken_le, fun hrequesting => ?_, fun endtime hphase => ?_, fun hrefused => ?_⟩
      · simpa only [Call.move, hmoves.holding_eq] using h.account
      · exact absurd (hmoves.requesting_eq.symm.trans hrequesting) Bool.false_ne_true
      · have hrequesting := congrArg Phase.requesting hphase
        exact absurd (hmoves.requesting_eq.symm.trans hrequesting) Bool.false_ne_true
      · exact h.refused (hmoves.refused hrefused)
  | @released outcome hphase =>
      have haccount := h.account
      simp only [hphase, Phase.holding, Bool.toNat_true] at haccount
      refine ⟨haccount, h.taken_le, nofun, nofun, ?_⟩
      cases outcome <;> nofun

/-- There are never less than no permits. -/
theorem AdvanceCase.nonneg (ha : AdvanceCase b g i c event g' c') (h : 0 ≤ g.sem.value) :
    0 ≤ g'.sem.value := by
  cases ha with
  | admitted _ hpos =>
      rw [Gate.take_eq hpos]
      exact Int.sub_nonneg_of_le hpos
  | woken _ hpos _ =>
      have hpos' : 0 < (g.leave i).sem.value := hpos
      rw [Gate.take_eq hpos']
      exact Int.sub_nonneg_of_le hpos
  | released _ => exact Int.le_add_one h
  | _ => exact h

variable (Exc V) in
/-- The records of all calls are right, whatever happens. -/
theorem callOk_annotated (b : Bulkhead cfg) :
    (threads Exc V b).Annotated Machine.anything (fun g => 0 ≤ g.sem.value) (CallOk cfg) where
  init := zero_le_one.trans cfg.bounds.1
  join {st _ _ _} _ hg hjoin := by
    cases hjoin
    exact ⟨hg, callOk_new cfg _ _, fun _ _ _ hq => hq⟩
  advance _ hg _ hc hadvance := by
    have ha := threads_cases hadvance
    exact ⟨ha.nonneg hg, ha.callOk hc, fun j q hne _ hq => hq.of_mem (ha.mem hne)⟩
  outside {_ x _} _ _ _ := nomatch x

/-- The permits that are missing, and the permit a call has. -/
theorem AdvanceCase.balanced (ha : AdvanceCase b g i c event g' c') :
    cfg.maxConcurrent - g'.sem.value + (c.phase.holding.toNat : ℤ) =
      cfg.maxConcurrent - g.sem.value + (c'.phase.holding.toNat : ℤ) := by
  cases ha with
  | admitted hphase hpos =>
      rw [hphase, Gate.take_eq hpos]
      simp only [Call.admitted, Phase.holding, Bool.toNat_true, Bool.toNat_false]
      omega
  | refused hphase _ _ => simp only [hphase, Call.refuse, Phase.holding]
  | slept hphase _ _ => simp only [hphase, Call.move, Phase.holding, Gate.sleep]
  | woken hphase hpos _ =>
      have hpos' : 0 < (g.leave i).sem.value := hpos
      rw [hphase, Gate.take_eq hpos']
      simp only [Call.admitted, Phase.holding, Gate.leave, Bool.toNat_true, Bool.toNat_false]
      omega
  | timedOut hphase _ _ => simp only [hphase, Call.refuse, Phase.holding, Gate.leave]
  | sleptOn hphase _ _ => rfl
  | interrupted hphase => simp only [hphase, Call.move, Phase.holding, Gate.leave]
  | moved hmoves => simp only [Call.move, hmoves.holding_eq]
  | released hphase =>
      simp only [hphase, Phase.holding, Gate.release, Semaphore.release, Bool.toNat_true,
        Bool.toNat_false]
      omega

variable (Exc V) in
/-- The permits that are missing are those that the calls have. -/
theorem permits_balanced (b : Bulkhead cfg) :
    (threads Exc V b).Balanced Machine.anything (fun g => cfg.maxConcurrent - g.sem.value)
      fun c => (c.phase.holding.toNat : ℤ) where
  init := sub_self _
  join _ hjoin := by
    cases hjoin
    exact (add_zero _).symm
  advance _ _ hadvance := (threads_cases hadvance).balanced
  outside {_ x _} _ _ := nomatch x

/-- Counting the calls that have a permit. -/
theorem sum_holding (l : List (Call V Exc)) :
    (l.map fun c => (c.phase.holding.toNat : ℤ)).sum = l.countP fun c => c.phase.holding := by
  induction l with
  | nil => rfl
  | cons c l ih =>
      rw [List.map_cons, List.sum_cons, ih, List.countP_cons]
      cases c.phase.holding <;> simp [add_comm]

variable {st st' : Threads.State Gate (Call V Exc)}

/-- The permits that are left and those that the calls have are all the permits. -/
theorem value_add_holding (hr : (threads Exc V b).machine.Reachable st) :
    st.shared.sem.value + st.parties.countP (fun c => c.phase.holding) = cfg.maxConcurrent := by
  obtain ⟨as, hrun⟩ := hr
  have hbalance := (permits_balanced Exc V b).run hrun
  rw [sum_holding] at hbalance
  omega

/-- A call that a step rejects found no permit. -/
theorem AdvanceCase.value_of_refused (ha : AdvanceCase b g i c event g' c')
    (hbefore : c.phase.refused = false) (hafter : c'.phase.refused = true) : g.sem.value ≤ 0 := by
  cases ha with
  | refused _ hzero _ => exact hzero
  | timedOut _ hzero _ => exact hzero
  | moved hmoves => exact absurd (hbefore.symm.trans (hmoves.refused hafter)) Bool.false_ne_true
  | @released outcome _ => cases outcome <;> cases hafter
  | admitted _ _ => cases hafter
  | slept _ _ _ => cases hafter
  | woken _ _ _ => cases hafter
  | sleptOn _ _ _ => exact absurd (hbefore.symm.trans hafter) Bool.false_ne_true
  | interrupted _ => cases hafter

/-- **Threads conserve the permits of a bulkhead.**  However the calls of any number of threads
interleave, whatever their functions and listeners raise, and wherever a sleep is interrupted: the
permits that are left and the calls that have one add up to `max_concurrent`, so that no more
functions run at any time; a call takes one permit at most, and has given it back when it ends; a
call that is rejected has taken none and has waited for `max_wait`, and when it is rejected all
permits are taken. -/
theorem threads_conserve_permits (b : Bulkhead cfg) (st : Threads.State Gate (Call V Exc))
    (hr : (threads Exc V b).machine.Reachable st) :
    0 ≤ st.shared.sem.value ∧
    st.shared.sem.value + st.parties.countP (fun c => c.phase.holding) = cfg.maxConcurrent ∧
    (st.parties.countP (fun c => c.phase.isRunning) : ℤ) ≤ cfg.maxConcurrent ∧
    (∀ c ∈ st.parties, c.taken ≤ 1 ∧ (c.phase.isEnded = true → c.given = c.taken) ∧
      (c.phase.refused = true → c.taken = 0 ∧ (cfg.maxWait = 0 ∨
        ∃ t u, c.beganAt = some t ∧ c.refusedAt = some u ∧ t + cfg.maxWait ≤ u))) ∧
    ∀ i event st' c c', (threads Exc V b).machine.step st (.advance i event) = some st' →
      st.parties[i]? = some c → st'.parties[i]? = some c' →
      c.phase.refused = false → c'.phase.refused = true →
      (st.parties.countP (fun c => c.phase.holding) : ℤ) = cfg.maxConcurrent := by
  have hvalue := value_add_holding hr
  obtain ⟨as, hrun⟩ := hr
  obtain ⟨hnonneg, hcalls⟩ := (callOk_annotated Exc V b).run hrun
  have hrunning : st.parties.countP (fun c => c.phase.isRunning) ≤
      st.parties.countP (fun c => c.phase.holding) := by
    refine List.countP_mono_left fun c _ hc => ?_
    cases hphase : c.phase <;> simp_all [Phase.isRunning, Phase.holding]
  refine ⟨hnonneg, hvalue, by omega, fun c hc => ?_, ?_⟩
  · obtain ⟨i, hi⟩ := List.mem_iff_getElem?.1 hc
    have hok := hcalls i c hi
    refine ⟨hok.taken_le, fun hended => ?_, hok.refused⟩
    have haccount := hok.account
    cases hphase : c.phase <;> simp_all [Phase.isEnded, Phase.holding]
  · intro i event st' c c' hstep hc hc' hbefore hafter
    cases Team.step_cases hstep with
    | @advance _ _ p p' g' hp hadvance =>
        obtain rfl : p = c := Option.some_inj.1 (hp.symm.trans hc)
        rw [List.getElem?_set_self (List.getElem?_eq_some_iff.1 hp).1, Option.some_inj] at hc'
        subst hc'
        have hzero := (threads_cases hadvance).value_of_refused hbefore hafter
        omega

/-- One permit, and no waiting.  A second call is rejected while the first one has the permit; the
first one gives it back although its function is interrupted. -/
theorem threads_conserve_permits_interrupted :
    let cfg : BulkheadConfig := { maxConcurrent := 1, accepted := by decide +kernel }
    let b := Bulkhead.init cfg none
    ∃ st : Threads.State Gate (Call ℕ Builtin),
      (st.parties.map fun c => c.phase) = [.ended (.raised (.original .keyboardInterrupt)),
        .ended (.raised (.bulkheadRejected b.reject))] ∧
      0 ≤ st.shared.sem.value ∧
      st.shared.sem.value + st.parties.countP (fun c => c.phase.holding) = cfg.maxConcurrent ∧
      (st.parties.countP (fun c => c.phase.isRunning) : ℤ) ≤ cfg.maxConcurrent ∧
      (∀ c ∈ st.parties, c.taken ≤ 1 ∧ (c.phase.isEnded = true → c.given = c.taken) ∧
        (c.phase.refused = true → c.taken = 0 ∧ (cfg.maxWait = 0 ∨
          ∃ t u, c.beganAt = some t ∧ c.refusedAt = some u ∧ t + cfg.maxWait ≤ u))) ∧
      ∀ i event st' c c', (threads Builtin ℕ b).machine.step st (.advance i event) = some st' →
        st.parties[i]? = some c → st'.parties[i]? = some c' →
        c.phase.refused = false → c'.phase.refused = true →
        (st.parties.countP (fun c => c.phase.holding) : ℤ) = cfg.maxConcurrent := by
  intro cfg b
  obtain ⟨st, hr, hst⟩ := Machine.exists_reachable_of_exec (threads Builtin ℕ b).machine
    [.join (), .join (), .advance 0 (.acquire 0), .advance 1 (.acquire 0),
      .advance 0 (.finish (.error .keyboardInterrupt)), .advance 1 (.emitted none),
      .advance 0 .release]
    (fun st => decide ((st.parties.map fun c => c.phase) =
      [.ended (.raised (.original .keyboardInterrupt)),
        .ended (.raised (.bulkheadRejected b.reject))])) (by decide +kernel)
  exact ⟨st, of_decide_eq_true hst, threads_conserve_permits b st hr⟩

/-! ### No wake-up is lost -/

/-- No thread is interrupted between being woken up and looking for a permit. -/
def KeepsWakeups (st : Threads.State Gate (Call V Exc)) :
    Threads.Action Unit (CallEvent V Exc) Empty → Prop
  | .advance i (.interrupted _) => i ∉ st.shared.woken
  | _ => True

instance (st : Threads.State Gate (Call V Exc)) :
    (a : Threads.Action Unit (CallEvent V Exc) Empty) → Decidable (KeepsWakeups st a)
  | .advance i (.interrupted _) => inferInstanceAs (Decidable (i ∉ st.shared.woken))
  | .advance _ (.acquire _) | .advance _ (.wake _) | .advance _ (.finish _)
  | .advance _ (.emitted _) | .advance _ .release | .join _ | .outside _ => isTrue trivial

/-- Where threads sleep, every free permit has a thread that was woken up for it. -/
def Gate.Covered (g : Gate) : Prop := g.waiters = [] ∨ g.sem.value ≤ g.woken.length

/-- A thread that is woken up at most takes one permit with it. -/
theorem length_woken_leave (g : Gate) (i : ℕ) :
    g.woken.length ≤ (g.leave i).woken.length + 1 := by
  simp only [Gate.leave, List.length_erase]
  split <;> omega

theorem Gate.waiters_leave (h : g.waiters = []) (i : ℕ) : (g.leave i).waiters = [] := by
  rw [Gate.leave, h]
  rfl

/-- **Every step keeps the free permits covered.** -/
theorem AdvanceCase.covered (ha : AdvanceCase b g i c event g' c') (h : g.Covered)
    (hkeeps : ∀ exc, event = .interrupted exc → i ∉ g.woken) : g'.Covered := by
  cases ha with
  | admitted _ hpos =>
      rw [Gate.take_eq hpos]
      exact h.imp_right fun hle => (Int.sub_le_self _ zero_le_one).trans hle
  | refused _ _ _ => exact h
  | slept _ hzero _ => exact Or.inr (hzero.trans (Int.natCast_nonneg _))
  | woken _ hpos _ =>
      have hpos' : 0 < (g.leave i).sem.value := hpos
      rw [Gate.take_eq hpos']
      refine h.imp (fun hnone => Gate.waiters_leave hnone i) fun hle => ?_
      have hlen := length_woken_leave g i
      simp only [Gate.leave] at hlen ⊢
      omega
  | timedOut _ hzero _ => exact Or.inr (hzero.trans (Int.natCast_nonneg _))
  | sleptOn _ hzero _ => exact Or.inr (hzero.trans (Int.natCast_nonneg _))
  | interrupted _ =>
      refine h.imp (fun hnone => Gate.waiters_leave hnone i) fun hle => ?_
      rwa [Gate.leave, List.erase_of_not_mem (hkeeps _ rfl)]
  | moved _ => exact h
  | released _ =>
      cases hw : g.waiters with
      | nil => exact Or.inl (by rw [Gate.release, hw]; rfl)
      | cons w ws =>
          refine Or.inr ?_
          have hle := h.resolve_left (by rw [hw]; exact List.cons_ne_nil w ws)
          simp only [Gate.release, Semaphore.release, hw, List.head?_cons, Option.toList_some,
            List.length_append, List.length_singleton]
          omega

variable (Exc V) in
theorem covered_annotated (b : Bulkhead cfg) :
    (threads Exc V b).Annotated KeepsWakeups Gate.Covered fun _ _ _ => True where
  init := Or.inl rfl
  join _ hg hjoin := by
    cases hjoin
    exact ⟨hg, trivial, fun _ _ _ _ => trivial⟩
  advance {_ i _ _ _ _} hok hg _ _ hadvance := by
    refine ⟨(threads_cases hadvance).covered hg ?_, trivial, fun _ _ _ _ _ => trivial⟩
    rintro exc rfl
    exact hok
  outside {_ x _} _ _ _ := nomatch x

/-- **No wake-up is lost.**  In every interleaving in which no thread is interrupted between being
woken up and looking for a permit: a thread that waits is asleep or has been woken up; while any
thread is asleep, there are no more free permits than threads that were woken up for them; and once
all of these have looked, threads wait only while all permits are taken. -/
theorem no_wakeup_is_lost (as : List (Threads.Action Unit (CallEvent V Exc) Empty))
    (st : Threads.State Gate (Call V Exc)) (hr : (threads Exc V b).machine.Run KeepsWakeups as st) :
    (∀ i c endtime, st.parties[i]? = some c → c.phase = .waiting endtime →
      i ∈ st.shared.waiters ∨ i ∈ st.shared.woken) ∧
    (st.shared.waiters ≠ [] → st.shared.sem.value ≤ st.shared.woken.length) ∧
    (st.shared.woken = [] → (∃ c ∈ st.parties, ∃ endtime, c.phase = .waiting endtime) →
      (st.parties.countP (fun c => c.phase.holding) : ℤ) = cfg.maxConcurrent) := by
  have hcovered := ((covered_annotated Exc V b).run hr).1
  obtain ⟨hnonneg, hcalls⟩ := (callOk_annotated Exc V b).run (hr.mono fun _ _ _ => trivial)
  have hvalue := value_add_holding hr.reachable
  have hwaits : ∀ i c endtime, st.parties[i]? = some c → c.phase = .waiting endtime →
      i ∈ st.shared.waiters ∨ i ∈ st.shared.woken :=
    fun i c endtime hi hphase => ((hcalls i c hi).waiting endtime hphase).1
  refine ⟨hwaits, fun hsleep => hcovered.resolve_left hsleep, fun hlooked hwait => ?_⟩
  obtain ⟨c, hc, endtime, hphase⟩ := hwait
  obtain ⟨i, hi⟩ := List.mem_iff_getElem?.1 hc
  have hasleep := hwaits i c endtime hi hphase
  rw [hlooked] at hasleep
  have hle := hcovered.resolve_left (List.ne_nil_of_mem (hasleep.resolve_right List.not_mem_nil))
  rw [hlooked, List.length_nil] at hle
  omega

/-- One permit, and three calls that may wait for ten seconds.  The first one gives the permit back
and wakes up the second one; the third one is faster, and the second one sleeps on. -/
theorem no_wakeup_is_lost_overtaken :
    let cfg : BulkheadConfig := { maxConcurrent := 1, maxWait := 10, accepted := by decide +kernel }
    ∃ st : Threads.State Gate (Call ℕ Builtin),
      (st.shared = ⟨⟨0⟩, [1], []⟩ ∧ (st.parties.map fun c => c.phase) =
        [.ended (.returned 7), .waiting 11, .running]) ∧
      (∀ i c endtime, st.parties[i]? = some c → c.phase = .waiting endtime →
        i ∈ st.shared.waiters ∨ i ∈ st.shared.woken) ∧
      (st.shared.waiters ≠ [] → st.shared.sem.value ≤ st.shared.woken.length) ∧
      (st.shared.woken = [] → (∃ c ∈ st.parties, ∃ endtime, c.phase = .waiting endtime) →
        (st.parties.countP (fun c => c.phase.holding) : ℤ) = cfg.maxConcurrent) := by
  intro cfg
  obtain ⟨st, hr, hst⟩ := Machine.exists_run_of_exec
    (threads Builtin ℕ (Bulkhead.init cfg none)).machine
    (fun st a => decide (KeepsWakeups st a)) (fun _ _ h => of_decide_eq_true h)
    [.join (), .advance 0 (.acquire 0), .join (), .advance 1 (.acquire 1),
      .advance 0 (.finish (.ok 7)), .advance 0 (.emitted none), .advance 0 .release, .join (),
      .advance 2 (.acquire 2), .advance 1 (.wake 3)]
    (fun st => decide (st.shared = ⟨⟨0⟩, [1], []⟩ ∧ (st.parties.map fun c => c.phase) =
      [.ended (.returned 7), .waiting 11, .running])) (by decide +kernel)
  exact ⟨st, of_decide_eq_true hst, no_wakeup_is_lost _ st hr⟩

end Bulkheads.Sync
