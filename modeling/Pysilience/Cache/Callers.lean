/-
The callers of a cache, interleaved.

Any number of threads and coroutines call one cache, with any keys, and anybody may invalidate a
key or all keys at any time.  The machine `callers` interleaves the steps of the calls, the
invalidations, and the drift of the backend arbitrarily.  Every call runs once; its name is never
used again.

Next to the cache and the calls the machine keeps a log of the function invocations, the values
handed to the backend, and the invalidations that returned, which no call reads.  A call knows how
long the log was when it began.

Main definitions:

* `Caching.Call`, `Caching.Entry`, `Caching.System` — a call, an entry of the log, and the state of
  the machine;
* `Caching.Action`, `Caching.System.step`, `Caching.callers` — the machine.

Main results:

* `Caching.System.step_cases` — every step begins a call, advances one, or changes the backend only;
* `Caching.System.call_cases` — where a call in the state after a step comes from;
* `Caching.System.kept_or_advanced` — a call that neither begins nor wakes up is as before, or has
  made the step.
-/

import Pysilience.Cache.Calls
import Pysilience.Lib.Transition

set_option relaxedAutoImplicit false
set_option autoImplicit false

namespace Caching

open Python Transition

universe u v w x y z t

variable {T : Type t} {K : Type u} {V : Type v} {Exc : Type w} {B : Type x} {D : Type y}

/-- Whether a call is one of `execute`, by a thread, or of `execute_async`, by a coroutine. -/
inductive Path
  | sync | async
  deriving DecidableEq, Repr

/-- A call: its key, its path, the length of the log when it began, and its phase. -/
structure Call (K : Type u) (V : Type v) (Exc : Type w) where
  key : K
  path : Path
  startedAt : ℕ
  phase : Phase V Exc

/-- An entry of the log. -/
inductive Entry (T : Type t) (K : Type u) (V : Type v)
  /-- A step of the call `caller` with the key `key`. -/
  | call (caller : T) (key : K) (note : Note V)
  /-- An invalidation of one key, or of all keys, returned. -/
  | invalidated (key : Option K)
  deriving DecidableEq

/-- The state of the machine: the cache, the calls so far, and the log. -/
structure System (T : Type t) (K : Type u) (V : Type v) (Exc : Type w) (B : Type x) where
  state : CacheState K B
  calls : T → Option (Call K V Exc)
  log : List (Entry T K V)

/-- What can happen: a call begins, an event of a call in progress, an invalidation, or the backend
drifts. -/
inductive Action (T : Type t) (K : Type u) (V : Type v) (Exc : Type w) (D : Type y)
  | execute (caller : T) (key : K)
  | executeAsync (caller : T) (key : K)
  | advance (caller : T) (event : CallEvent V Exc)
  | invalidate (key : K)
  | invalidateAll
  | drift (d : D)

/-- A notified thread competes for the lock again. -/
def Call.wake (c : Call K V Exc) : Call K V Exc :=
  match c.phase with
  | .blocked => { c with phase := .checking }
  | _ => c

/-- `notify_all`. -/
def notifyAll (calls : T → Option (Call K V Exc)) : T → Option (Call K V Exc) :=
  fun caller => (calls caller).map Call.wake

/-- What an invalidation leaves in the log, if it returned. -/
def invalidationEntries {R : Type z} (key : Option K) : Except Exc R → List (Entry T K V)
  | .ok _ => [.invalidated key]
  | .error _ => []

/-- The phase in which a call of `execute_async` begins. -/
def Cache.firstPhase (cache : Cache K V Exc B D) : Phase V Exc :=
  if cache.isMemory then .asyncChecking else .getting

theorem Cache.firstPhase_cases (cache : Cache K V Exc B D) :
    cache.firstPhase = .asyncChecking ∨ cache.firstPhase = .getting := by
  unfold Cache.firstPhase
  split
  · exact .inl rfl
  · exact .inr rfl

namespace System

/-- A cache on a backend in the given state, before the first call. -/
def init (backend : B) : System T K V Exc B := ⟨CacheState.init backend, fun _ => none, []⟩

/-- Another state of the backend, and more entries in the log. -/
def withBackend (s : System T K V Exc B) (backend : B) (entries : List (Entry T K V)) :
    System T K V Exc B :=
  { s with state := { s.state with backend := backend }, log := s.log ++ entries }

variable [DecidableEq T]

/-- A call begins. -/
def begin (s : System T K V Exc B) (caller : T) (key : K) (path : Path) (phase : Phase V Exc) :
    System T K V Exc B :=
  { s with calls := Function.update s.calls caller (some ⟨key, path, s.log.length, phase⟩) }

/-- The call `c` has made a step. -/
def moved (s : System T K V Exc B) (caller : T) (c : Call K V Exc) (m : Moved K V Exc B) :
    System T K V Exc B where
  state := m.state
  calls := Function.update (if m.notify then notifyAll s.calls else s.calls) caller
    (some { c with phase := m.phase })
  log := s.log ++ m.notes.map (.call caller c.key)

variable [DecidableEq K] {Cls : Type z} [Exceptions Exc Cls]

/-- One step. -/
def step (cache : Cache K V Exc B D) (s : System T K V Exc B) :
    Action T K V Exc D → Option (System T K V Exc B)
  | .execute caller key =>
      if (s.calls caller).isSome then none else some (s.begin caller key .sync .checking)
  | .executeAsync caller key =>
      if (s.calls caller).isSome then none
      else some (s.begin caller key .async cache.firstPhase)
  | .advance caller event =>
      match s.calls caller with
      | none => none
      | some c => (cache.advance s.state c.key c.phase event).map (s.moved caller c)
  | .invalidate key =>
      let (result, backend) := cache.ops.delete s.state.backend key
      some (s.withBackend backend (invalidationEntries (some key) result))
  | .invalidateAll =>
      let (result, backend) := cache.ops.clear s.state.backend
      some (s.withBackend backend (invalidationEntries none result))
  | .drift d => some (s.withBackend (cache.ops.drift d s.state.backend) [])

/-- The cases of a step. -/
inductive StepCase (cache : Cache K V Exc B D) (s : System T K V Exc B) :
    Action T K V Exc D → System T K V Exc B → Prop
  | execute (caller : T) (key : K) : s.calls caller = none →
      StepCase cache s (.execute caller key) (s.begin caller key .sync .checking)
  | executeAsync (caller : T) (key : K) : s.calls caller = none →
      StepCase cache s (.executeAsync caller key) (s.begin caller key .async cache.firstPhase)
  | advance (caller : T) (event : CallEvent V Exc) (c : Call K V Exc) (m : Moved K V Exc B) :
      s.calls caller = some c → cache.advance s.state c.key c.phase event = some m →
      StepCase cache s (.advance caller event) (s.moved caller c m)
  | invalidate (key : K) :
      StepCase cache s (.invalidate key)
        (s.withBackend (cache.ops.delete s.state.backend key).2
          (invalidationEntries (some key) (cache.ops.delete s.state.backend key).1))
  | invalidateAll :
      StepCase cache s .invalidateAll
        (s.withBackend (cache.ops.clear s.state.backend).2
          (invalidationEntries none (cache.ops.clear s.state.backend).1))
  | drift (d : D) :
      StepCase cache s (.drift d) (s.withBackend (cache.ops.drift d s.state.backend) [])

/-- **Every step begins a call, advances one, or changes the backend only.** -/
theorem step_cases {cache : Cache K V Exc B D} {s s' : System T K V Exc B}
    {a : Action T K V Exc D} (h : s.step cache a = some s') : StepCase cache s a s' := by
  cases a with
  | execute caller key =>
      simp only [step] at h
      split at h
      · cases h
      · next hn =>
        rw [← Option.some_inj.1 h]
        exact .execute caller key (Option.not_isSome_iff_eq_none.1 hn)
  | executeAsync caller key =>
      simp only [step] at h
      split at h
      · cases h
      · next hn =>
        rw [← Option.some_inj.1 h]
        exact .executeAsync caller key (Option.not_isSome_iff_eq_none.1 hn)
  | advance caller event =>
      simp only [step] at h
      split at h
      · cases h
      · next c hc =>
        obtain ⟨m, hm, rfl⟩ := Option.map_eq_some_iff.1 h
        exact .advance caller event c m hc hm
  | invalidate key =>
      rw [← Option.some_inj.1 h]
      exact .invalidate key
  | invalidateAll =>
      rw [← Option.some_inj.1 h]
      exact .invalidateAll
  | drift d =>
      rw [← Option.some_inj.1 h]
      exact .drift d

end System

/-- A cache on a backend in the given state, under any interleaving of its callers. -/
def callers (T : Type t) [DecidableEq T] [DecidableEq K] {Cls : Type z} [Exceptions Exc Cls]
    (cache : Cache K V Exc B D) (backend : B) :
    Machine (System T K V Exc B) (Action T K V Exc D) where
  init := System.init backend
  step := System.step cache

/-! ### The calls after a step -/

/-- A function of the calls, where there are calls. -/
def onCalls {R : Type z} (f : Call K V Exc → Option R) (calls : T → Option (Call K V Exc)) :
    T → Option R :=
  fun caller => (calls caller).bind f

@[simp] theorem onCalls_none {R : Type z} (f : Call K V Exc → Option R) :
    onCalls f (fun _ : T => none) = fun _ => none := rfl

theorem onCalls_update [DecidableEq T] {R : Type z} (f : Call K V Exc → Option R)
    (calls : T → Option (Call K V Exc)) (caller : T) (c : Call K V Exc) :
    onCalls f (Function.update calls caller (some c)) =
      Function.update (onCalls f calls) caller (f c) := by
  funext u
  by_cases hu : u = caller
  · subst hu
    simp [onCalls]
  · simp [onCalls, hu]

/-- A function that does not tell a blocked call from one that was woken. -/
theorem onCalls_notifyAll {R : Type z} {f : Call K V Exc → Option R} (hf : ∀ c, f c.wake = f c)
    (calls : T → Option (Call K V Exc)) : onCalls f (notifyAll calls) = onCalls f calls := by
  funext u
  cases hu : calls u with
  | none => simp [onCalls, notifyAll, hu]
  | some c => simp [onCalls, notifyAll, hu, hf c]

/-- The calls after a call has begun. -/
theorem System.begin_calls [DecidableEq T] {s : System T K V Exc B} {caller u : T} {key : K}
    {path : Path} {ph : Phase V Exc} {d : Call K V Exc}
    (h : (s.begin caller key path ph).calls u = some d) :
    u = caller ∧ d = ⟨key, path, s.log.length, ph⟩ ∨ u ≠ caller ∧ s.calls u = some d := by
  unfold System.begin at h
  by_cases hu : u = caller
  · subst hu
    simp only [Function.update_self, Option.some_inj] at h
    exact .inl ⟨rfl, h.symm⟩
  · simp only [Function.update_of_ne hu] at h
    exact .inr ⟨hu, h⟩

/-- The other calls after a step: the same, or woken. -/
theorem System.moved_calls_of_ne [DecidableEq T] {s : System T K V Exc B} {caller u : T}
    {c d : Call K V Exc} {m : Moved K V Exc B} (hu : u ≠ caller)
    (h : (s.moved caller c m).calls u = some d) :
    ∃ d₀, s.calls u = some d₀ ∧ (d = d₀ ∨ d = d₀.wake) := by
  simp only [System.moved, Function.update_of_ne hu] at h
  split at h
  · obtain ⟨d₀, hd₀, rfl⟩ := Option.map_eq_some_iff.1 h
    exact ⟨d₀, hd₀, .inr rfl⟩
  · exact ⟨d, h, .inl rfl⟩

theorem System.moved_calls_self [DecidableEq T] {s : System T K V Exc B} {caller : T}
    {c : Call K V Exc} {m : Moved K V Exc B} :
    (s.moved caller c m).calls caller = some { c with phase := m.phase } :=
  Function.update_self ..

theorem Call.wake_key (c : Call K V Exc) : c.wake.key = c.key := by
  unfold Call.wake
  split <;> rfl

theorem Call.wake_phase (c : Call K V Exc) :
    c.phase = .blocked ∧ c.wake = { c with phase := .checking } ∨ c.wake = c := by
  unfold Call.wake
  split
  · next h => exact .inl ⟨h, rfl⟩
  · exact .inr rfl

namespace System

variable [DecidableEq T] [DecidableEq K] {Cls : Type z} [Exceptions Exc Cls]
  {cache : Cache K V Exc B D}

/-- Where a call in the state after a step comes from. -/
inductive CallCase (cache : Cache K V Exc B D) (s s' : System T K V Exc B)
    (a : Action T K V Exc D) (caller : T) (d : Call K V Exc) : Prop
  /-- It has just begun. -/
  | begun : s.calls caller = none → d.startedAt = s.log.length →
      (d.path = .sync ∧ d.phase = .checking ∨ d.path = .async ∧ d.phase = cache.firstPhase) →
      CallCase cache s s' a caller d
  /-- It is as before. -/
  | kept : s.calls caller = some d → CallCase cache s s' a caller d
  /-- It was notified. -/
  | woken (c : Call K V Exc) : s.calls caller = some c → c.phase = .blocked →
      d = { c with phase := .checking } → CallCase cache s s' a caller d
  /-- It has made the step. -/
  | advanced (c : Call K V Exc) (ev : CallEvent V Exc) (m : Moved K V Exc B) :
      s.calls caller = some c → a = .advance caller ev →
      cache.AdvanceCase s.state c.key c.phase ev m → d = { c with phase := m.phase } →
      s' = s.moved caller c m → CallCase cache s s' a caller d

omit [DecidableEq T] [DecidableEq K] in
/-- A call that has just begun is about to look for its key. -/
theorem phase_of_begun {d : Call K V Exc} (h : d.path = .sync ∧ d.phase = .checking ∨
    d.path = .async ∧ d.phase = cache.firstPhase) :
    d.phase = .checking ∨ d.phase = .asyncChecking ∨ d.phase = .getting := by
  rcases h with ⟨-, hph⟩ | ⟨-, hph⟩
  · exact .inl hph
  · rw [hph]
    exact .inr cache.firstPhase_cases

/-- Every call in the state after a step is one of the cases. -/
theorem call_cases {s s' : System T K V Exc B} {a : Action T K V Exc D}
    (h : s.step cache a = some s') {caller : T} {d : Call K V Exc}
    (hd : s'.calls caller = some d) : CallCase cache s s' a caller d := by
  cases step_cases h with
  | execute u key hnew =>
      rcases begin_calls hd with ⟨rfl, rfl⟩ | ⟨-, hd⟩
      · exact .begun hnew rfl (.inl ⟨rfl, rfl⟩)
      · exact .kept hd
  | executeAsync u key hnew =>
      rcases begin_calls hd with ⟨rfl, rfl⟩ | ⟨-, hd⟩
      · exact .begun hnew rfl (.inr ⟨rfl, rfl⟩)
      · exact .kept hd
  | advance u ev c m hc hm =>
      by_cases hu : caller = u
      · subst hu
        rw [moved_calls_self, Option.some_inj] at hd
        exact .advanced c ev m hc rfl (Cache.advance_cases hm) hd.symm rfl
      · obtain ⟨d₀, hd₀, rfl | rfl⟩ := moved_calls_of_ne hu hd
        · exact .kept hd₀
        · rcases d₀.wake_phase with ⟨hb, hw⟩ | hw
          · exact .woken d₀ hd₀ hb hw
          · rw [hw]
            exact .kept hd₀
  | invalidate | invalidateAll | drift => exact .kept hd

/-- A call in a phase in which no call begins or wakes up is as before, or has made the step. -/
theorem kept_or_advanced {s s' : System T K V Exc B} {a : Action T K V Exc D}
    (h : s.step cache a = some s') {caller : T} {d : Call K V Exc}
    (hd : s'.calls caller = some d) {P : Phase V Exc → Prop} (hph : P d.phase)
    (hchecking : ¬ P .checking) (hasyncChecking : ¬ P .asyncChecking) (hgetting : ¬ P .getting) :
    s.calls caller = some d ∨
      ∃ c ev m, s.calls caller = some c ∧ a = .advance caller ev ∧
        cache.AdvanceCase s.state c.key c.phase ev m ∧ d = { c with phase := m.phase } ∧
        s' = s.moved caller c m := by
  cases call_cases h hd with
  | begun _ _ hpath =>
      rcases phase_of_begun hpath with hfirst | hfirst | hfirst
      · exact absurd (hfirst ▸ hph) hchecking
      · exact absurd (hfirst ▸ hph) hasyncChecking
      · exact absurd (hfirst ▸ hph) hgetting
  | kept hd' => exact .inl hd'
  | woken c hc hb hd' =>
      rw [hd'] at hph
      exact absurd hph hchecking
  | advanced c ev m hc ha hcase hd' hs' => exact .inr ⟨c, ev, m, hc, ha, hcase, hd', hs'⟩

end System

end Caching
