/-
The reservations of the coroutines as a single-flight table.

The keys in `_async_inflight` are reserved and waited for by coroutines: a call of `execute_async`
that is between reserving and releasing its key computes it, and a coroutine that is suspended on
an event that is not set waits for its key.  Every step of the machine is a step of this table, or a
leak; which of the two is decided by the state and the event before the step.

A coroutine is woken by its event.  That the event set by a release is the one that all coroutines
waiting for the key are suspended on is the invariant `EventsOk`: the event a coroutine waits for
stands in `_async_inflight` for its key, until it is popped and set.

Main definitions:

* `Caching.System.asyncTable` — the table of the coroutines;
* `Caching.System.asyncLeak` — the steps that leak a reservation;
* `Caching.System.EventsOk` — the events of the keys in flight.

Main results:

* `Caching.System.async_step` — **every step is a step of the table, or a leak**;
* `Caching.System.async_refines`, `Caching.System.async_refines_of_run` — the runs of the cache are
  runs of the table.
-/

import Pysilience.Cache.SyncReservations

set_option relaxedAutoImplicit false
set_option autoImplicit false

namespace Caching

open Python Transition SingleFlight

universe u v w x y z t

variable {T : Type t} {K : Type u} {V : Type v} {Exc : Type w} {B : Type x} {D : Type y}

/-! ### The steps that leak a reservation -/

section Leaks

variable {Cls : Type z} [Exceptions Exc Cls]

/-- The call leaves with its key in `_async_inflight`: its function raises something other than an
`Exception` (or is cancelled), `put` or `aput` raises, or it is cancelled in `aput`. -/
def Phase.asyncLeaks (cache : Cache K V Exc B D) (cs : CacheState K B) (key : K) :
    Phase V Exc → CallEvent V Exc → Bool
  | .awaiting, .throw exc => !caught exc
  | .asyncStoring value, .turn => !(cache.ops.put cs.backend key value cache.config.ttl).1.isOk
  | .put _ result, .turn => !result.isOk
  | .putting _, .throw _ | .put .., .throw _ => true
  | _, _ => false

namespace System

/-- The step leaks a reservation of a coroutine. -/
def asyncLeak (cache : Cache K V Exc B D) (s : System T K V Exc B) : Action T K V Exc D → Bool
  | .advance caller event =>
      match s.calls caller with
      | none => false
      | some c => c.phase.asyncLeaks cache s.state c.key event
  | _ => false

end System

end Leaks

/-! ### The table of the coroutines -/

/-- The coroutine is suspended on an event that is not set. -/
def Phase.waitsOn (events : List Bool) : Phase V Exc → Bool
  | .suspended event => !decide (events[event]? = some true)
  | _ => false

/-- The key the call owns in `_async_inflight`. -/
def Call.asyncOwned (c : Call K V Exc) : Option K := Effect.slot c.phase.asyncOwns c.key

/-- The key the coroutine waits for. -/
def Call.asyncAwaited (events : List Bool) (c : Call K V Exc) : Option K :=
  Effect.slot (c.phase.waitsOn events) c.key

theorem Call.asyncOwned_wake (c : Call K V Exc) : c.wake.asyncOwned = c.asyncOwned := by
  unfold Call.wake
  split
  · next h => simp [Call.asyncOwned, h, Phase.asyncOwns]
  · rfl

theorem Call.asyncAwaited_eq_some {events : List Bool} {c : Call K V Exc} {k : K}
    (h : c.asyncAwaited events = some k) :
    c.key = k ∧ ∃ event, c.phase = .suspended event ∧ events[event]? ≠ some true := by
  cases hw : c.phase.waitsOn events with
  | false =>
      rw [Call.asyncAwaited, hw] at h
      cases h
  | true =>
      rw [Call.asyncAwaited, hw] at h
      refine ⟨Option.some_inj.1 h, ?_⟩
      unfold Phase.waitsOn at hw
      split at hw
      · next event hev => exact ⟨event, hev, by simpa using hw⟩
      · cases hw

theorem Call.wake_suspended {c : Call K V Exc} {event : ℕ}
    (h : c.wake.phase = .suspended event) : c.phase = .suspended event := by
  unfold Call.wake at h
  split at h
  · cases h
  · exact h

namespace System

/-- The reservations of the coroutines. -/
def asyncTable (s : System T K V Exc B) : Table K T where
  reserved := {k | s.state.asyncInflight k ≠ none}
  computing := onCalls Call.asyncOwned s.calls
  waiting := onCalls (Call.asyncAwaited s.state.events) s.calls

/-- The call is between reserving and releasing the key in `_async_inflight`. -/
def AsyncOwner (s : System T K V Exc B) (caller : T) (k : K) : Prop :=
  ∃ c, s.calls caller = some c ∧ c.key = k ∧ c.phase.asyncOwns = true

/-- The coroutine is suspended, for the key, on an event that is not set. -/
def AsyncWaiter (s : System T K V Exc B) (caller : T) (k : K) : Prop :=
  ∃ c event, s.calls caller = some c ∧ c.key = k ∧ c.phase = .suspended event ∧
    s.state.events[event]? ≠ some true

theorem asyncTable_computing {s : System T K V Exc B} {caller : T} {k : K} :
    s.asyncTable.computing caller = some k ↔ s.AsyncOwner caller k := by
  simp only [asyncTable, onCalls, Option.bind_eq_some_iff, Call.asyncOwned, Effect.slot,
    Option.ite_none_right_eq_some, Option.some_inj, AsyncOwner]
  exact exists_congr fun c => and_congr_right fun _ => and_comm

theorem asyncTable_waiting {s : System T K V Exc B} {caller : T} {k : K} :
    s.asyncTable.waiting caller = some k ↔ s.AsyncWaiter caller k := by
  simp only [asyncTable, onCalls, Option.bind_eq_some_iff]
  constructor
  · rintro ⟨c, hc, hw⟩
    obtain ⟨hkey, event, hph, hev⟩ := Call.asyncAwaited_eq_some hw
    exact ⟨c, event, hc, hkey, hph, hev⟩
  · rintro ⟨c, event, hc, rfl, hph, hev⟩
    exact ⟨c, hc, by simp [Call.asyncAwaited, Effect.slot, hph, Phase.waitsOn, hev]⟩

/-- Every key in flight has an event of its own, which is not set, and whoever waits for an event
that is not set waits for the event of its key. -/
structure EventsOk (s : System T K V Exc B) : Prop where
  unset : ∀ k event, s.state.asyncInflight k = some event → s.state.events[event]? = some false
  own : ∀ k l event, s.state.asyncInflight k = some event → s.state.asyncInflight l = some event →
    k = l
  waiting : ∀ caller c event, s.calls caller = some c → c.phase = .suspended event →
    s.state.events[event]? ≠ some true → s.state.asyncInflight c.key = some event

section Steps

variable [DecidableEq K] {Cls : Type z} [Exceptions Exc Cls] {cache : Cache K V Exc B D}

/-- What a call can do to `_async_inflight` and the events. -/
inductive AsyncChange (cs : CacheState K B) (key : K) (m : Moved K V Exc B) : Prop
  | same : m.state.asyncInflight = cs.asyncInflight → m.state.events = cs.events →
      (∀ event, m.phase = .suspended event → cs.asyncInflight key = some event) →
      AsyncChange cs key m
  | reserve : cs.asyncInflight key = none →
      m.state.asyncInflight = Function.update cs.asyncInflight key (some cs.events.length) →
      m.state.events = cs.events ++ [false] → (∀ event, m.phase ≠ .suspended event) →
      AsyncChange cs key m
  | release (event : ℕ) : cs.asyncInflight key = some event →
      m.state.asyncInflight = Function.update cs.asyncInflight key none →
      m.state.events = cs.events.set event true → (∀ event, m.phase ≠ .suspended event) →
      AsyncChange cs key m

/-- Releasing a key pops it and sets its event, where it is in flight. -/
theorem asyncChange_unreserve (cs cs' : CacheState K B) (key : K) (m : Moved K V Exc B)
    (hinflight : cs'.asyncInflight = cs.asyncInflight) (hevents : cs'.events = cs.events)
    (hm : m.state = cs'.asyncUnreserve key) (hph : ∀ event, m.phase ≠ .suspended event) :
    AsyncChange cs key m := by
  unfold CacheState.asyncUnreserve at hm
  split at hm
  · exact .same (by rw [hm, hinflight]) (by rw [hm, hevents]) fun event he => absurd he (hph event)
  · next event he =>
    exact .release event (hinflight ▸ he) (by rw [hm, hinflight]) (by rw [hm, hevents]) hph

theorem async_change {cs : CacheState K B} {key : K} {ph : Phase V Exc} {ev : CallEvent V Exc}
    {m : Moved K V Exc B} (h : cache.AdvanceCase cs key ph ev m) : AsyncChange cs key m := by
  cases h with
  | asyncReserve ph b hl hn => exact .reserve hn rfl rfl fun _ => by simp
  | asyncWait ph b event hl he =>
      refine .same rfl rfl fun event' he' => ?_
      cases he'
      exact he
  | asyncFailed e => exact asyncChange_unreserve cs cs key _ rfl rfl rfl fun _ => by simp
  | asyncStored v b =>
      exact asyncChange_unreserve cs { cs with backend := b } key _ rfl rfl rfl fun _ => by simp
  | putDone v => exact asyncChange_unreserve cs cs key _ rfl rfl rfl fun _ => by simp
  | asyncFinish v =>
      refine .same rfl rfl fun event he => ?_
      cases hm : cache.isMemory <;> simp [hm] at he
  | _ => exact .same rfl rfl fun event he => by cases he

/-- What a call does to the reservations of the coroutines. -/
theorem async_effect {cs : CacheState K B} {key : K} {ph : Phase V Exc} {ev : CallEvent V Exc}
    {m : Moved K V Exc B} (h : cache.AdvanceCase cs key ph ev m)
    (hunset : ∀ event, cs.asyncInflight key = some event → cs.events[event]? = some false) :
    Effect {k | cs.asyncInflight k ≠ none} {k | m.state.asyncInflight k ≠ none} key ph.asyncOwns
      m.phase.asyncOwns (m.phase.waitsOn m.state.events) (ph.asyncLeaks cache cs key ev) := by
  have hun : ∀ cs : CacheState K B, {k | (cs.asyncUnreserve key).asyncInflight k ≠ none} =
      {k | cs.asyncInflight k ≠ none} \ {key} := by
    intro cs
    ext k
    by_cases hk : k = key
    · simp [hk]
    · simp [hk]
  cases h with
  | hit | getRaises | reserve | wait | finish | failed | escaped | unreserved | stored | putRaises
  | retry | aget => exact .stay false rfl
  | asyncHit ph v b hl | asyncGetRaises ph e b hl => cases hl <;> exact .stay false rfl
  | asyncReserve ph b hl hn =>
      have hR : {k | Function.update cs.asyncInflight key (some cs.events.length) k ≠ none} =
          insert key {k | cs.asyncInflight k ≠ none} := by
        ext k
        by_cases hk : k = key
        · simp [hk]
        · simp [hk]
      cases hl <;> exact .reserve (fun hk => hk hn) hR
  | asyncWait ph b event hl he =>
      have hwaits : (Phase.suspended event : Phase V Exc).waitsOn cs.events = true := by
        simp [Phase.waitsOn, hunset event he]
      have hk : key ∈ {k | cs.asyncInflight k ≠ none} := by simp [he]
      dsimp only
      rw [hwaits]
      cases hl <;> exact .wait hk rfl
  | asyncFinish v => cases cache.isMemory <;> exact .stay true rfl
  | asyncFailed e he =>
      rw [Phase.asyncLeaks, he]
      exact .release (hun cs)
  | asyncEscaped e he =>
      rw [Phase.asyncLeaks, he]
      exact .leak rfl
  | asyncStored v b hp =>
      rw [Phase.asyncLeaks, hp]
      exact .release (hun { cs with backend := b })
  | asyncPutRaises v e b hp =>
      rw [Phase.asyncLeaks, hp]
      exact .leak rfl
  | aput => exact .stay true rfl
  | putDone v => exact .release (hun cs)
  | putFailed => exact .leak rfl
  | cancelled ph e hph =>
      match ph, hph with
      | .suspended _, _ | .getting, _ | .gotten _, _ => exact .stay false rfl
  | putCancelled ph e hph =>
      match ph, hph with
      | .putting _, _ | .put .., _ => exact .leak rfl

omit [DecidableEq K] in
theorem eventsOk_init (backend : B) : EventsOk (init backend : System T K V Exc B) where
  unset k event h := by cases h
  own k l event h := by cases h
  waiting caller c event h := by cases h

variable [DecidableEq T]

omit [DecidableEq K] in
/-- The calls that wait for an event after a step: others that waited for it before, or the one
that made the step. -/
theorem suspended_moved {s : System T K V Exc B} {caller u : T} {c d : Call K V Exc}
    {m : Moved K V Exc B} {event : ℕ} (h : (s.moved caller c m).calls u = some d)
    (hd : d.phase = .suspended event) :
    u = caller ∧ d.key = c.key ∧ m.phase = .suspended event ∨
      ∃ d₀, s.calls u = some d₀ ∧ d₀.key = d.key ∧ d₀.phase = .suspended event := by
  by_cases hu : u = caller
  · subst hu
    rw [moved_calls_self, Option.some_inj] at h
    subst h
    exact .inl ⟨rfl, rfl, hd⟩
  · obtain ⟨d₀, hd₀, rfl | rfl⟩ := moved_calls_of_ne hu h
    · exact .inr ⟨d, hd₀, rfl, hd⟩
    · exact .inr ⟨d₀, hd₀, (Call.wake_key d₀).symm, Call.wake_suspended hd⟩

omit [DecidableEq K] in
/-- After a step of a call that does not suspend it, whoever waits for an event that was not set
before the step finds it in flight before the step. -/
theorem EventsOk.waits {s : System T K V Exc B} (h : EventsOk s) {caller u : T} {c d : Call K V Exc}
    {m : Moved K V Exc B} {event : ℕ} (hph : ∀ event, m.phase ≠ .suspended event)
    (hu : (s.moved caller c m).calls u = some d) (hd : d.phase = .suspended event)
    (hev : s.state.events[event]? ≠ some true) : s.state.asyncInflight d.key = some event := by
  rcases suspended_moved hu hd with ⟨-, -, hmp⟩ | ⟨d₀, hd₀, hkey, hd₀p⟩
  · exact absurd hmp (hph event)
  · exact hkey ▸ h.waiting u d₀ event hd₀ hd₀p hev

omit [DecidableEq K] in
/-- A step of a call that leaves the keys in flight and the events as they are. -/
theorem EventsOk.same {s : System T K V Exc B} (h : EventsOk s) {caller : T} {c : Call K V Exc}
    {m : Moved K V Exc B} (hin : m.state.asyncInflight = s.state.asyncInflight)
    (hev : m.state.events = s.state.events)
    (hsus : ∀ event, m.phase = .suspended event → s.state.asyncInflight c.key = some event) :
    EventsOk (s.moved caller c m) := by
  refine ⟨?_, ?_, ?_⟩
  · intro k event he
    exact hev ▸ h.unset k event (hin ▸ he)
  · intro k l event hk hl
    exact h.own k l event (hin ▸ hk) (hin ▸ hl)
  · intro u d event hu hd he
    have he : s.state.events[event]? ≠ some true := hev ▸ he
    change m.state.asyncInflight d.key = some event
    rw [hin]
    rcases suspended_moved hu hd with ⟨-, hkey, hmp⟩ | ⟨d₀, hd₀, hkey, hd₀p⟩
    · exact hkey ▸ hsus event hmp
    · exact hkey ▸ h.waiting u d₀ event hd₀ hd₀p he

/-- A step of a call that reserves its key with a new event. -/
theorem EventsOk.reserve {s : System T K V Exc B} (h : EventsOk s) {caller : T} {c : Call K V Exc}
    {m : Moved K V Exc B} (hn : s.state.asyncInflight c.key = none)
    (hin : m.state.asyncInflight =
      Function.update s.state.asyncInflight c.key (some s.state.events.length))
    (hev : m.state.events = s.state.events ++ [false])
    (hph : ∀ event, m.phase ≠ .suspended event) : EventsOk (s.moved caller c m) := by
  have hget : ∀ k event, m.state.asyncInflight k = some event →
      k = c.key ∧ event = s.state.events.length ∨
        k ≠ c.key ∧ s.state.asyncInflight k = some event := by
    intro k event hk
    rw [hin] at hk
    rcases Table.computing_of_update_some hk with ⟨hkc, he⟩ | hk
    · exact .inl ⟨hkc, he⟩
    · exact .inr hk
  -- the new event is none of the old ones
  have hnew : ∀ k, s.state.asyncInflight k ≠ some s.state.events.length := by
    intro k hk
    have := h.unset k _ hk
    simp at this
  have hold : ∀ (event : ℕ) (b : Bool), s.state.events[event]? = some b →
      m.state.events[event]? = some b := by
    intro event b hb
    rw [hev, List.getElem?_append_left (List.getElem?_eq_some_iff.1 hb).1, hb]
  refine ⟨?_, ?_, ?_⟩
  · intro k event hk
    rcases hget k event hk with ⟨-, rfl⟩ | ⟨-, hk⟩
    · change m.state.events[s.state.events.length]? = some false
      simp [hev]
    · exact hold event false (h.unset k event hk)
  · intro k l event hk hl
    rcases hget k event hk with ⟨hkc, hke⟩ | ⟨-, hk⟩
    · rcases hget l event hl with ⟨hlc, -⟩ | ⟨-, hl⟩
      · rw [hkc, hlc]
      · exact absurd (hke ▸ hl) (hnew l)
    · rcases hget l event hl with ⟨-, hle⟩ | ⟨-, hl⟩
      · exact absurd (hle ▸ hk) (hnew k)
      · exact h.own k l event hk hl
  · intro u d event hu hd he
    have hin' := h.waits hph hu hd fun ht => he (hold event true ht)
    change m.state.asyncInflight d.key = some event
    rw [hin, Function.update_of_ne, hin']
    intro hdc
    rw [hdc, hn] at hin'
    cases hin'

/-- A step of a call that pops its key and sets the event of the key. -/
theorem EventsOk.release {s : System T K V Exc B} (h : EventsOk s) {caller : T} {c : Call K V Exc}
    {m : Moved K V Exc B} {e₀ : ℕ} (he₀ : s.state.asyncInflight c.key = some e₀)
    (hin : m.state.asyncInflight = Function.update s.state.asyncInflight c.key none)
    (hev : m.state.events = s.state.events.set e₀ true)
    (hph : ∀ event, m.phase ≠ .suspended event) : EventsOk (s.moved caller c m) := by
  have hget : ∀ k event, m.state.asyncInflight k = some event →
      k ≠ c.key ∧ s.state.asyncInflight k = some event := by
    intro k event hk
    rw [hin] at hk
    exact Table.computing_of_update_none hk
  refine ⟨?_, ?_, ?_⟩
  · intro k event hk
    obtain ⟨hkc, hk⟩ := hget k event hk
    change m.state.events[event]? = some false
    rw [hev, List.getElem?_set_ne, h.unset k event hk]
    rintro rfl
    exact hkc (h.own k c.key e₀ hk he₀)
  · intro k l event hk hl
    exact h.own k l event (hget k event hk).2 (hget l event hl).2
  · intro u d event hu hd he
    have he : (s.state.events.set e₀ true)[event]? ≠ some true := hev ▸ he
    have hne : e₀ ≠ event := by
      rintro rfl
      refine he ?_
      rw [List.getElem?_set_self (List.getElem?_eq_some_iff.1 (h.unset _ _ he₀)).1]
    rw [List.getElem?_set_ne hne] at he
    have hin' := h.waits hph hu hd he
    change m.state.asyncInflight d.key = some event
    rw [hin, Function.update_of_ne, hin']
    -- whoever waited for the popped key waited for the event that was set
    intro hdc
    rw [hdc, he₀] at hin'
    exact hne (Option.some_inj.1 hin')

/-- Every step of a call keeps the events in order. -/
theorem eventsOk_moved {s : System T K V Exc B} (h : EventsOk s) {caller : T} {c : Call K V Exc}
    {m : Moved K V Exc B} (hm : AsyncChange s.state c.key m) : EventsOk (s.moved caller c m) := by
  cases hm with
  | same hin hev hsus => exact h.same hin hev hsus
  | reserve hn hin hev hph => exact h.reserve hn hin hev hph
  | release e₀ he₀ hin hev hph => exact h.release he₀ hin hev hph

omit [DecidableEq K] [DecidableEq T] in
/-- A step that begins a call, or changes the backend only, keeps the events in order. -/
theorem eventsOk_stay {s s' : System T K V Exc B} (h : EventsOk s)
    (hin : s'.state.asyncInflight = s.state.asyncInflight)
    (hev : s'.state.events = s.state.events)
    (hcalls : ∀ u c event, s'.calls u = some c → c.phase = .suspended event →
      s.calls u = some c) : EventsOk s' where
  unset k event he := hev ▸ h.unset k event (hin ▸ he)
  own k l event hk hl := h.own k l event (hin ▸ hk) (hin ▸ hl)
  waiting u c event hu hc he := hin ▸ h.waiting u c event (hcalls u c event hu hc) hc (hev ▸ he)

omit [DecidableEq K] in
/-- A call that begins waits for no event. -/
theorem suspended_begin {s : System T K V Exc B} {caller u : T} {key : K} {path : Path}
    {ph : Phase V Exc} (hph : ∀ event, ph ≠ .suspended event) {c : Call K V Exc} {event : ℕ}
    (h : (s.begin caller key path ph).calls u = some c) (hc : c.phase = .suspended event) :
    s.calls u = some c := by
  rcases begin_calls h with ⟨-, rfl⟩ | ⟨-, h⟩
  · exact absurd hc (hph event)
  · exact h

omit [DecidableEq K] in
theorem firstPhase_ne_suspended (cache : Cache K V Exc B D) (event : ℕ) :
    cache.firstPhase ≠ .suspended event := by
  rcases cache.firstPhase_cases with hph | hph <;> simp [hph]

/-- Every step keeps the events in order. -/
theorem eventsOk_step {s s' : System T K V Exc B} {a : Action T K V Exc D} (hok : EventsOk s)
    (h : s.step cache a = some s') : EventsOk s' := by
  cases step_cases h with
  | execute caller key hnew =>
      exact eventsOk_stay hok rfl rfl fun u c event hu hc =>
        suspended_begin (fun _ => by simp) hu hc
  | executeAsync caller key hnew =>
      exact eventsOk_stay hok rfl rfl fun u c event hu hc =>
        suspended_begin (firstPhase_ne_suspended cache) hu hc
  | advance caller ev c m hc hm => exact eventsOk_moved hok (async_change (Cache.advance_cases hm))
  | invalidate | invalidateAll | drift => exact eventsOk_stay hok rfl rfl fun _ _ _ hu _ => hu

/-- A coroutine that waits after a step waited before, or is the one that made the step. -/
theorem asyncWaiting_moved {s : System T K V Exc B} {caller u : T} {c : Call K V Exc}
    {m : Moved K V Exc B} (hm : AsyncChange s.state c.key m) (hu : u ≠ caller) {l : K}
    (h : (s.moved caller c m).asyncTable.waiting u = some l) :
    s.asyncTable.waiting u = some l := by
  -- an event that is not set after the step was not set before
  have hmono : ∀ event : ℕ, m.state.events[event]? ≠ some true →
      s.state.events[event]? ≠ some true := by
    intro event hev ht
    have hlt := (List.getElem?_eq_some_iff.1 ht).1
    refine hev ?_
    cases hm with
    | same _ he => rw [he, ht]
    | reserve _ _ he => rw [he, List.getElem?_append_left hlt, ht]
    | release e₀ _ _ he =>
        by_cases hne : e₀ = event
        · rw [he, hne, List.getElem?_set_self hlt]
        · rw [he, List.getElem?_set_ne hne, ht]
  obtain ⟨d, hd, hl⟩ := Option.bind_eq_some_iff.1 h
  obtain ⟨hkey, event, hph, hev⟩ := Call.asyncAwaited_eq_some hl
  rcases suspended_moved hd hph with ⟨huc, -⟩ | ⟨d₀, hd₀, hkey₀, hd₀p⟩
  · exact absurd huc hu
  · refine Option.bind_eq_some_iff.2 ⟨d₀, hd₀, ?_⟩
    rw [Call.asyncAwaited, hd₀p, hkey₀, hkey]
    simp [Phase.waitsOn, Effect.slot, hmono event hev]

omit [DecidableEq K] in
/-- What a step of a call does to the keys that coroutines compute. -/
theorem asyncComputing_moved (s : System T K V Exc B) (caller : T) (c : Call K V Exc)
    (m : Moved K V Exc B) :
    (s.moved caller c m).asyncTable.computing =
      Function.update s.asyncTable.computing caller (Effect.slot m.phase.asyncOwns c.key) := by
  simp only [asyncTable, moved, onCalls_update]
  congr 1
  split
  · exact onCalls_notifyAll Call.asyncOwned_wake s.calls
  · rfl

omit [DecidableEq K] in
/-- A step that begins a call, or changes the backend only, leaves the table of the coroutines. -/
theorem async_stay {s s' : System T K V Exc B}
    (hR : s'.state.asyncInflight = s.state.asyncInflight)
    (hcomputing : s'.asyncTable.computing = s.asyncTable.computing)
    (hwaiting : s'.asyncTable.waiting = s.asyncTable.waiting) :
    Table.Step s.asyncTable s'.asyncTable :=
  .stay (by simp only [asyncTable, hR]) hcomputing fun t k h => hwaiting ▸ h

/-- **Every step is a step of the table of the coroutines, or a leak.** -/
theorem async_step {s s' : System T K V Exc B} {a : Action T K V Exc D} (hok : EventsOk s)
    (h : s.step cache a = some s') :
    (s.asyncLeak cache a = false → Table.Step s.asyncTable s'.asyncTable) ∧
      (s.asyncLeak cache a = true → Table.Leak s.asyncTable s'.asyncTable) := by
  have hok' := eventsOk_step hok h
  cases step_cases h with
  | execute caller key hnew =>
      refine ⟨fun _ => async_stay rfl (onCalls_begin hnew rfl) (onCalls_begin hnew rfl), ?_⟩
      exact fun hl => by cases hl
  | executeAsync caller key hnew =>
      refine ⟨fun _ => async_stay rfl (onCalls_begin hnew ?_) (onCalls_begin hnew ?_), ?_⟩
      · rcases cache.firstPhase_cases with hph | hph <;> rw [hph] <;> rfl
      · rcases cache.firstPhase_cases with hph | hph <;> rw [hph] <;> rfl
      · exact fun hl => by cases hl
  | advance caller ev c m hc hm =>
      have hcase := Cache.advance_cases hm
      have hchange := async_change hcase
      have heff := async_effect hcase fun event he => hok.unset c.key event he
      have hbefore : s.asyncTable.computing caller = Effect.slot c.phase.asyncOwns c.key := by
        simp [asyncTable, onCalls, hc, Call.asyncOwned]
      have hwaits : (s.moved caller c m).asyncTable.waiting caller =
          Effect.slot (m.phase.waitsOn m.state.events) c.key := by
        simp [asyncTable, onCalls, moved, Call.asyncAwaited]
      have hothers : ∀ u, u ≠ caller → ∀ l, (s.moved caller c m).asyncTable.waiting u = some l →
          s.asyncTable.waiting u = some l := fun u hu l hw => asyncWaiting_moved hchange hu hw
      have hleak : s.asyncLeak cache (.advance caller ev) =
          c.phase.asyncLeaks cache s.state c.key ev := by
        simp only [asyncLeak, hc]
      rw [hleak]
      constructor
      · intro hl
        rw [hl] at heff
        refine heff.step hbefore (asyncComputing_moved s caller c m) hothers hwaits ?_
        intro h1 h2 u hu hw
        -- a coroutine that still waits for the key would wait for its event, but there is none
        rw [h1, h2] at heff
        obtain ⟨d, hd, hwait⟩ := Option.bind_eq_some_iff.1 hw
        obtain ⟨hkey, event, hph, hev⟩ := Call.asyncAwaited_eq_some hwait
        have hin : m.state.asyncInflight c.key = some event :=
          hkey ▸ hok'.waiting u d event hd hph hev
        exact heff.freed (by simp [hin])
      · intro hl
        rw [hl] at heff
        exact heff.leak_of hbefore (asyncComputing_moved s caller c m) hothers hwaits
  | invalidate | invalidateAll | drift =>
      exact ⟨fun _ => async_stay rfl rfl rfl, fun hl => by cases hl⟩

end Steps

/-! ### The invariants of the coroutines -/

section Runs

variable [DecidableEq K] [DecidableEq T] {Cls : Type z} [Exceptions Exc Cls]
  {cache : Cache K V Exc B D} {backend : B}

omit [DecidableEq K] [DecidableEq T] in
theorem asyncTable_init (backend : B) :
    (init backend : System T K V Exc B).asyncTable = Table.empty := by
  simp [asyncTable, init, CacheState.init, Table.empty]

/-- In every reachable state the events are in order. -/
theorem eventsOk_of_reachable {s : System T K V Exc B}
    (h : (callers T cache backend).Reachable s) : EventsOk s := by
  refine h.invariant (I := EventsOk) (eventsOk_init backend) ?_
  intro s a s' hok hs
  exact eventsOk_step hok hs

/-- **The runs of the cache are runs of the table of the coroutines**, with leaks. -/
theorem async_refines {s : System T K V Exc B} (h : (callers T cache backend).Reachable s) :
    Relation.ReflTransGen Table.Next Table.empty s.asyncTable := by
  obtain ⟨as, h⟩ := h
  rw [← asyncTable_init backend]
  refine h.simulation (I := EventsOk) (fun _ _ hr => eventsOk_of_reachable hr.reachable) ?_
  intro s a s' hok _ hs
  cases hl : s.asyncLeak cache a with
  | false => exact .single (.inl ((async_step hok hs).1 hl))
  | true => exact .single (.inr ((async_step hok hs).2 hl))

/-- **The runs without leaks of coroutines are runs of their table without leaks.** -/
theorem async_refines_of_run {as : List (Action T K V Exc D)} {s : System T K V Exc B}
    (h : (callers T cache backend).Run (fun s a => s.asyncLeak cache a = false) as s) :
    Relation.ReflTransGen Table.Step Table.empty s.asyncTable := by
  rw [← asyncTable_init backend]
  refine h.simulation (I := EventsOk) (fun _ _ hr => eventsOk_of_reachable hr.reachable) ?_
  intro s a s' hok hl hs
  exact .single ((async_step hok hs).1 hl)

/-- In every reachable state the table of the coroutines is orderly. -/
theorem asyncOrderly_of_reachable {s : System T K V Exc B}
    (h : (callers T cache backend).Reachable s) : Table.Orderly s.asyncTable :=
  Table.orderly_of_reaches (async_refines h)

/-- In a run without leaks of coroutines whoever waits, waits for a coroutine in progress. -/
theorem asyncOwner_of_waiter {as : List (Action T K V Exc D)} {s : System T K V Exc B}
    (h : (callers T cache backend).Run (fun s a => s.asyncLeak cache a = false) as s) (caller : T)
    (k : K) (hw : s.AsyncWaiter caller k) : ∃ u, s.AsyncOwner u k := by
  have horder := asyncOrderly_of_reachable h.reachable
  have howned := Table.owned_of_reaches (async_refines_of_run h)
  obtain ⟨u, hu⟩ := horder.awaited howned (asyncTable_waiting.2 hw)
  exact ⟨u, asyncTable_computing.1 hu⟩

end Runs

end System

end Caching
