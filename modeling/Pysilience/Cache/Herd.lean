/-
How often a cached function is invoked.

However many callers ask for a key at once, its function is invoked by one of them, and the others
wait for its value or find it.  So it is invoked again only after the computation before has come to
nothing, or the backend has lost its value.  Counting these along a run gives an exact account:
every invocation of the function of a key is in progress, has failed, has its value in the backend,
or has its value lost.

This is so for threads with any backend, and for coroutines with a `MemoryBackend`, where looking
for a key and reserving it are one section; threads and coroutines that share a cache do not share
their reservations.

Main definitions:

* `Caching.Storing` — a backend that stores what is put, for a time-to-live;
* `Caching.Herd`, `Caching.herd` — the callers of a cache, with the failures and the losses of a
  key;
* `Caching.Herd.Account` — the account of the invocations.

Main results:

* `Caching.System.herd_cases` — what a step of a call means to the account of its key;
* `Caching.invocations_accounted` — **every invocation is accounted for**, in every run.
-/

import Pysilience.Cache.Coalescing
import Pysilience.Cache.Transparency

set_option relaxedAutoImplicit false
set_option autoImplicit false

namespace Caching

open Python Transition SingleFlight

universe u v w x y z t

variable {T : Type t} {K : Type u} {V : Type v} {Exc : Type w} {B : Type x} {D : Type y}

/-! ### The account -/

/-- The backend stores what is put.  In a good state lookups do not raise, a value that was put is
held, and a `put` that raises adds nothing; and all states that are reached from good ones are. -/
structure Storing (ops : CacheBackend K V Exc B D) (ttl : Option ℚ) (Holds : B → K → V → Prop)
    (Good : B → Prop) : Prop where
  get_ok : ∀ b k, Good b → ∃ r, (ops.get b k).1 = .ok r
  get_good : ∀ b k, Good b → Good (ops.get b k).2
  put_holds : ∀ b k v, Good b → (ops.put b k v ttl).1 = .ok () → Holds (ops.put b k v ttl).2 k v
  put_raises : ∀ b k v e, Good b → (ops.put b k v ttl).1 = .error e →
    ∀ l w, Holds (ops.put b k v ttl).2 l w → Holds b l w
  put_good : ∀ b k v, Good b → Good (ops.put b k v ttl).2
  delete_good : ∀ b k, Good b → Good (ops.delete b k).2
  clear_good : ∀ b, Good b → Good (ops.clear b).2
  drift_good : ∀ d b, Good b → Good (ops.drift d b)

/-- The call is between reserving and releasing its key. -/
def Phase.owns (ph : Phase V Exc) : Bool := ph.syncOwns || ph.asyncOwns

/-- The call has raised. -/
def Phase.hasRaised : Phase V Exc → Bool
  | .raised _ => true
  | _ => false

/-- The function was invoked. -/
def Note.isInvoked : Note V → Bool
  | .invoked => true
  | .stored _ => false

/-- How often functions were invoked for the key. -/
def invocations [DecidableEq K] (key : K) (log : List (Entry T K V)) : ℕ :=
  log.countP fun
    | .call _ k note => decide (k = key) && note.isInvoked
    | .invalidated _ => false

/-- The callers of a cache, how often a computation for the key has come to nothing, and how often
the backend has lost the value of the key. -/
structure Herd (T : Type t) (K : Type u) (V : Type v) (Exc : Type w) (B : Type x) where
  system : System T K V Exc B
  failed : ℕ
  lost : ℕ

section Machine

variable [DecidableEq K] [DecidableEq T] {Cls : Type z} [Exceptions Exc Cls]

/-- A lookup would find a value for the key. -/
def Cache.present (cache : Cache K V Exc B D) (b : B) (key : K) : Bool :=
  match (cache.ops.get b key).1 with
  | .ok (some _) => true
  | _ => false

/-- The step ends the computation for the key with an exception. -/
def System.fails (s s' : System T K V Exc B) (key : K) : Action T K V Exc D → Bool
  | .advance caller _ =>
      match s.calls caller, s'.calls caller with
      | some c, some d => decide (c.key = key) && c.phase.owns && d.phase.hasRaised
      | _, _ => false
  | _ => false

/-- One step, with what it means to the key. -/
def Herd.step (cache : Cache K V Exc B D) (key : K) (h : Herd T K V Exc B)
    (a : Action T K V Exc D) : Option (Herd T K V Exc B) :=
  (h.system.step cache a).map fun s =>
    { system := s
      failed := if h.system.fails s key a then h.failed + 1 else h.failed
      lost :=
        if cache.present h.system.state.backend key && !cache.present s.state.backend key then
          h.lost + 1
        else h.lost }

/-- The callers of a cache, seen from one key. -/
def herd (T : Type t) [DecidableEq T] {Cls : Type z} [Exceptions Exc Cls]
    (cache : Cache K V Exc B D) (key : K) (backend : B) :
    Machine (Herd T K V Exc B) (Action T K V Exc D) where
  init := ⟨.init backend, 0, 0⟩
  step := Herd.step cache key

end Machine

/-- The path of the call that begins. -/
def Action.begins : Action T K V Exc D → Option Path
  | .execute .. => some .sync
  | .executeAsync .. => some .async
  | _ => none

/-- The side condition on a step: all calls are on one path. -/
def OnPath (path : Path) (_ : Herd T K V Exc B) (a : Action T K V Exc D) : Prop :=
  ∀ p, a.begins = some p → p = path

/-! ### What a step means to the account -/

section Steps

variable [DecidableEq K] {Cls : Type z} [Exceptions Exc Cls] {cache : Cache K V Exc B D}
  {Holds : B → K → V → Prop} {Good : B → Prop}

/-- What the step of a call means to the account of its key. -/
inductive HerdCase (cache : Cache K V Exc B D) (Holds : B → K → V → Prop) (cs : CacheState K B)
    (key : K) (ph : Phase V Exc) (m : Moved K V Exc B) : Prop
  /-- Nothing. -/
  | quiet : m.phase.owns = ph.owns → (ph.owns && m.phase.hasRaised) = false →
      m.notes.countP Note.isInvoked = 0 →
      (∀ l w, Holds m.state.backend l w → Holds cs.backend l w) →
      HerdCase cache Holds cs key ph m
  /-- It has found nothing, reserved the key and invoked its function. -/
  | reserves : ph.owns = false → m.phase.owns = true → m.phase.hasRaised = false →
      m.notes.countP Note.isInvoked = 1 →
      (ph.fits .sync cache.isMemory = true → key ∉ cs.inflight) →
      (ph.fits .async cache.isMemory = true → cs.asyncInflight key = none) →
      (∀ v, ¬ Holds cs.backend key v) →
      (∀ l w, Holds m.state.backend l w → Holds cs.backend l w) → HerdCase cache Holds cs key ph m
  /-- Its computation has come to nothing. -/
  | raises : ph.owns = true → m.phase.owns = false → m.phase.hasRaised = true →
      m.notes.countP Note.isInvoked = 0 →
      (∀ l w, Holds m.state.backend l w → Holds cs.backend l w) →
      HerdCase cache Holds cs key ph m
  /-- It has stored its value. -/
  | stores (v : V) : ph.owns = true → m.phase.owns = false → m.phase.hasRaised = false →
      m.notes.countP Note.isInvoked = 0 → Holds m.state.backend key v →
      (∀ l w, l ≠ key → Holds m.state.backend l w → Holds cs.backend l w) →
      HerdCase cache Holds cs key ph m

omit [DecidableEq K] in
/-- A thread, or a coroutine with a `MemoryBackend`, awaits neither `aget` nor `aput`. -/
theorem fits_of_path {path : Path} {ph : Phase V Exc} (hpath : path = .sync ∨ cache.isMemory = true)
    (hfits : ph.fits path cache.isMemory = true) :
    ph.awaitsPut = false ∧ ph ≠ .getting ∧ ∀ r, ph ≠ .gotten r := by
  have hio : ¬ (path == .async && !cache.isMemory) = true := by
    rcases hpath with rfl | hm
    · exact Bool.false_ne_true
    · rw [hm]
      simp
  refine ⟨?_, ?_, fun r => ?_⟩
  · cases ph with
    | putting | put => exact absurd hfits hio
    | _ => rfl
  · rintro rfl
    exact hio hfits
  · rintro rfl
    exact hio hfits

omit [DecidableEq K] in
/-- The lookup of a coroutine, where it is under the lock. -/
theorem lookup_of_path {path : Path} {ph : Phase V Exc}
    (hpath : path = .sync ∨ cache.isMemory = true)
    (hfits : ph.fits path cache.isMemory = true) {cs : CacheState K B} {key : K}
    {result : Except Exc (Option V)} {b : B} (hl : cache.AsyncLookup cs key ph result b) :
    cache.ops.get cs.backend key = (result, b) ∧ ph.owns = false ∧
      ph.fits .sync cache.isMemory = false := by
  cases hl with
  | first _ _ hg => exact ⟨hg, rfl, rfl⟩
  | again _ _ _ _ _ hg => exact ⟨hg, rfl, rfl⟩
  | gotten => exact absurd rfl ((fits_of_path hpath hfits).2.2 _)

/-- **What a step of a call means to the account of its key**, for a thread or for a coroutine with
a `MemoryBackend`. -/
theorem System.herd_cases (hb : LawfulBackend cache.ops Holds)
    (hs : Storing cache.ops cache.config.ttl Holds Good) {cs : CacheState K B}
    (hgood : Good cs.backend) {key : K} {ph : Phase V Exc} {ev : CallEvent V Exc}
    {m : Moved K V Exc B} {path : Path} (hpath : path = .sync ∨ cache.isMemory = true)
    (hfits : ph.fits path cache.isMemory = true) (h : cache.AdvanceCase cs key ph ev m) :
    HerdCase cache Holds cs key ph m ∧ Good m.state.backend := by
  have hget : ∀ {r b}, cache.ops.get cs.backend key = (r, b) →
      Good b ∧ ∀ l w, Holds b l w → Holds cs.backend l w := by
    intro r b hg
    have hbackend : (cache.ops.get cs.backend key).2 = b := by rw [hg]
    exact ⟨hbackend ▸ hs.get_good _ _ hgood,
      fun l w hw => hb.get.keeps _ key _ _ (hbackend.symm ▸ hw)⟩
  have hput : ∀ {v r b}, cache.ops.put cs.backend key v cache.config.ttl = (r, b) →
      Good b ∧ (r = .ok () → Holds b key v ∧ ∀ l w, l ≠ key → Holds b l w → Holds cs.backend l w) ∧
        ∀ e, r = .error e → ∀ l w, Holds b l w → Holds cs.backend l w := by
    intro v r b hp
    have hresult : (cache.ops.put cs.backend key v cache.config.ttl).1 = r := by rw [hp]
    have hbackend : (cache.ops.put cs.backend key v cache.config.ttl).2 = b := by rw [hp]
    subst hbackend
    refine ⟨hs.put_good _ _ _ hgood, fun hr => ⟨hs.put_holds _ _ _ hgood (hresult.trans hr), ?_⟩,
      fun e hr => hs.put_raises _ _ _ e hgood (hresult.trans hr)⟩
    intro l w hl hw
    exact (hb.put_adds _ _ _ _ _ _ hw).resolve_right fun heq => hl heq.1
  cases h with
  | hit v b hg | getRaises e b hg | wait b hg => exact ⟨.quiet rfl rfl rfl (hget hg).2, (hget hg).1⟩
  | reserve b hg hk =>
      exact ⟨.reserves rfl rfl rfl rfl (fun _ => hk) nofun (hb.get.miss _ _ (by rw [hg]))
        (hget hg).2, (hget hg).1⟩
  | finish | failed => exact ⟨.quiet rfl rfl rfl fun _ _ hw => hw, hgood⟩
  | escaped | unreserved | asyncEscaped =>
      exact ⟨.raises rfl rfl rfl rfl fun _ _ hw => hw, hgood⟩
  | stored v b hp =>
      obtain ⟨hgood', hstored, -⟩ := hput hp
      exact ⟨.stores v rfl rfl rfl rfl (hstored rfl).1 (hstored rfl).2, hgood'⟩
  | putRaises v e b hp | asyncPutRaises v e b hp =>
      obtain ⟨hgood', -, hraised⟩ := hput hp
      exact ⟨.raises rfl rfl rfl rfl (hraised e rfl), hgood'⟩
  | asyncHit ph v b hl | asyncGetRaises ph v b hl | asyncWait ph b event hl =>
      obtain ⟨hg, howns, -⟩ := lookup_of_path hpath hfits hl
      exact ⟨.quiet howns.symm (by rw [howns]; rfl) rfl (hget hg).2, (hget hg).1⟩
  | asyncReserve ph b hl hn =>
      obtain ⟨hg, howns, hsync⟩ := lookup_of_path hpath hfits hl
      exact ⟨.reserves howns rfl rfl rfl (fun h => absurd h (by rw [hsync]; exact nofun))
        (fun _ => hn) (hb.get.miss _ _ (by rw [hg])) (hget hg).2, (hget hg).1⟩
  | retry event hev hm =>
      refine absurd hfits ?_
      rcases hpath with rfl | hpath
      · exact Bool.false_ne_true
      · rw [hpath] at hm
        cases hm
  | asyncFinish v =>
      refine ⟨.quiet ?_ ?_ rfl fun _ _ hw => hw, hgood⟩ <;> cases cache.isMemory <;> rfl
  | asyncFailed e =>
      rw [CacheState.asyncUnreserve_backend]
      refine ⟨.raises rfl rfl rfl rfl fun _ _ hw => ?_, hgood⟩
      rwa [CacheState.asyncUnreserve_backend] at hw
  | asyncStored v b hp =>
      obtain ⟨hgood', hstored, -⟩ := hput hp
      rw [CacheState.asyncUnreserve_backend]
      refine ⟨.stores v rfl rfl rfl rfl ?_ fun l w hl hw => ?_, hgood'⟩
      · rw [CacheState.asyncUnreserve_backend]
        exact (hstored rfl).1
      · rw [CacheState.asyncUnreserve_backend] at hw
        exact (hstored rfl).2 l w hl hw
  | aget => exact absurd rfl (fits_of_path hpath hfits).2.1
  | aput | putDone | putFailed => exact absurd (fits_of_path hpath hfits).1 nofun
  | putCancelled ph e hph =>
      rw [(fits_of_path hpath hfits).1] at hph
      cases hph
  | cancelled ph e hph =>
      have howns : ph.owns = false := by
        cases ph with
        | suspended | getting | gotten => rfl
        | _ => cases hph
      exact ⟨.quiet howns.symm (by rw [howns]; rfl) rfl fun _ _ hw => hw, hgood⟩

end Steps

/-! ### The account is kept -/

section Runs

variable [DecidableEq K] [DecidableEq T] {Cls : Type z} [Exceptions Exc Cls]
  {cache : Cache K V Exc B D} {Holds : B → K → V → Prop} {Good : B → Prop} {path : Path} {key : K}

omit [DecidableEq T] [DecidableEq K] in
/-- A lookup would find a value exactly if one is held. -/
theorem Cache.present_iff (hb : LawfulBackend cache.ops Holds)
    (hs : Storing cache.ops cache.config.ttl Holds Good) {b : B} (hgood : Good b) :
    cache.present b key = true ↔ ∃ v, Holds b key v := by
  obtain ⟨r, hr⟩ := hs.get_ok b key hgood
  unfold Cache.present
  rw [hr]
  cases r with
  | some v => exact ⟨fun _ => ⟨v, hb.get.hit _ _ _ hr⟩, fun _ => rfl⟩
  | none => exact ⟨nofun, fun ⟨v, hv⟩ => absurd hv (hb.get.miss _ _ hr v)⟩

/-- The call is between reserving and releasing the key. -/
def System.Owner (s : System T K V Exc B) (caller : T) (k : K) : Prop :=
  ∃ c, s.calls caller = some c ∧ c.key = k ∧ c.phase.owns = true

/-- All calls are on one path. -/
def System.PathOk (path : Path) (s : System T K V Exc B) : Prop :=
  ∀ caller c, s.calls caller = some c → c.path = path

/-- The account of the invocations for the key: while nobody computes it, all but the one whose
value is held have failed or are lost; while somebody does, no value is held. -/
structure Herd.Account (cache : Cache K V Exc B D) (Holds : B → K → V → Prop) (key : K)
    (h : Herd T K V Exc B) : Prop where
  idle : (∀ t, ¬ h.system.Owner t key) → invocations key h.system.log =
    h.failed + h.lost + if cache.present h.system.state.backend key then 1 else 0
  busy : ∀ t, h.system.Owner t key → (∀ v, ¬ Holds h.system.state.backend key v) ∧
    invocations key h.system.log = h.failed + h.lost + 1

omit [DecidableEq T] in
/-- A step that moves no owner, invokes no function for the key and adds no value for it. -/
theorem Herd.Account.keep (hb : LawfulBackend cache.ops Holds)
    (hs : Storing cache.ops cache.config.ttl Holds Good) {h h' : Herd T K V Exc B}
    (hacc : h.Account cache Holds key) (hgood : Good h.system.state.backend)
    (hgood' : Good h'.system.state.backend)
    (howner : ∀ t, h'.system.Owner t key ↔ h.system.Owner t key)
    (hlog : invocations key h'.system.log = invocations key h.system.log)
    (hholds : ∀ v, Holds h'.system.state.backend key v → Holds h.system.state.backend key v)
    (hfailed : h'.failed = h.failed)
    (hlost : h'.lost = if cache.present h.system.state.backend key &&
      !cache.present h'.system.state.backend key then h.lost + 1 else h.lost) :
    h'.Account cache Holds key := by
  have hpresent : cache.present h.system.state.backend key = true ↔ _ :=
    Cache.present_iff hb hs hgood
  have hpresent' : cache.present h'.system.state.backend key = true ↔ _ :=
    Cache.present_iff hb hs hgood'
  refine ⟨fun hnone => ?_, fun t ht => ?_⟩
  · have hidle := hacc.idle fun t ht => hnone t ((howner t).2 ht)
    rw [hlog, hidle, hfailed, hlost]
    cases hp' : cache.present h'.system.state.backend key with
    | false => cases cache.present h.system.state.backend key <;> simp [Nat.add_assoc]
    | true =>
        obtain ⟨v, hv⟩ := hpresent'.1 hp'
        rw [hpresent.2 ⟨v, hholds v hv⟩]
        simp
  · obtain ⟨hnot, hbusy⟩ := hacc.busy t ((howner t).1 ht)
    have hp : cache.present h.system.state.backend key = false := by
      rw [Bool.eq_false_iff]
      intro hp
      obtain ⟨v, hv⟩ := hpresent.1 hp
      exact hnot v hv
    refine ⟨fun v hv => hnot v (hholds v hv), ?_⟩
    rw [hlog, hbusy, hfailed, hlost, hp]
    rfl

/-! ### The owners of a key -/

namespace System

omit [DecidableEq K] [DecidableEq T] in
/-- On one path every owner is one of that path. -/
theorem Owner.of_path {s : System T K V Exc B} (hpath : s.PathOk path) (hfits : FitsOk cache s)
    {t : T} (h : s.Owner t key) :
    path = .sync ∧ s.SyncOwner t key ∨ path = .async ∧ s.AsyncOwner t key := by
  obtain ⟨c, hc, hkey, howns⟩ := h
  have hfit := hfits t c hc
  rw [hpath t c hc] at hfit
  rcases Bool.or_eq_true_iff.1 howns with howns | howns
  · refine .inl ⟨?_, c, hc, hkey, howns⟩
    generalize c.phase = ph at hfit howns
    cases ph with
    | computing | storing | unreserving => exact eq_of_beq hfit
    | _ => cases howns
  · refine .inr ⟨?_, c, hc, hkey, howns⟩
    generalize c.phase = ph at hfit howns
    cases ph with
    | awaiting => exact eq_of_beq hfit
    | asyncStoring | putting | put => exact eq_of_beq (Bool.and_eq_true_iff.1 hfit).1
    | _ => cases howns

/-- A key has one owner at most. -/
theorem Owner.unique {backend : B} {s : System T K V Exc B}
    (hr : (callers T cache backend).Reachable s) (hpath : s.PathOk path) {t u : T}
    (ht : s.Owner t key) (hu : s.Owner u key) : t = u := by
  have hfits := fitsOk_of_reachable hr
  rcases ht.of_path hpath hfits with ⟨hp, ht⟩ | ⟨hp, ht⟩
  · rcases hu.of_path hpath hfits with ⟨-, hu⟩ | ⟨hp', -⟩
    · exact (syncOrderly_of_reachable hr).unique t u key (syncTable_computing.2 ht)
        (syncTable_computing.2 hu)
    · cases hp.symm.trans hp'
  · rcases hu.of_path hpath hfits with ⟨hp', -⟩ | ⟨-, hu⟩
    · cases hp.symm.trans hp'
    · exact (asyncOrderly_of_reachable hr).unique t u key (asyncTable_computing.2 ht)
        (asyncTable_computing.2 hu)

/-- A key that is not reserved has no owner. -/
theorem not_owner {backend : B} {s : System T K V Exc B}
    (hr : (callers T cache backend).Reachable s) (hpath : s.PathOk path)
    (hsync : path = .sync → key ∉ s.state.inflight)
    (hasync : path = .async → s.state.asyncInflight key = none) (t : T) : ¬ s.Owner t key := by
  intro ht
  rcases ht.of_path hpath (fitsOk_of_reachable hr) with ⟨hp, ht⟩ | ⟨hp, ht⟩
  · exact hsync hp ((syncOrderly_of_reachable hr).reserved t key (syncTable_computing.2 ht))
  · exact (asyncOrderly_of_reachable hr).reserved t key (asyncTable_computing.2 ht) (hasync hp)

omit [DecidableEq T] [DecidableEq K] in
/-- A call that was notified owns what it owned: nothing. -/
theorem wake_owns (c : Call K V Exc) : c.wake.phase.owns = c.phase.owns := by
  rcases c.wake_phase with ⟨hb, hw⟩ | hw
  · rw [hw, hb]
    rfl
  · rw [hw]

omit [DecidableEq K] in
/-- The owners after a step of a call. -/
theorem owner_moved {s : System T K V Exc B} {caller : T} {c : Call K V Exc}
    (m : Moved K V Exc B) (t : T) :
    (s.moved caller c m).Owner t key ↔
      t = caller ∧ c.key = key ∧ m.phase.owns = true ∨ t ≠ caller ∧ s.Owner t key := by
  by_cases ht : t = caller
  · subst ht
    simp [Owner, moved_calls_self]
  · simp only [ht, false_and, false_or, ne_eq, not_false_eq_true, true_and, Owner, moved,
      Function.update_of_ne ht]
    split
    · cases hc : s.calls t with
      | none => simp [notifyAll, hc]
      | some d => simp [notifyAll, hc, wake_owns, Call.wake_key]
    · rfl

omit [DecidableEq K] in
/-- A step of a call with another key, or one that neither reserves nor releases, moves no owner. -/
theorem owner_moved_of_same {s : System T K V Exc B} {caller : T} {c : Call K V Exc}
    (hc : s.calls caller = some c) {m : Moved K V Exc B}
    (hsame : c.key = key → m.phase.owns = c.phase.owns) (t : T) :
    (s.moved caller c m).Owner t key ↔ s.Owner t key := by
  rw [owner_moved]
  by_cases ht : t = caller
  · subst ht
    simp only [Owner, hc, Option.some_inj, ne_eq, not_true_eq_false, false_and, or_false, true_and]
    constructor
    · rintro ⟨hkey, howns⟩
      exact ⟨c, rfl, hkey, hsame hkey ▸ howns⟩
    · rintro ⟨_, rfl, hkey, howns⟩
      exact ⟨hkey, hsame hkey ▸ howns⟩
  · simp [ht]

omit [DecidableEq K] in
/-- A call that begins owns nothing. -/
theorem owner_begin {s : System T K V Exc B} {caller : T} (hnew : s.calls caller = none) {k : K}
    {p : Path} {ph : Phase V Exc} (hph : ph.owns = false) (t : T) :
    (s.begin caller k p ph).Owner t key ↔ s.Owner t key := by
  by_cases ht : t = caller
  · subst ht
    simp [Owner, begin, hnew, hph]
  · simp [Owner, begin, ht]

/-- All calls stay on one path. -/
theorem PathOk.step {s s' : System T K V Exc B} {a : Action T K V Exc D} (hpath : s.PathOk path)
    (ha : ∀ p, a.begins = some p → p = path)
    (hstep : s.step cache a = some s') : s'.PathOk path := by
  intro u d hd
  cases step_cases hstep with
  | execute caller k hnew =>
      rcases begin_calls hd with ⟨-, rfl⟩ | ⟨-, hd⟩
      · exact ha _ rfl
      · exact hpath u d hd
  | executeAsync caller k hnew =>
      rcases begin_calls hd with ⟨-, rfl⟩ | ⟨-, hd⟩
      · exact ha _ rfl
      · exact hpath u d hd
  | advance caller ev c m hc hm =>
      by_cases hu : u = caller
      · subst hu
        rw [moved_calls_self, Option.some_inj] at hd
        subst hd
        exact hpath u c hc
      · obtain ⟨d₀, hd₀, rfl | rfl⟩ := moved_calls_of_ne hu hd
        · exact hpath u d hd₀
        · rcases d₀.wake_phase with ⟨-, hw⟩ | hw
          · rw [hw]
            exact hpath u d₀ hd₀
          · rw [hw]
            exact hpath u d₀ hd₀
  | invalidate | invalidateAll | drift => exact hpath u d hd

end System

/-! ### What a step does to the account -/

omit [DecidableEq T] in
/-- The invocations after a step of a call. -/
theorem invocations_append (log : List (Entry T K V)) (caller : T) (k : K) (notes : List (Note V)) :
    invocations key (log ++ notes.map (.call caller k)) =
      invocations key log + if k = key then notes.countP Note.isInvoked else 0 := by
  unfold invocations
  rw [List.countP_append, List.countP_map]
  by_cases hk : k = key
  · rw [if_pos hk]
    congr 1
    exact List.countP_congr fun note _ => by simp [hk]
  · rw [if_neg hk, Nat.add_left_cancel_iff, List.countP_eq_zero]
    simp [hk]

omit [DecidableEq T] in
/-- An invalidation invokes nothing. -/
theorem invocations_invalidated {R : Type z} (log : List (Entry T K V)) (k : Option K)
    (result : Except Exc R) :
    invocations key (log ++ invalidationEntries k result) = invocations key log := by
  unfold invocations
  cases result <;> simp [invalidationEntries]

/-- What a step of a call means to the account. -/
theorem System.fails_moved {s : System T K V Exc B} {caller : T} {c : Call K V Exc}
    (hc : s.calls caller = some c) (m : Moved K V Exc B) (ev : CallEvent V Exc) :
    s.fails (s.moved caller c m) key (.advance caller ev : Action T K V Exc D) =
      (decide (c.key = key) && c.phase.owns && m.phase.hasRaised) := by
  unfold System.fails
  simp only [hc, System.moved_calls_self]

omit [DecidableEq T] [DecidableEq K] in
/-- Where no value is held, a lookup would find none. -/
theorem Cache.present_eq_false (hb : LawfulBackend cache.ops Holds)
    (hs : Storing cache.ops cache.config.ttl Holds Good) {b : B} (hgood : Good b)
    (hnot : ∀ v, ¬ Holds b key v) : cache.present b key = false := by
  rw [Bool.eq_false_iff]
  intro hp
  obtain ⟨v, hv⟩ := (Cache.present_iff hb hs hgood).1 hp
  exact hnot v hv

/-- A step of a call keeps the account. -/
theorem Herd.Account.moved (hb : LawfulBackend cache.ops Holds)
    (hs : Storing cache.ops cache.config.ttl Holds Good) {backend : B} {h : Herd T K V Exc B}
    (hr : (callers T cache backend).Reachable h.system) (hpath : h.system.PathOk path)
    (hgood : Good h.system.state.backend) (hacc : h.Account cache Holds key) {caller : T}
    {c : Call K V Exc} (hc : h.system.calls caller = some c) {ev : CallEvent V Exc}
    {m : Moved K V Exc B} (hgood' : Good m.state.backend)
    (hcase : HerdCase cache Holds h.system.state c.key c.phase m)
    (hfits : c.phase.fits path cache.isMemory = true) {h' : Herd T K V Exc B}
    (hsystem : h'.system = h.system.moved caller c m)
    (hfailed : h'.failed = if h.system.fails h'.system key (.advance caller ev : Action T K V Exc D)
      then h.failed + 1 else h.failed)
    (hlost : h'.lost = if cache.present h.system.state.backend key &&
      !cache.present h'.system.state.backend key then h.lost + 1 else h.lost) :
    h'.Account cache Holds key := by
  obtain ⟨s', failed', lost'⟩ := h'
  subst hsystem
  rw [System.fails_moved hc] at hfailed
  by_cases hk : c.key = key
  case neg =>
    refine hacc.keep hb hs hgood hgood'
      (System.owner_moved_of_same hc fun hkey => absurd hkey hk) ?_ ?_ ?_ hlost
    · exact (invocations_append ..).trans (by rw [if_neg hk, Nat.add_zero])
    · intro v hv
      cases hcase with
      | quiet _ _ _ hkeep | reserves _ _ _ _ _ _ _ hkeep | raises _ _ _ _ hkeep =>
          exact hkeep _ _ hv
      | stores _ _ _ _ _ _ hkeep => exact hkeep _ _ (Ne.symm hk) hv
    · rw [hfailed, decide_eq_false hk]
      rfl
  subst hk
  rw [decide_eq_true rfl, Bool.true_and] at hfailed
  have hlog : ∀ n, m.notes.countP Note.isInvoked = n →
      invocations c.key (h.system.moved caller c m).log = invocations c.key h.system.log + n :=
    fun n hn => (invocations_append ..).trans (by rw [if_pos rfl, hn])
  have hself : c.phase.owns = true → h.system.Owner caller c.key := fun ho => ⟨c, hc, rfl, ho⟩
  -- the only owner has released the key
  have hreleased : c.phase.owns = true → m.phase.owns = false →
      ∀ t, ¬ (h.system.moved caller c m).Owner t c.key := by
    intro hbefore hafter t ht
    rcases (System.owner_moved m t).1 ht with ⟨-, -, howns⟩ | ⟨hne, ht⟩
    · rw [hafter] at howns
      cases howns
    · exact hne (ht.unique hr hpath (hself hbefore))
  cases hcase with
  | quiet howns hraised hnotes hkeep =>
      refine hacc.keep hb hs hgood hgood' (System.owner_moved_of_same hc fun _ => howns)
        (hlog 0 hnotes) (hkeep _) ?_ hlost
      rw [hfailed, hraised]
      rfl
  | reserves hbefore hafter hraised hnotes hsync hasync hmiss hkeep =>
      have hnone : ∀ t, ¬ h.system.Owner t c.key := by
        refine System.not_owner hr hpath (fun hp => hsync ?_) fun hp => hasync ?_ <;>
          rwa [← hp]
      have hidle := hacc.idle hnone
      have hp := Cache.present_eq_false hb hs hgood hmiss
      rw [hp] at hidle hlost
      rw [hbefore] at hfailed
      refine ⟨fun hnone' => ?_, fun t _ => ⟨fun v hv => hmiss v (hkeep _ _ hv), ?_⟩⟩
      · exact absurd ((System.owner_moved m caller).2 (.inl ⟨rfl, rfl, hafter⟩)) (hnone' caller)
      · rw [hlog 1 hnotes, hidle, hfailed, hlost]
        rfl
  | raises hbefore hafter hraised hnotes hkeep =>
      obtain ⟨hmiss, hbusy⟩ := hacc.busy caller (hself hbefore)
      have hp := Cache.present_eq_false hb hs hgood hmiss
      have hp' := Cache.present_eq_false hb hs hgood' fun v hv => hmiss v (hkeep _ _ hv)
      rw [hp] at hlost
      rw [hbefore, hraised] at hfailed
      have hfailed : failed' = h.failed + 1 := hfailed
      have hlost : lost' = h.lost := hlost
      refine ⟨fun _ => ?_, fun t ht => absurd ht (hreleased hbefore hafter t)⟩
      change _ = failed' + lost' + if cache.present m.state.backend c.key then 1 else 0
      rw [hlog 0 hnotes, hbusy, hp', hfailed, hlost, if_neg Bool.false_ne_true]
      omega
  | stores v hbefore hafter hraised hnotes hstored hkeep =>
      obtain ⟨hmiss, hbusy⟩ := hacc.busy caller (hself hbefore)
      have hp := Cache.present_eq_false hb hs hgood hmiss
      have hp' := (Cache.present_iff hb hs hgood').2 ⟨v, hstored⟩
      rw [hp] at hlost
      rw [hbefore, hraised] at hfailed
      have hfailed : failed' = h.failed := hfailed
      have hlost : lost' = h.lost := hlost
      refine ⟨fun _ => ?_, fun t ht => absurd ht (hreleased hbefore hafter t)⟩
      change _ = failed' + lost' + if cache.present m.state.backend c.key then 1 else 0
      rw [hlog 0 hnotes, hbusy, hp', hfailed, hlost]
      rfl

omit [DecidableEq T] in
/-- A change of the backend that adds no value keeps the account. -/
theorem Herd.Account.withBackend (hb : LawfulBackend cache.ops Holds)
    (hs : Storing cache.ops cache.config.ttl Holds Good) {h h' : Herd T K V Exc B}
    (hacc : h.Account cache Holds key) (hgood : Good h.system.state.backend) {b : B}
    (hgood' : Good b) (hkeep : ∀ v, Holds b key v → Holds h.system.state.backend key v)
    {entries : List (Entry T K V)}
    (hentries : invocations key (h.system.log ++ entries) = invocations key h.system.log)
    (hsystem : h'.system = h.system.withBackend b entries) (hfailed : h'.failed = h.failed)
    (hlost : h'.lost = if cache.present h.system.state.backend key &&
      !cache.present h'.system.state.backend key then h.lost + 1 else h.lost) :
    h'.Account cache Holds key := by
  obtain ⟨s', failed', lost'⟩ := h'
  subst hsystem
  exact hacc.keep hb hs hgood hgood' (fun t => Iff.rfl) hentries hkeep hfailed hlost

/-- What the runs keep. -/
structure Herd.Ok (cache : Cache K V Exc B D) (Holds : B → K → V → Prop) (Good : B → Prop)
    (path : Path) (key : K) (backend : B) (h : Herd T K V Exc B) : Prop where
  reachable : (callers T cache backend).Reachable h.system
  path : h.system.PathOk path
  good : Good h.system.state.backend
  account : h.Account cache Holds key

/-- **Every step keeps the account.** -/
theorem Herd.Ok.step (hb : LawfulBackend cache.ops Holds)
    (hs : Storing cache.ops cache.config.ttl Holds Good)
    (hpath : path = .sync ∨ cache.isMemory = true) {backend : B} {h h' : Herd T K V Exc B}
    (hi : h.Ok cache Holds Good path key backend) {a : Action T K V Exc D} (ha : OnPath path h a)
    (hstep : h.step cache key a = some h') : h'.Ok cache Holds Good path key backend := by
  obtain ⟨s', hs', rfl⟩ := Option.map_eq_some_iff.1 hstep
  have hr' := hi.reachable.step hs'
  have hpath' : s'.PathOk path := hi.path.step ha hs'
  suffices hrest : Good s'.state.backend ∧ Herd.Account cache Holds key
      { system := s'
        failed := if h.system.fails s' key a then h.failed + 1 else h.failed
        lost := if cache.present h.system.state.backend key && !cache.present s'.state.backend key
          then h.lost + 1 else h.lost } from ⟨hr', hpath', hrest.1, hrest.2⟩
  cases System.step_cases hs' with
  | execute caller k hnew =>
      exact ⟨hi.good, hi.account.keep hb hs hi.good hi.good (System.owner_begin hnew rfl) rfl
        (fun _ hv => hv) rfl rfl⟩
  | executeAsync caller k hnew =>
      have hfirst : cache.firstPhase.owns = false := by
        rcases cache.firstPhase_cases with hf | hf <;> rw [hf] <;> rfl
      exact ⟨hi.good, hi.account.keep hb hs hi.good hi.good (System.owner_begin hnew hfirst) rfl
        (fun _ hv => hv) rfl rfl⟩
  | advance caller ev c m hc hm =>
      have hfits := System.fitsOk_of_reachable hi.reachable caller c hc
      rw [hi.path caller c hc] at hfits
      obtain ⟨hcase, hgood'⟩ := System.herd_cases hb hs hi.good hpath hfits
        (Cache.advance_cases hm)
      exact ⟨hgood', hi.account.moved hb hs hi.reachable hi.path hi.good hc hgood' hcase hfits rfl
        rfl rfl⟩
  | invalidate k =>
      have hgood' := hs.delete_good _ k hi.good
      exact ⟨hgood', hi.account.withBackend hb hs hi.good hgood'
        (fun _ hv => hb.delete_keeps _ k _ _ hv) (invocations_invalidated ..) rfl rfl rfl⟩
  | invalidateAll =>
      have hgood' := hs.clear_good _ hi.good
      exact ⟨hgood', hi.account.withBackend hb hs hi.good hgood'
        (fun _ hv => hb.clear_keeps _ _ _ hv) (invocations_invalidated ..) rfl rfl rfl⟩
  | drift d =>
      have hgood' := hs.drift_good d _ hi.good
      exact ⟨hgood', hi.account.withBackend hb hs hi.good hgood'
        (fun _ hv => hb.drift_keeps d _ _ _ hv) (by rw [List.append_nil]) rfl rfl rfl⟩

end Runs

/-- **Every invocation is accounted for.**  Let the backend be lawful and storing, and hold nothing
for a key at first.  Let threads call `execute`, or let coroutines call `execute_async` of a cache
with a `MemoryBackend`, with any keys and in any order, while anybody invalidates and the backend
drops entries; functions return or raise whatever they like, and `put` may raise too.  Count for the
key the computations that have come to nothing, and how often the backend has lost a value for it.
Then while nobody computes the key, its function has been invoked as often as these together, and
once more if a value is held; and while somebody does, no value is held, and it has been invoked
once more than that. -/
theorem invocations_accounted [DecidableEq K] [DecidableEq T] {Cls : Type z} [Exceptions Exc Cls]
    (cache : Cache K V Exc B D) (Holds : B → K → V → Prop) (Good : B → Prop)
    (hb : LawfulBackend cache.ops Holds) (hs : Storing cache.ops cache.config.ttl Holds Good)
    (backend : B) (hgood : Good backend) (key : K) (hempty : ∀ v, ¬ Holds backend key v)
    (path : Path) (hpath : path = .sync ∨ cache.isMemory = true)
    (as : List (Action T K V Exc D)) (h : Herd T K V Exc B)
    (hr : (herd T cache key backend).Run (OnPath path) as h) :
    ((∀ t, ¬ h.system.Owner t key) → invocations key h.system.log =
      h.failed + h.lost + if cache.present h.system.state.backend key then 1 else 0) ∧
    ∀ t, h.system.Owner t key → (∀ v, ¬ Holds h.system.state.backend key v) ∧
      invocations key h.system.log = h.failed + h.lost + 1 := by
  have hok : h.Ok cache Holds Good path key backend := by
    refine hr.invariant (I := fun h => h.Ok cache Holds Good path key backend) ?_
      fun _ _ _ _ _ hi ha hstep => hi.step hb hs hpath ha hstep
    refine ⟨⟨[], .nil⟩, nofun, hgood, fun _ => ?_, nofun⟩
    change 0 = 0 + 0 + if cache.present backend key then 1 else 0
    rw [Cache.present_eq_false hb hs hgood hempty]
    rfl
  exact ⟨hok.account.idle, hok.account.busy⟩

/-! ### In memory -/

/-- The backend in memory stores what is put. -/
theorem memoryBackend_storing [DecidableEq K] (keyError : Exc) (ttl : Option ℚ) :
    Storing (memoryBackend K V keyError) ttl MemoryBackend.HoldsNow MemoryBackend.Roomy := by
  have hretrieving := memoryBackend_retrieving (V := V) (K := K) keyError ttl
  have hput : ∀ (b : MemoryBackend K V × ℚ) k v, MemoryBackend.Roomy b →
      MemoryBackend.Roomy ((b.1.put k v b.2).2, b.2) := by
    intro b k v h
    unfold MemoryBackend.put
    split
    · exact h
    · split
      · exact h
      · exact h
  refine ⟨fun b k h => (hretrieving.get_good b k h).1, fun b k h => (hretrieving.get_good b k h).2,
    fun b k v h _ => ?_, fun b k v e h he => ?_, hput, fun b k h => ?_, fun _ h => h,
    fun _ _ h => h⟩
  · exact (memoryBackend_lawful keyError).get.hit _ _ _ (hretrieving.put_get b k v h).2
  · rw [(hretrieving.put_get b k v h).1] at he
    cases he
  · change MemoryBackend.Roomy ((b.1.delete k).2, b.2)
    unfold MemoryBackend.delete
    split <;> exact h

/-- The first thread fails, the second one computes the value, the third one finds it, and the
fourth one computes it again after an invalidation: three invocations. -/
theorem invocations_accounted_four_threads :
    ∃ h : Herd (Fin 4) ℕ ℕ Builtin (MemoryBackend ℕ ℕ × ℚ),
      h.failed = 1 ∧ h.lost = 1 ∧ invocations 7 h.system.log = 3 := by
  have hok : ∀ (h : Herd (Fin 4) ℕ ℕ Builtin (MemoryBackend ℕ ℕ × ℚ))
      (a : Action (Fin 4) ℕ ℕ Builtin {d : ℚ // 0 ≤ d}),
      (a.begins != some .async) = true → OnPath .sync h a := by
    intro h a ha p hp
    rw [hp] at ha
    cases p with
    | sync => rfl
    | async => cases ha
  obtain ⟨h, hr, hh⟩ := Machine.exists_run_of_exec
    (herd (Fin 4) tinyCache 7 (MemoryBackend.init, 0))
    (fun _ a => a.begins != some .async) hok
    [.execute 0 7, .execute 1 7, .advance 0 .turn, .advance 1 .turn,
      .advance 0 (.throw .valueError), .advance 0 .turn, .advance 1 .turn,
      .advance 1 (.finish 49), .advance 1 .turn, .execute 2 7, .advance 2 .turn, .invalidate 7,
      .execute 3 7, .advance 3 .turn]
    (fun h => decide (h.failed = 1 ∧ h.lost = 1) &&
      (h.system.calls 3).any fun c => c.key == 7 && c.phase.owns) (by decide +kernel)
  obtain ⟨hcounts, howner⟩ := Bool.and_eq_true_iff.1 hh
  obtain ⟨c, hc, howner⟩ := (Option.any_eq_true _ _).1 howner
  obtain ⟨hkey, howns⟩ := Bool.and_eq_true_iff.1 howner
  obtain ⟨hfailed, hlost⟩ := of_decide_eq_true hcounts
  obtain ⟨-, hbusy⟩ := invocations_accounted tinyCache MemoryBackend.HoldsNow MemoryBackend.Roomy
    (memoryBackend_lawful Builtin.keyError) (memoryBackend_storing Builtin.keyError _)
    (MemoryBackend.init, 0) ⟨by decide, nofun⟩ 7 (fun _ ⟨_, hmem, _⟩ => nomatch hmem) .sync
    (.inl rfl) _ h hr
  exact ⟨h, hfailed, hlost, by rw [(hbusy 3 ⟨c, hc, eq_of_beq hkey, howns⟩).2, hfailed, hlost]⟩

end Caching
