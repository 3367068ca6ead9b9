/-
A Redis server, as far as a cache uses it.

A database holds byte strings under string keys, some of which expire.  What a client can tell of a
database is the time of the server and what is there under a key; an item that has expired is not
there any more, whether or not the server has removed it yet.  A server is whatever has the commands
that a cache sends, and answers them as they are documented.  `SCAN` walks over the keys in pages;
what it promises about a full iteration is `Redis.Scanning`.

Main definitions:

* `Redis.Server` — the commands, and what is documented of them;
* `Redis.Database` — a database of a server;
* `Redis.Database.live`, `Redis.Database.get`, `Redis.Database.set`, `Redis.Database.setex`,
  `Redis.Database.delete`, `Redis.Database.wait` — the commands, and the passing of time;
* `Redis.Scanning` — the replies of full iterations;
* `Redis.Keyspace`, `Redis.keyspace` — a server that keeps its items in a dictionary.

Main results:

* `Redis.Database.live_set`, `Redis.Database.live_delete`, `Redis.Database.live_wait` and the like
  — what is there after a command.
-/

import Pysilience.Lib.OrderedDict
import Pysilience.Lib.Glob
import Pysilience.Serializer.CacheSerializer
import Mathlib.Algebra.Order.Field.Rat
import Mathlib.Data.NNRat.Defs

set_option relaxedAutoImplicit false
set_option autoImplicit false

namespace Redis

open Collections Glob Serializers

/-! ### Servers -/

/-- A stored value and the instant it expires at, if it does. -/
structure Item where
  value : Bytes
  expiresAt : Option ℚ
  deriving DecidableEq

/-- The item has not expired at the instant. -/
def Alive (now : ℚ) (item : Item) : Bool := item.expiresAt.all fun t => decide (now < t)

/-- The commands that a cache sends to a server, and what is documented of them. -/
structure Server where
  State : Type
  /-- A database without items. -/
  empty : State
  now : State → ℚ
  /-- The item under a key, unless it has expired. -/
  live : State → String → Option Item
  /-- `SET`. -/
  set : State → String → Bytes → State
  /-- `SETEX`. -/
  setex : State → String → ℤ → Bytes → State
  /-- `DEL`, and how many of the keys were there. -/
  delete : State → List String → ℕ × State
  /-- Time passes. -/
  wait : State → ℚ≥0 → State
  live_empty : ∀ l, live empty l = none
  alive : ∀ db l item, live db l = some item → Alive (now db) item = true
  live_set : ∀ db key value l,
    live (set db key value) l = if l = key then some ⟨value, none⟩ else live db l
  now_set : ∀ db key value, now (set db key value) = now db
  live_setex : ∀ db key seconds value l, 0 < seconds → live (setex db key seconds value) l =
    if l = key then some ⟨value, some (now db + seconds)⟩ else live db l
  /-- A time-to-live that is not positive is an error, and nothing is stored. -/
  setex_refused : ∀ db key seconds value, seconds ≤ 0 → setex db key seconds value = db
  now_setex : ∀ db key seconds value, now (setex db key seconds value) = now db
  live_delete : ∀ db keys l,
    live (delete db keys).2 l = if l ∈ keys then none else live db l
  delete_singleton : ∀ db key, (delete db [key]).1 = if (live db key).isSome then 1 else 0
  now_delete : ∀ db keys, now (delete db keys).2 = now db
  live_wait : ∀ db d l, live (wait db d) l = (live db l).filter (Alive (now db + d))
  now_wait : ∀ db d, now (wait db d) = now db + d

/-- A database of a server. -/
def Database (server : Server) : Type := server.State

namespace Database

variable {server : Server}

/-- A database without items. -/
def empty : Database server := server.empty

/-- The time of the server. -/
def now (db : Database server) : ℚ := server.now db

/-- The item under a key, unless it has expired. -/
def live (db : Database server) (key : String) : Option Item := server.live db key

/-- `GET`. -/
def get (db : Database server) (key : String) : Option Bytes := (db.live key).map Item.value

/-- `SET`. -/
def set (db : Database server) (key : String) (value : Bytes) : Database server :=
  server.set db key value

/-- `SETEX`. -/
def setex (db : Database server) (key : String) (seconds : ℤ) (value : Bytes) : Database server :=
  server.setex db key seconds value

/-- `DEL`: how many of the keys were there. -/
def delete (db : Database server) (keys : List String) : ℕ × Database server :=
  server.delete db keys

/-- Time passes. -/
def wait (db : Database server) (d : ℚ≥0) : Database server := server.wait db d

/-! ### What is there after a command -/

variable (db : Database server)

theorem live_empty (l : String) : (empty : Database server).live l = none := server.live_empty l

/-- An item that is there has not expired. -/
theorem alive_of_live {l : String} {item : Item} (h : db.live l = some item) :
    Alive db.now item = true :=
  server.alive db l item h

theorem live_set (key l : String) (value : Bytes) :
    (db.set key value).live l = if l = key then some ⟨value, none⟩ else db.live l :=
  server.live_set db key value l

@[simp] theorem set_now (key : String) (value : Bytes) : (db.set key value).now = db.now :=
  server.now_set db key value

theorem live_setex (key l : String) {seconds : ℤ} (h : 0 < seconds) (value : Bytes) :
    (db.setex key seconds value).live l =
      if l = key then some ⟨value, some (db.now + seconds)⟩ else db.live l :=
  server.live_setex db key seconds value l h

theorem setex_refused (key : String) {seconds : ℤ} (h : seconds ≤ 0) (value : Bytes) :
    db.setex key seconds value = db :=
  server.setex_refused db key seconds value h

@[simp] theorem setex_now (key : String) (seconds : ℤ) (value : Bytes) :
    (db.setex key seconds value).now = db.now :=
  server.now_setex db key seconds value

@[simp] theorem delete_now (keys : List String) : (db.delete keys).2.now = db.now :=
  server.now_delete db keys

theorem live_delete (keys : List String) (l : String) :
    (db.delete keys).2.live l = if l ∈ keys then none else db.live l :=
  server.live_delete db keys l

/-- The number of keys `DEL` removed, for a single key. -/
theorem delete_singleton (key : String) :
    (db.delete [key]).1 = if (db.live key).isSome then 1 else 0 :=
  server.delete_singleton db key

/-- An item that is there later was there before. -/
theorem live_wait (d : ℚ≥0) (l : String) :
    (db.wait d).live l = (db.live l).filter (Alive (db.now + d)) :=
  server.live_wait db d l

@[simp] theorem wait_now (d : ℚ≥0) : (db.wait d).now = db.now + d := server.now_wait db d

end Database

/-! ### Iterating over the keys -/

/-- The replies of full iterations `SCAN 0 MATCH pattern`, `SCAN cursor MATCH pattern`, … until the
cursor is 0 again: the `n`-th iteration, begun in a database, returns pages of keys that match the
pattern, and every such key that is there throughout is on one of them.  (While the iteration goes
on, only keys it has returned are removed.) -/
structure Scanning (server : Server) where
  pages : ℕ → Database server → String → List (List String)
  selects : ∀ n db pattern, ∀ page ∈ pages n db pattern, ∀ key ∈ page,
    glob (encode pattern) (encode key) = true
  complete : ∀ n (db : Database server) pattern key, (db.live key).isSome →
    glob (encode pattern) (encode key) = true → ∃ page ∈ pages n db pattern, key ∈ page

/-! ### A server -/

/-- The items in a dictionary, at the instant `now`. -/
structure Keyspace where
  now : ℚ
  items : OrderedDict String Item

namespace Keyspace

variable (db : Keyspace)

def live (key : String) : Option Item := (db.items.get? key).filter (Alive db.now)

def set (key : String) (item : Item) : Keyspace := { db with items := db.items.setItem key item }

def delete (db : Keyspace) : List String → ℕ × Keyspace
  | [] => (0, db)
  | key :: keys =>
      let (count, db') := delete { db with items := db.items.delItem key } keys
      (if (db.live key).isSome then count + 1 else count, db')

theorem live_set (key : String) (item : Item) (l : String) :
    (db.set key item).live l =
      if l = key then (some item : Option Item).filter (Alive db.now) else db.live l := by
  rw [live, set, OrderedDict.get?_setItem]
  split
  · rfl
  · rfl

theorem live_setex (key : String) {seconds : ℤ} (h : 0 < seconds) (value : Bytes) (l : String) :
    (db.set key ⟨value, some (db.now + seconds)⟩).live l =
      if l = key then some ⟨value, some (db.now + seconds)⟩ else db.live l := by
  have hlater : db.now < db.now + (seconds : ℚ) := lt_add_of_pos_right _ (by exact_mod_cast h)
  rw [live_set, Option.filter_some, Alive, Option.all_some, decide_eq_true hlater, if_pos rfl]

theorem delete_now (keys : List String) : (db.delete keys).2.now = db.now := by
  induction keys generalizing db with
  | nil => rfl
  | cons key keys ih => exact ih _

theorem live_delete (keys : List String) (l : String) :
    (db.delete keys).2.live l = if l ∈ keys then none else db.live l := by
  induction keys generalizing db with
  | nil => simp [delete]
  | cons key keys ih =>
      have hdel : live { db with items := db.items.delItem key } l =
          if l = key then none else db.live l := by
        rw [live, OrderedDict.get?_delItem]
        split <;> rfl
      rw [delete, ih, hdel]
      by_cases hl : l = key
      · simp [hl]
      · simp [hl]

theorem live_wait (d : ℚ≥0) (l : String) :
    live { db with now := db.now + d } l = (db.live l).filter (Alive (db.now + d)) := by
  rw [live, live, Option.filter_filter]
  refine congrArg (Option.filter · _) (funext fun item => ?_)
  cases ht : item.expiresAt with
  | none => simp [Alive, ht]
  | some t =>
      have hd : db.now ≤ db.now + (d : ℚ) := le_add_of_nonneg_right d.coe_nonneg
      have hlt : db.now + (d : ℚ) < t → db.now < t := hd.trans_lt
      simp only [Alive, ht, Option.all_some]
      by_cases h : db.now + (d : ℚ) < t
      · simp [h, hlt h]
      · simp [h]

end Keyspace

/-- The server that keeps its items in a dictionary. -/
def keyspace : Server where
  State := Keyspace
  empty := ⟨0, .empty⟩
  now := Keyspace.now
  live := Keyspace.live
  set db key value := db.set key ⟨value, none⟩
  setex db key seconds value :=
    if 0 < seconds then db.set key ⟨value, some (db.now + seconds)⟩ else db
  delete := Keyspace.delete
  wait db d := { db with now := db.now + d }
  live_empty _ := rfl
  alive _ _ _ h := (Option.filter_eq_some_iff.1 h).2
  live_set db key value l := db.live_set key ⟨value, none⟩ l
  now_set _ _ _ := rfl
  live_setex db key seconds value l h := by
    rw [if_pos h]
    exact db.live_setex key h value l
  setex_refused _ _ _ _ h := if_neg (not_lt.2 h)
  now_setex db key seconds value := by
    split
    · rfl
    · rfl
  live_delete := Keyspace.live_delete
  delete_singleton db key := by simp [Keyspace.delete]
  now_delete := Keyspace.delete_now
  live_wait := Keyspace.live_wait
  now_wait _ _ := rfl

/-- It returns all keys on one page. -/
def onePage : Scanning keyspace where
  pages _ db pattern :=
    [((Keyspace.items db).items.map Prod.fst).filter fun key =>
      glob (encode pattern) (encode key)]
  selects := by
    intro _ db pattern page hpage key hkey
    rw [List.mem_singleton.1 hpage] at hkey
    exact (List.mem_filter.1 hkey).2
  complete := by
    intro _ db pattern key hlive hmatch
    refine ⟨_, List.mem_singleton_self _, List.mem_filter.2 ⟨?_, hmatch⟩⟩
    obtain ⟨item, hitem⟩ := Option.isSome_iff_exists.1 hlive
    have hget := (Option.filter_eq_some_iff.1 hitem).1
    exact List.mem_map.2 ⟨_, OrderedDict.get?_eq_some.1 hget, rfl⟩

end Redis
