/-
An intruder in the database.

Pickles in a database that others can write to are signed, so that nobody who does not have the
secret gets a pickle of their own unpickled.  Here the backends that share a secret are used while
an intruder has the server: it reads and removes what it likes, stores what it likes under any key,
repeats what was there before, and sets the clock.  All it cannot do is sign: what carries a valid
signature was signed by one of the backends.

What is unpickled is then what the backends themselves have pickled, and a lookup never raises.  But
a signature tells neither the key nor the time, and so the intruder can hand any value that was ever
stored to any lookup.

Main definitions:

* `Redis.Keyring` — the secret of the backends, with `hmac` and `pickle`;
* `Redis.Vault`, `Redis.vault` — the backends on a database, and the intruder;
* `Redis.Unforged` — databases whose signatures are not forged.

Main results:

* `Redis.Vault.sound_of_run` — what is signed in the database was signed by a backend;
* `Redis.intruder_confined` — **what an intruder can do to the lookups**.
-/

import Pysilience.Lib.Transition
import Pysilience.Redis.Fleet
import Pysilience.Serializer.Unpickling

set_option relaxedAutoImplicit false
set_option autoImplicit false

namespace Redis

open Programs Serializers Transition

universe u p

variable {P : Type p} {K : Type u} {V : Type} {server : Server}

/-! ### The backends -/

/-- A secret, and the modules `hmac` and `pickle`. -/
structure Keyring (V : Type) where
  signing : Signing
  pickle : PickleModule V
  secret : Bytes

namespace Keyring

variable (ring : Keyring V)

/-- `HmacPickleSerializer(secret=secret)`. -/
def serializer : CacheSerializer V :=
  HmacPickleSerializer.serializer ring.signing ring.pickle ring.secret

/-- The signed payload. -/
def signed (payload : Bytes) : Bytes := sign ring.signing payload ring.secret

/-- What was signed is the payload of the value. -/
def Issues (value : V) (raw : Bytes) : Prop :=
  ∃ payload, ring.pickle.dumps value = .ok payload ∧ raw = ring.signed payload

/-- The payloads that a lookup unpickles. -/
def unpickles (raw : Bytes) : List Bytes :=
  (exec (Unpickling.verifyAndLoad ring.signing ring.pickle raw ring.secret) []).2

end Keyring

/-- Backends that share a secret: `RedisBackend(…, serializer=HmacPickleSerializer(secret=…))`. -/
structure Tenant where
  keyPrefix : String := "pysilience:"
  sync : Bool
  async : Bool
  clients : (sync || async) = true

def Tenant.redis (tenant : Tenant) (ring : Keyring V) : RedisBackend V where
  keyPrefix := tenant.keyPrefix
  serializer := ring.serializer
  sync := tenant.sync
  async := tenant.async
  clients := tenant.clients

/-! ### The intruder -/

/-- The database, the values that were stored so far with what was signed for them, and the payloads
that were unpickled so far. -/
structure Vault (server : Server) (V : Type) where
  db : Database server
  issued : List (V × Bytes)
  unpickled : List Bytes

/-- A call of a method of one of the backends, or the database as the intruder leaves it. -/
inductive VaultAction (server : Server) (P : Type p) (K : Type u) (V : Type)
  | call (tenant : P) (op : Operation K V)
  | intrude (db : Database server)

def VaultAction.isCall : VaultAction server P K V → Bool
  | .call .. => true
  | .intrude _ => false

section Machine

variable (ring : Keyring V) (hashing : Hashing K) (scanning : Scanning server)

/-- What a call signs. -/
def Tenant.issues (tenant : Tenant) : Operation K V → List (V × Bytes)
  | .put mode _ value _ =>
      match (tenant.redis ring).require mode, ring.serializer.dumps value with
      | .ok (), .ok raw => [(value, raw)]
      | _, _ => []
  | _ => []

/-- What a call unpickles. -/
def Tenant.unpickles (tenant : Tenant) (db : Database server) : Operation K V → List Bytes
  | .get mode key =>
      match (tenant.redis ring).require mode, db.get ((tenant.redis ring).key hashing key) with
      | .ok (), some raw => ring.unpickles raw
      | _, _ => []
  | _ => []

/-- One step. -/
def Vault.step (tenants : P → Tenant) (s : Vault server V) :
    VaultAction server P K V → Option (Vault server V)
  | .call p op => some {
      db := (((tenants p).redis ring).perform hashing scanning s.db op).2
      issued := s.issued ++ (tenants p).issues ring op
      unpickled := s.unpickled ++ (tenants p).unpickles ring hashing s.db op }
  | .intrude db => some { s with db := db }

/-- Backends that share a secret, and an intruder. -/
def vault (tenants : P → Tenant) (db : Database server) :
    Machine (Vault server V) (VaultAction server P K V) where
  init := ⟨db, [], []⟩
  step := Vault.step ring hashing scanning tenants

end Machine

/-- What carries a valid signature in the database was signed by a backend. -/
def Unforged (ring : Keyring V) (s : Vault server V) (db : Database server) : Prop :=
  ∀ key item, db.live key = some item → ∀ payload, item.value = ring.signed payload →
    ∃ value, (value, item.value) ∈ s.issued

/-- The side condition on a step: the intruder forges no signature. -/
def Unable (ring : Keyring V) (s : Vault server V) : VaultAction server P K V → Prop
  | .call _ _ => True
  | .intrude db => Unforged ring s db

/-! ### What the signatures keep -/

section Runs

variable {ring : Keyring V} {hashing : Hashing K} {scanning : Scanning server}
  {tenants : P → Tenant}

/-- What a call leaves in the database was there before, or was signed by the call. -/
theorem Tenant.live_of_perform {tenant : Tenant} {db : Database server} {op : Operation K V}
    {l : String} {item : Item}
    (h : ((tenant.redis ring).perform hashing scanning db op).2.live l = some item) :
    db.live l = some item ∨ ∃ value, (value, item.value) ∈ tenant.issues ring op := by
  cases op with
  | get mode key => exact .inl h
  | put mode key value ttl =>
      rcases RedisBackend.live_put h with h' | ⟨-, hdumps, -⟩
      · exact .inl h'
      · cases hmode : (tenant.redis ring).require mode with
        | error e =>
            -- without a client nothing is stored
            rw [RedisBackend.perform, RedisBackend.put, hmode] at h
            exact .inl h
        | ok _ =>
            refine .inr ⟨value, ?_⟩
            have hring : ring.serializer.dumps value = .ok item.value := hdumps
            rw [issues, hmode, hring]
            exact List.mem_singleton_self _
  | delete mode key => exact .inl (RedisBackend.live_delete_of h)
  | clear mode n => exact .inl (RedisBackend.live_clear_of h)

/-- `dumps` signs what `pickle.dumps` returns. -/
theorem Keyring.dumps_eq (ring : Keyring V) (value : V) :
    ring.serializer.dumps value = (ring.pickle.dumps value).map ring.signed := rfl

/-- What a call signs is the pickle of the value. -/
theorem Tenant.issues_signed {tenant : Tenant} {op : Operation K V} {value : V} {raw : Bytes}
    (h : (value, raw) ∈ tenant.issues ring op) : ring.Issues value raw := by
  unfold issues at h
  split at h
  · split at h
    · next mode key value' ttl raw' hmode hdumps =>
      obtain ⟨rfl, rfl⟩ := Prod.mk.inj (List.mem_singleton.1 h)
      rw [Keyring.dumps_eq] at hdumps
      cases hpickle : ring.pickle.dumps value with
      | error e =>
          rw [hpickle] at hdumps
          cases hdumps
      | ok payload =>
          rw [hpickle] at hdumps
          exact ⟨payload, hpickle, (Except.ok.inj hdumps).symm⟩
    · cases h
  · cases h

/-- The payloads that are unpickled are those that are signed. -/
theorem Keyring.mem_unpickles {raw payload : Bytes} (h : payload ∈ ring.unpickles raw) :
    raw = ring.signed payload := by
  rcases Unpickling.exec_verifyAndLoad ring.signing ring.pickle raw ring.secret [] with
    ⟨payload', hraw, hexec⟩ | ⟨-, hexec⟩
  · rw [Keyring.unpickles, hexec, List.nil_append, List.mem_singleton] at h
    rw [h]
    exact hraw
  · rw [Keyring.unpickles, hexec] at h
    cases h

/-- What the steps keep: no signature in the database is forged, what was signed are the pickles of
values, and nothing else was unpickled. -/
structure Vault.Sound (ring : Keyring V) (s : Vault server V) : Prop where
  unforged : Unforged ring s s.db
  issued : ∀ value raw, (value, raw) ∈ s.issued → ring.Issues value raw
  unpickled : ∀ payload ∈ s.unpickled, ∃ value, (value, ring.signed payload) ∈ s.issued

/-- **Every step keeps a vault sound.** -/
theorem Vault.Sound.step {s s' : Vault server V} (h : s.Sound ring) {a : VaultAction server P K V}
    (ha : Unable ring s a) (hstep : s.step ring hashing scanning tenants a = some s') :
    s'.Sound ring := by
  cases a with
  | intrude db =>
      cases hstep
      exact ⟨ha, h.issued, h.unpickled⟩
  | call p op =>
      cases hstep
      refine ⟨fun key item hitem payload hsigned => ?_, fun value raw hmem => ?_,
        fun payload hmem => ?_⟩
      · rcases Tenant.live_of_perform hitem with hitem | ⟨value, hvalue⟩
        · obtain ⟨value, hvalue⟩ := h.unforged key item hitem payload hsigned
          exact ⟨value, List.mem_append_left _ hvalue⟩
        · exact ⟨value, List.mem_append_right _ hvalue⟩
      · rcases List.mem_append.1 hmem with hmem | hmem
        · exact h.issued value raw hmem
        · exact Tenant.issues_signed hmem
      · rcases List.mem_append.1 hmem with hmem | hmem
        · obtain ⟨value, hvalue⟩ := h.unpickled payload hmem
          exact ⟨value, List.mem_append_left _ hvalue⟩
        · -- the lookup has found what is signed, and that was not forged
          unfold Tenant.unpickles at hmem
          split at hmem
          · split at hmem
            · next mode key raw hmode hget =>
              obtain ⟨item, hitem, rfl⟩ := Option.map_eq_some_iff.1 hget
              have hsigned := Keyring.mem_unpickles hmem
              obtain ⟨value, hvalue⟩ := h.unforged _ item hitem payload hsigned
              exact ⟨value, List.mem_append_left _ (hsigned ▸ hvalue)⟩
            · cases hmem
          · cases hmem

/-- If nothing in the database is signed at first, every run leaves the vault sound. -/
theorem Vault.sound_of_run {db : Database server}
    (hdb : ∀ key item, db.live key = some item → ∀ payload, item.value ≠ ring.signed payload)
    {as : List (VaultAction server P K V)} {s : Vault server V}
    (h : (vault ring hashing scanning tenants db).Run (Unable ring) as s) : s.Sound ring :=
  h.invariant
    ⟨fun key item hitem payload hsigned => absurd hsigned (hdb key item hitem payload), nofun,
      nofun⟩
    fun _ _ _ _ _ hi ha hstep => hi.step ha hstep

/-! ### What a lookup can find -/

/-- A value that was signed is loaded. -/
theorem Keyring.Issues.loads
    (hpickle : ∀ value data, ring.pickle.dumps value = .ok data →
      ring.pickle.loads data = .ok value)
    {value : V} {raw : Bytes} (h : ring.Issues value raw) :
    ring.serializer.loads raw = .ok value := by
  obtain ⟨payload, hdumps, rfl⟩ := h
  refine (verifyAndLoad_sign ring.signing ring.pickle payload ring.secret).trans ?_
  rw [hpickle value payload hdumps]

/-- A lookup in a database without forged signatures finds nothing, or a value that was stored. -/
theorem Vault.Sound.get {s : Vault server V} (h : s.Sound ring)
    (hpickle : ∀ value data, ring.pickle.dumps value = .ok data →
      ring.pickle.loads data = .ok value)
    {tenant : Tenant} {mode : Mode} (hmode : (tenant.redis ring).require mode = .ok ())
    {db : Database server} (hdb : Unforged ring s db) (key : K) :
    (tenant.redis ring).get hashing mode db key = .ok none ∨
      ∃ value raw, (value, raw) ∈ s.issued ∧
        (tenant.redis ring).get hashing mode db key = .ok (some value) := by
  cases hget : db.get ((tenant.redis ring).key hashing key) with
  | none =>
      refine .inl ?_
      simp only [RedisBackend.get, hmode, hget]
  | some raw =>
      obtain ⟨item, hitem, rfl⟩ := Option.map_eq_some_iff.1 hget
      by_cases hsigned : ∃ payload, item.value = ring.signed payload
      · obtain ⟨payload, hsigned⟩ := hsigned
        obtain ⟨value, hvalue⟩ := hdb _ item hitem payload hsigned
        exact .inr ⟨value, item.value, hvalue, RedisBackend.get_of_database hmode hget
          ((h.issued value _ hvalue).loads hpickle)⟩
      · -- what is not signed is refused, and that is a miss
        obtain ⟨message, hrefused⟩ :=
          verifyAndLoad_of_not_signed ring.pickle (not_exists.1 hsigned)
        have hloads : (tenant.redis ring).serializer.loads item.value =
            .error ⟨.valueError, message⟩ := hrefused
        refine .inl ?_
        simp only [RedisBackend.get, hmode, hget, RedisBackend.load, hloads]
        rfl

end Runs

/-- **What an intruder can do to the lookups.**  Let backends share a secret, on a database in which
nothing is signed at first, and let their calls interleave with an intruder who does to the database
what it likes but forges no signature.  Then no signature in the database is ever forged; nothing
was unpickled but pickles of values that the backends stored; no lookup of any key, in any database
that the intruder can leave, raises; and a lookup can be made to find exactly those values that were
stored before, under whatever key. -/
theorem intruder_confined (ring : Keyring V)
    (hpickle : ∀ value data, ring.pickle.dumps value = .ok data →
      ring.pickle.loads data = .ok value)
    (hashing : Hashing K) (scanning : Scanning server) (tenants : P → Tenant) (db : Database server)
    (hdb : ∀ key item, db.live key = some item → ∀ payload, item.value ≠ ring.signed payload)
    (as : List (VaultAction server P K V)) (s : Vault server V)
    (h : (vault ring hashing scanning tenants db).Run (Unable ring) as s) :
    Unforged ring s s.db ∧
    (∀ payload ∈ s.unpickled, ∃ value, (value, ring.signed payload) ∈ s.issued ∧
      ring.pickle.dumps value = .ok payload) ∧
    ∀ p mode, ((tenants p).redis ring).require mode = .ok () → ∀ key : K,
      (∀ db', Unforged ring s db' →
        ∃ found, ((tenants p).redis ring).get hashing mode db' key = .ok found) ∧
      ∀ value, (∃ db', Unforged ring s db' ∧
          ((tenants p).redis ring).get hashing mode db' key = .ok (some value)) ↔
        ∃ raw, (value, raw) ∈ s.issued := by
  have hsound := Vault.sound_of_run hdb h
  refine ⟨hsound.unforged, fun payload hmem => ?_, fun p mode hmode key => ⟨fun db' hdb' => ?_,
    fun value => ⟨?_, ?_⟩⟩⟩
  · obtain ⟨value, hvalue⟩ := hsound.unpickled payload hmem
    obtain ⟨payload', hdumps, hsigned⟩ := hsound.issued value _ hvalue
    obtain rfl : payload = payload' := Unpickling.sign_injective hsigned
    exact ⟨value, hvalue, hdumps⟩
  · rcases hsound.get hpickle hmode hdb' key with hmiss | ⟨value, -, -, hfound⟩
    · exact ⟨none, hmiss⟩
    · exact ⟨some value, hfound⟩
  · rintro ⟨db', hdb', hfound⟩
    rcases hsound.get hpickle hmode hdb' key with hmiss | ⟨value', raw, hvalue, hfound'⟩
    · cases hmiss.symm.trans hfound
    · obtain rfl := Option.some_inj.1 (Except.ok.inj (hfound'.symm.trans hfound))
      exact ⟨raw, hvalue⟩
  · rintro ⟨raw, hvalue⟩
    -- the intruder stores under the key what was signed for the value
    have hlive := s.db.live_set (((tenants p).redis ring).key hashing key)
    refine ⟨s.db.set (((tenants p).redis ring).key hashing key) raw,
      fun l item hitem payload hsigned => ?_, ?_⟩
    · rw [hlive] at hitem
      split at hitem
      · obtain rfl := Option.some_inj.1 hitem
        exact ⟨value, hvalue⟩
      · exact hsound.unforged l item hitem payload hsigned
    · refine RedisBackend.get_of_database hmode ?_ ((hsound.issued value raw hvalue).loads hpickle)
      rw [Database.get, hlive, if_pos rfl]
      rfl

/-! ### Two flags -/

/-- Pickles of `True` and `False`, and their signatures under the secret `b"my-secret-key"`. -/
def flags : Keyring Bool where
  signing.hmac _ data :=
    if data = [128, 5, 136, 46] then
      [168, 48, 82, 76, 124, 96, 233, 62, 232, 197, 31, 200, 24, 43, 90, 78, 66, 199, 215, 208, 204,
        117, 59, 48, 22, 97, 203, 223, 181, 40, 135, 136]
    else
      [155, 101, 226, 169, 123, 83, 39, 200, 33, 149, 60, 146, 252, 192, 142, 147, 182, 155, 224,
        59, 16, 114, 159, 69, 39, 106, 151, 148, 9, 22, 56, 202]
  signing.length_hmac _ data := by
    split
    · rfl
    · rfl
  pickle.dumps flag := .ok (if flag then [128, 5, 136, 46] else [128, 5, 137, 46])
  pickle.loads data :=
    if data = [128, 5, 136, 46] then .ok true
    else if data = [128, 5, 137, 46] then .ok false
    else .error ⟨.unpicklingError, []⟩
  secret := encode "my-secret-key"

/-- A backend with a synchronous client. -/
def tenantOfFlags : Tenant where
  sync := true
  async := false
  clients := Bool.true_or false

/-- `True` was stored under `"a"` and `False` under `"b"`: the intruder can have a lookup of `"b"`
find `True`. -/
theorem intruder_confined_two_flags : ∃ s : Vault keyspace Bool,
    (tenantOfFlags.redis flags).get digestsOfTwo .sync s.db "b" = .ok (some false) ∧
    ∃ db, Unforged flags s db ∧
      (tenantOfFlags.redis flags).get digestsOfTwo .sync db "b" = .ok (some true) := by
  have hcalls : ∀ (s : Vault keyspace Bool) (a : VaultAction keyspace Unit String Bool),
      a.isCall = true → Unable flags s a := by
    intro s a ha
    cases a with
    | call => trivial
    | intrude => cases ha
  obtain ⟨s, hr, hs⟩ := Machine.exists_run_of_exec
    (vault flags digestsOfTwo onePage (fun _ : Unit => tenantOfFlags) .empty)
    (fun _ a => a.isCall) hcalls
    [.call () (.put .sync "a" true none), .call () (.put .sync "b" false none)]
    (fun s => decide ((tenantOfFlags.redis flags).get digestsOfTwo .sync s.db "b" =
      .ok (some false)) && s.issued.any (·.1))
    (by decide +kernel)
  obtain ⟨hget, hissued⟩ := Bool.and_eq_true_iff.1 hs
  obtain ⟨⟨value, raw⟩, hmem, hvalue⟩ := List.any_eq_true.1 hissued
  obtain rfl : value = true := hvalue
  have hpickle : ∀ value data, flags.pickle.dumps value = .ok data →
      flags.pickle.loads data = .ok value := by
    rintro (_ | _) data hdata
    · obtain rfl := Except.ok.inj hdata
      rfl
    · obtain rfl := Except.ok.inj hdata
      rfl
  refine ⟨s, of_decide_eq_true hget, ?_⟩
  exact (((intruder_confined flags hpickle digestsOfTwo onePage (fun _ : Unit => tenantOfFlags)
    .empty nofun _ s hr).2.2 () .sync rfl "b").2 true).2 ⟨raw, hmem⟩

end Redis
