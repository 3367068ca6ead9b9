/-
Does a value survive `dumps` and `loads`?

`dumps` wraps objects only, but `loads` unwraps every dictionary that looks like an envelope, and a
dictionary of the user may look like one: nothing distinguishes the two, because the keys of an
envelope are ordinary strings.  A value survives exactly when no dictionary that is printed on its
behalf, in itself or in what the handlers return for its objects, looks like an envelope.

Main definitions:

* `Serializers.Proper` — the values in question;
* `Serializers.Safe` — the condition;
* `Serializers.DecodesToObjects`, `Serializers.Sharp` — handlers that reconstruct objects only.

Main results:

* `Serializers.ofJson_toJson` — a safe value is read back;
* `Serializers.safe_of_ofJson` — what is read back was safe;
* `Serializers.json_round_trip_iff` — **when a value survives**;
* `Serializers.not_json_round_trip` — a dictionary that looks like an envelope.
-/

import Pysilience.Redis.Backend
import Pysilience.Serializer.Printing

set_option relaxedAutoImplicit false
set_option autoImplicit false

namespace Serializers

universe u v w x

variable {F : Type u} {O : Type v} [HasClass O]

/-! ### The values -/

/-- The dictionaries in question are dictionaries, and for the objects in question decoding
inverts encoding. -/
structure Proper (registry : Registry F O) (v : PyValue F O) : Prop where
  nodup : ∀ items, Within registry (.dict items) v → (items.map Prod.fst).Nodup
  inverse : ∀ o, Within registry (.obj o) v → ∀ handler data,
    registry (typeKey (HasClass.classOf o)) = some handler → handler.encode o = .ok data →
      handler.decode data = .ok (.obj o)

/-- No dictionary printed on behalf of the value looks like an envelope. -/
def Safe (registry : Registry F O) (v : PyValue F O) : Prop :=
  ∀ items, Within registry (.dict items) v → ¬ LooksLikeEnvelope items

variable {registry : Registry F O}

/-! ### The parts of a value -/

/-- What is printed on behalf of a part is printed on behalf of the whole. -/
def Part (registry : Registry F O) (w v : PyValue F O) : Prop :=
  ∀ w', Within registry w' w → Within registry w' v

theorem Proper.part {v w : PyValue F O} (h : Proper registry v) (hw : Part registry w v) :
    Proper registry w :=
  ⟨fun items hi => h.nodup items (hw _ hi), fun o ho => h.inverse o (hw _ ho)⟩

theorem Safe.part {v w : PyValue F O} (h : Safe registry v) (hw : Part registry w v) :
    Safe registry w :=
  fun items hi => h items (hw _ hi)

theorem part_list {items : List (PyValue F O)} {v : PyValue F O} (h : v ∈ items) :
    Part registry v (.list items) := fun _ hw => .list h hw

theorem part_dict {items : List (String × PyValue F O)} {item : String × PyValue F O}
    (h : item ∈ items) : Part registry item.2 (.dict items) := fun _ hw => .dict h hw

theorem part_obj {o : O} {handler : TypeHandler F O} {data : PyValue F O}
    (h : registry (typeKey (HasClass.classOf o)) = some handler)
    (he : handler.encode o = .ok data) :
    Part registry data (.obj o) := fun _ hw => .obj h he hw

/-- A value whose parts are safe is safe unless it looks like an envelope itself. -/
theorem safe_list {items : List (PyValue F O)} (h : ∀ v ∈ items, Safe registry v) :
    Safe registry (.list items) := by
  intro kvs hw
  cases hw with
  | list hv hw => exact h _ hv kvs hw

theorem safe_dict {items : List (String × PyValue F O)} (h : ∀ item ∈ items, Safe registry item.2)
    (hne : ¬ LooksLikeEnvelope items) : Safe registry (.dict items) := by
  intro kvs hw
  cases hw with
  | refl => exact hne
  | dict hi hw => exact h _ hi kvs hw

theorem safe_obj {o : O} {handler : TypeHandler F O} {data : PyValue F O}
    (hr : registry (typeKey (HasClass.classOf o)) = some handler) (he : handler.encode o = .ok data)
    (h : Safe registry data) : Safe registry (.obj o) := by
  intro kvs hw
  cases hw with
  | obj hr' he' hw =>
      obtain rfl := Option.some_inj.1 (hr.symm.trans hr')
      obtain rfl := Except.ok.inj (he.symm.trans he')
      exact h kvs hw

/-! ### Reading back what was printed -/

/-- **A safe value is read back.**  The induction is on the recursion limit, because what a handler
returns is not smaller than its object. -/
theorem ofJson_toJson {n : ℕ} : ∀ {v : PyValue F O} {j : Json F},
    toJson registry n v = .ok j → Proper registry v → Safe registry v →
      ofJson (envelopeDecode registry) j = .ok v := by
  induction n using Nat.strong_induction_on with
  | _ n ih =>
      intro v j hj hproper hsafe
      cases n with
      | zero => cases hj
      | succ n =>
          cases v with
          | none | bool | int | float | str =>
              rw [toJson, Except.ok.injEq] at hj
              rw [← hj, ofJson]
          | list items =>
              obtain ⟨js, rfl, hjs⟩ := toJson_list_eq_ok.1 hj
              have hread : ofJsonItems (envelopeDecode registry) js = .ok items := by
                refine ofJsonItems_eq_ok.2 (List.Forall₂.flip ?_)
                refine ((List.forall₂_and_left items js).2 ⟨fun v hv => hv, hjs⟩).imp ?_
                rintro v j ⟨hv, hvj⟩
                exact ih n (Nat.lt_succ_self n) hvj (hproper.part (part_list hv))
                  (hsafe.part (part_list hv))
              rw [ofJson, hread, Except.map]
          | dict items =>
              obtain ⟨members, rfl, hmembers⟩ := toJson_dict_eq_ok.1 hj
              rw [ofJson_obj items _ (hproper.nodup items .refl),
                envelopeDecode_of_not (hsafe items .refl)]
              refine List.Forall₂.flip ?_
              refine ((List.forall₂_and_left items members).2 ⟨fun v hv => hv, hmembers⟩).imp ?_
              rintro item m ⟨hi, hkey, him⟩
              exact ⟨hkey.symm, ih n (Nat.lt_succ_self n) him (hproper.part (part_dict hi))
                (hsafe.part (part_dict hi))⟩
          | obj o =>
              obtain ⟨handler, data, hr, he, henv⟩ := toJson_obj_eq_ok.1 hj
              obtain ⟨m, j', rfl, rfl, hj'⟩ := toJson_envelope_eq_ok.1 henv
              have hdata := ih (m + 1) (by omega) hj' (hproper.part (part_obj hr he))
                (hsafe.part (part_obj hr he))
              rw [ofJson_envelope hr hdata]
              exact hproper.inverse o .refl handler data hr he

/-! ### What is read back was safe -/

/-- What a handler reconstructs is an object. -/
def DecodesToObjects (registry : Registry F O) : Prop :=
  ∀ key handler data v, registry key = some handler → handler.decode data = .ok v → ∃ o, v = .obj o

/-- An object is reconstructed from nothing but what the handler made of it, unless that is safe. -/
def Sharp (registry : Registry F O) : Prop :=
  ∀ key handler o data data', registry key = some handler → handler.encode o = .ok data →
    handler.decode data' = .ok (.obj o) → data' = data ∨ Safe registry data

omit [HasClass O] in
/-- Two relations between the elements of two lists meet at every element. -/
theorem forall₂_meet {α : Type w} {β : Type x} {R : α → β → Prop} {S : β → α → Prop} {as : List α}
    {bs : List β} (h : List.Forall₂ R as bs) (h' : List.Forall₂ S bs as) :
    ∀ a ∈ as, ∃ b, R a b ∧ S b a := by
  induction h with
  | nil => simp
  | cons hr _ ih =>
      obtain _ | ⟨hs, hs'⟩ := h'
      exact List.forall_mem_cons.2 ⟨⟨_, hr, hs⟩, ih hs'⟩

omit [HasClass O] in
/-- A dictionary that is read back as a dictionary did not look like an envelope. -/
theorem envelopeDecode_eq_dict (hobj : DecodesToObjects registry)
    {items items' : List (String × PyValue F O)}
    (h : envelopeDecode registry items' = .ok (.dict items)) :
    items' = items ∧ ¬ LooksLikeEnvelope items' := by
  by_cases hlooks : LooksLikeEnvelope items'
  · obtain ⟨key, data, -, -, hdecode⟩ := @envelopeDecode_of_looks F O registry _ hlooks
    rw [hdecode] at h
    cases hr : registry key with
    | none =>
        simp only [hr] at h
        cases h
    | some handler =>
        simp only [hr] at h
        obtain ⟨o, ho⟩ := hobj key handler data _ hr h
        cases ho
  · rw [envelopeDecode_of_not hlooks] at h
    exact ⟨PyValue.dict.inj (Except.ok.inj h), hlooks⟩

/-- **What is read back was safe**, if the handlers reconstruct objects only, and each of them from
what it was printed as. -/
theorem safe_of_ofJson (hobj : DecodesToObjects registry) (hsharp : Sharp registry) {n : ℕ} :
    ∀ {v : PyValue F O} {j : Json F}, toJson registry n v = .ok j → Proper registry v →
      ofJson (envelopeDecode registry) j = .ok v → Safe registry v := by
  induction n using Nat.strong_induction_on with
  | _ n ih =>
      intro v j hj hproper hread
      cases n with
      | zero => cases hj
      | succ n =>
          cases v with
          | none | bool | int | float | str =>
              intro items hw
              cases hw
          | list items =>
              obtain ⟨js, rfl, hjs⟩ := toJson_list_eq_ok.1 hj
              rw [ofJson] at hread
              cases hitems : ofJsonItems (envelopeDecode registry) js with
              | error e => simp [hitems, Except.map] at hread
              | ok vs =>
                  rw [hitems, Except.map, Except.ok.injEq, PyValue.list.injEq] at hread
                  subst hread
                  have hmeet := forall₂_meet hjs (ofJsonItems_eq_ok.1 hitems)
                  refine safe_list fun v hv => ?_
                  obtain ⟨j, hvj, hjv⟩ := hmeet v hv
                  exact ih n (Nat.lt_succ_self n) hvj (hproper.part (part_list hv)) hjv
          | dict items =>
              obtain ⟨members, rfl, hmembers⟩ := toJson_dict_eq_ok.1 hj
              cases hentries : ofJsonEntries (envelopeDecode registry) members with
              | error e => simp [ofJson, hentries, Except.bind] at hread
              | ok items' =>
                  have hread' := ofJsonEntries_eq_ok.1 hentries
                  have hnodup : (items'.map Prod.fst).Nodup := by
                    rw [← keys_eq (hread'.imp fun _ _ h => h.1),
                      ← keys_eq (hmembers.imp fun _ _ h => h.1)]
                    exact hproper.nodup items .refl
                  rw [ofJson_obj items' hread' hnodup] at hread
                  obtain ⟨rfl, hne⟩ := envelopeDecode_eq_dict hobj hread
                  have hmeet := forall₂_meet hmembers hread'
                  refine safe_dict (fun item hi => ?_) hne
                  obtain ⟨m, ⟨-, him⟩, -, hmi⟩ := hmeet item hi
                  exact ih n (Nat.lt_succ_self n) him (hproper.part (part_dict hi)) hmi
          | obj o =>
              obtain ⟨handler, data, hr, he, henv⟩ := toJson_obj_eq_ok.1 hj
              obtain ⟨m, j', rfl, rfl, hj'⟩ := toJson_envelope_eq_ok.1 henv
              obtain ⟨data', hdata', hdecode⟩ := ofJson_envelope_eq_ok hr hread
              refine safe_obj hr he ?_
              rcases hsharp _ handler o data data' hr he hdecode with rfl | hsafe
              · exact ih (m + 1) (by omega) hj' (hproper.part (part_obj hr he)) hdata'
              · exact hsafe

/-! ### When a value survives -/

/-- What `loads` makes of what `dumps` printed, if the scanner inverts the printer. -/
theorem loads_dumps {json : JsonModule F} {n : ℕ} {v : PyValue F O} {raw : Bytes}
    (hjson : ∀ j, toJson registry n v = .ok j → json.scan (json.print j) = ⟨j, .none⟩)
    (h : JsonSerializer.dumps json registry n v = .ok raw) :
    ∃ j, toJson registry n v = .ok j ∧ JsonSerializer.attempt json registry raw =
      ofJson (envelopeDecode registry) j := by
  cases hj : toJson registry n v with
  | error e => simp [JsonSerializer.dumps, hj, Except.map] at h
  | ok j =>
      rw [JsonSerializer.dumps, hj, Except.map, Except.ok.injEq] at h
      subst h
      refine ⟨j, rfl, ?_⟩
      simp only [JsonSerializer.attempt, decode_encode, jsonLoads, hjson j hj]
      cases ofJson (envelopeDecode registry) j <;> rfl

omit [HasClass O] in
/-- `loads` returns what its `try` block returns. -/
theorem loads_eq_ok {json : JsonModule F} {raw : Bytes} {v : PyValue F O} :
    JsonSerializer.loads json registry raw = .ok v ↔
      JsonSerializer.attempt json registry raw = .ok v := by
  unfold JsonSerializer.loads
  split
  · next h => rw [h]
  · next h =>
    rw [h]
    split <;> simp

/-- **When a value survives.**  Let `v` be a value whose objects have handlers, decoding inverting
encoding, and let the scanner invert the printer on what is printed of it.  Then `v` can be printed,
unless the recursion limit is too low.  If it is safe, `loads` returns it, and so does a lookup
through a `RedisBackend` after it was stored.  If the handlers reconstruct objects only, each of
them from what it was printed as, then `loads` returns it exactly when it is safe. -/
theorem json_round_trip_iff {K : Type w} (json : JsonModule F) (registry : Registry F O)
    (v : PyValue F O) (hdump : Dumpable registry v) (hproper : Proper registry v)
    (hjson : ∀ n j, toJson registry n v = .ok j → json.scan (json.print j) = ⟨j, .none⟩) :
    (∃ limit, ∀ n ≥ limit, ∃ raw, JsonSerializer.dumps json registry n v = .ok raw) ∧
    ∀ n raw, JsonSerializer.dumps json registry n v = .ok raw →
      (Safe registry v →
        JsonSerializer.loads json registry raw = .ok v ∧
        ∀ (server : Redis.Server) (hashing : Redis.Hashing K)
          (backend : Redis.RedisBackend (PyValue F O)) mode (db : Redis.Database server) key ttl,
          backend.serializer = JsonSerializer.serializer json registry n →
            backend.require mode = .ok () →
              backend.get hashing mode (backend.put hashing mode db key v ttl).2 key =
                .ok (some v)) ∧
      (DecodesToObjects registry → Sharp registry →
        (JsonSerializer.loads json registry raw = .ok v ↔ Safe registry v)) := by
  constructor
  · obtain ⟨limit, hlimit⟩ := hdump.dumps
    refine ⟨limit, fun n hn => ?_⟩
    obtain ⟨j, hj⟩ := hlimit n hn
    exact ⟨encode (json.print j), by rw [JsonSerializer.dumps, hj, Except.map]⟩
  · intro n raw hraw
    obtain ⟨j, hj, hattempt⟩ := loads_dumps (hjson n) hraw
    have hloads : Safe registry v → JsonSerializer.loads json registry raw = .ok v := by
      intro hsafe
      rw [loads_eq_ok, hattempt]
      exact ofJson_toJson hj hproper hsafe
    refine ⟨fun hsafe => ⟨hloads hsafe, ?_⟩, fun hobj hsharp => ⟨fun h => ?_, hloads⟩⟩
    · intro server hashing backend mode db key ttl hser hmode
      have hdumps : backend.serializer.dumps v = .ok raw := by rw [hser]; exact hraw
      rw [backend.get_put hashing hmode db key hdumps ttl, Redis.RedisBackend.load, hser]
      simp only [JsonSerializer.serializer, hloads hsafe]
    · rw [loads_eq_ok, hattempt] at h
      exact safe_of_ofJson hobj hsharp hj hproper h

/-! ### The built-in handlers -/

section

omit [HasClass O]

variable {lib : StdLib.{v}} {I : Type v} [HasClass I]

theorem isoHandler_decode {toIso : StdObject lib I → Option String}
    {ofIso : String → Except String (StdObject lib I)} {data v : PyValue F (StdObject lib I)}
    (h : (isoHandler toIso ofIso).decode data = .ok v) : ∃ o, v = .obj o := by
  cases data with
  | str s =>
      simp only [isoHandler] at h
      split at h
      · next o _ => exact ⟨o, (Except.ok.inj h).symm⟩
      · cases h
  | _ => cases h

theorem isoHandler_encode {toIso : StdObject lib I → Option String}
    {ofIso : String → Except String (StdObject lib I)} {o : StdObject lib I}
    {data : PyValue F (StdObject lib I)} (h : (isoHandler toIso ofIso).encode o = .ok data) :
    ∃ s, data = .str s := by
  simp only [isoHandler] at h
  split at h
  · next s _ => exact ⟨s, (Except.ok.inj h).symm⟩
  · cases h

omit [HasClass I] in
theorem b64Result_eq_ok {result : Except String Bytes} {v : PyValue F (StdObject lib I)}
    (h : b64Result result = .ok v) : ∃ o, v = .obj o := by
  cases result with
  | ok b => exact ⟨_, (Except.ok.inj h).symm⟩
  | error message => cases h

/-- The built-in handlers reconstruct objects only. -/
theorem builtin_decodesToObjects :
    DecodesToObjects (builtinRegistry : Registry F (StdObject lib I)) := by
  intro key handler data v hr h
  rcases builtinRegistry_eq_some hr with ⟨-, rfl⟩ | ⟨-, rfl⟩ | ⟨-, rfl⟩ | ⟨-, rfl⟩
  · exact isoHandler_decode h
  · exact isoHandler_decode h
  · exact isoHandler_decode h
  · simp only [bytesHandler] at h
    split at h
    · exact b64Result_eq_ok h
    · exact b64Result_eq_ok h
    · cases h

/-- The built-in handlers make strings of their objects, and strings are safe. -/
theorem builtin_sharp : Sharp (builtinRegistry : Registry F (StdObject lib I)) := by
  intro key handler o data data' hr he _
  obtain ⟨s, rfl⟩ : ∃ s, data = .str s := by
    rcases builtinRegistry_eq_some hr with ⟨-, rfl⟩ | ⟨-, rfl⟩ | ⟨-, rfl⟩ | ⟨-, rfl⟩
    · exact isoHandler_encode he
    · exact isoHandler_encode he
    · exact isoHandler_encode he
    · simp only [bytesHandler] at he
      split at he
      · exact ⟨_, (Except.ok.inj he).symm⟩
      · cases he
  refine .inr fun items hw => ?_
  cases hw

end

/-! ### Two values -/

/-- An instant in a list. -/
def sampleList : PyValue Unit (StdObject isoTexts Empty) :=
  .list [.obj (.datetime "2025-01-01T12:00:00")]

/-- What is printed of it. -/
def sampleListJson : Json Unit :=
  .arr [.obj [(envelopeTypeKey, .str (typeKey datetimeClass)),
    (envelopeDataKey, .str "2025-01-01T12:00:00")]]

def sampleListModule : JsonModule Unit :=
  oneText ("[\x7b\"__pysilience_type__\":\"datetime.datetime\"," ++
    "\"data\":\"2025-01-01T12:00:00\"\x7d]") sampleListJson

/-- The items of a dictionary of the user that looks like an envelope. -/
def sampleItems : List (String × String) :=
  [("__pysilience_type__", "datetime.datetime"), ("data", "2025-01-01T12:00:00")]

def sampleDict : PyValue Unit (StdObject isoTexts Empty) :=
  .dict (sampleItems.map fun p => (p.1, .str p.2))

/-- What is printed of it. -/
def sampleDictJson : Json Unit := .obj (sampleItems.map fun p => (p.1, .str p.2))

def sampleDictModule : JsonModule Unit :=
  oneText ("\x7b\"__pysilience_type__\":\"datetime.datetime\"," ++
    "\"data\":\"2025-01-01T12:00:00\"\x7d") sampleDictJson

theorem builtinRegistry_datetime {lib : StdLib.{v}} {I : Type v} [HasClass I] :
    (builtinRegistry : Registry F (StdObject lib I)) (typeKey datetimeClass) =
      some datetimeHandler := by
  have h1 : typeKey datetimeClass ≠ typeKey dateClass := by decide
  have h2 : typeKey datetimeClass ≠ typeKey timeClass := by decide
  simp [builtinRegistry, register, h1, h2]

theorem toJson_sampleList {n : ℕ} {j : Json Unit}
    (h : toJson builtinRegistry n sampleList = .ok j) : j = sampleListJson := by
  cases n with
  | zero => cases h
  | succ n =>
      obtain ⟨js, rfl, hjs⟩ := toJson_list_eq_ok.1 h
      cases hjs with
      | cons hobj hnil =>
        cases hnil
        cases n with
        | zero => cases hobj
        | succ n =>
            obtain ⟨handler, data, hr, he, henv⟩ := toJson_obj_eq_ok.1 hobj
            obtain rfl := Option.some_inj.1 (builtinRegistry_datetime.symm.trans hr)
            obtain rfl := Except.ok.inj he
            obtain ⟨m, j', rfl, rfl, hj'⟩ := toJson_envelope_eq_ok.1 henv
            rw [toJson, Except.ok.injEq] at hj'
            subst hj'
            rfl

theorem within_sampleList {w : PyValue Unit (StdObject isoTexts Empty)}
    (h : Within builtinRegistry w sampleList) : w = sampleList ∨
      w = .obj (.datetime "2025-01-01T12:00:00") ∨ w = .str "2025-01-01T12:00:00" := by
  obtain _ | ⟨hv, h⟩ := h
  · exact .inl rfl
  · obtain rfl := List.mem_singleton.1 hv
    cases h with
    | refl => exact .inr (.inl rfl)
    | obj hr he h =>
        obtain rfl := Option.some_inj.1 (builtinRegistry_datetime.symm.trans hr)
        obtain rfl := Except.ok.inj he
        cases h
        exact .inr (.inr rfl)

/-- An instant in a list survives, and is safe. -/
theorem json_round_trip_of_instant : ∃ n raw,
    JsonSerializer.dumps sampleListModule builtinRegistry n sampleList = .ok raw ∧
      JsonSerializer.loads sampleListModule builtinRegistry raw = .ok sampleList ∧
      Safe builtinRegistry sampleList := by
  have hdump : Dumpable builtinRegistry sampleList :=
    .list (List.forall_mem_singleton.2 (.obj builtinRegistry_datetime rfl (.str _)))
  have hsafe : Safe builtinRegistry sampleList := by
    intro items hw
    rcases within_sampleList hw with h | h | h <;> cases h
  have hproper : Proper builtinRegistry sampleList := by
    constructor
    · intro items hw
      rcases within_sampleList hw with h | h | h <;> cases h
    · intro o hw handler data hr he
      rcases within_sampleList hw with h | h | h
      · cases h
      · obtain rfl := PyValue.obj.inj h
        obtain rfl := Option.some_inj.1 (builtinRegistry_datetime.symm.trans hr)
        obtain rfl := Except.ok.inj he
        rfl
      · cases h
  have hjson : ∀ n j, toJson builtinRegistry n sampleList = .ok j →
      sampleListModule.scan (sampleListModule.print j) = ⟨j, .none⟩ := by
    intro n j h
    rw [toJson_sampleList h]
    rfl
  obtain ⟨⟨limit, hlimit⟩, hboth⟩ := json_round_trip_iff (K := Unit) sampleListModule
    builtinRegistry sampleList hdump hproper hjson
  obtain ⟨raw, hraw⟩ := hlimit limit le_rfl
  have hiff := (hboth limit raw hraw).2 builtin_decodesToObjects builtin_sharp
  exact ⟨limit, raw, hraw, hiff.2 hsafe, hsafe⟩

/-- What is printed of a dictionary of strings. -/
theorem toJson_strings (items : List (String × String)) {n : ℕ} {j : Json F}
    (h : toJson registry n (.dict (items.map fun p => (p.1, .str p.2))) = .ok j) :
    j = .obj (items.map fun p => (p.1, .str p.2)) := by
  cases n with
  | zero => cases h
  | succ n =>
      obtain ⟨members, rfl, hmembers⟩ := toJson_dict_eq_ok.1 h
      rw [List.forall₂_map_left_iff] at hmembers
      have heq : List.Forall₂ (fun (p : String × String) m => (p.1, Json.str p.2) = m) items
          members := by
        refine hmembers.imp fun p m ⟨hkey, ht⟩ => ?_
        cases n with
        | zero => cases ht
        | succ n =>
            rw [toJson, Except.ok.injEq] at ht
            exact Prod.ext hkey ht
      rw [← List.forall₂_map_left_iff (f := fun p : String × String => (p.1, Json.str p.2)),
        List.forall₂_eq_eq_eq] at heq
      rw [heq]

/-- It is printed like the envelope of an instant. -/
theorem loads_sampleDict : JsonSerializer.loads sampleDictModule builtinRegistry
    (encode (sampleDictModule.print sampleDictJson)) =
      .ok (.obj (.datetime "2025-01-01T12:00:00") : PyValue Unit (StdObject isoTexts Empty)) := by
  have hkey : typeKey datetimeClass = "datetime.datetime" := by decide
  have hscan : sampleDictModule.scan (sampleDictModule.print sampleDictJson) =
      ⟨.obj [(envelopeTypeKey, .str (typeKey datetimeClass)),
        (envelopeDataKey, .str "2025-01-01T12:00:00")], .none⟩ := by
    rw [hkey]
    rfl
  have hdata : ofJson (envelopeDecode builtinRegistry) (.str "2025-01-01T12:00:00" : Json Unit) =
      (.ok (.str "2025-01-01T12:00:00") :
        Except Error (PyValue Unit (StdObject isoTexts Empty))) := by
    rw [ofJson]
  rw [loads_eq_ok]
  exact attempt_envelope (o := (.datetime "2025-01-01T12:00:00" : StdObject isoTexts Empty)) hscan
    builtinRegistry_datetime hdata

/-- A dictionary of the user comes back as an instant. -/
theorem not_json_round_trip :
    (Dumpable builtinRegistry sampleDict ∧ Proper builtinRegistry sampleDict ∧
      ∀ n j, toJson builtinRegistry n sampleDict = .ok j →
        sampleDictModule.scan (sampleDictModule.print j) = ⟨j, .none⟩) ∧
    ∃ (raw : Bytes) (instant : StdObject isoTexts Empty),
      JsonSerializer.dumps sampleDictModule builtinRegistry 2 sampleDict = .ok raw ∧
      JsonSerializer.loads sampleDictModule builtinRegistry raw = .ok (.obj instant) ∧
      JsonSerializer.loads sampleDictModule builtinRegistry raw ≠ .ok sampleDict := by
  refine ⟨⟨?_, ⟨?_, ?_⟩, ?_⟩, ?_⟩
  · refine .dict fun item hi => ?_
    obtain ⟨p, -, rfl⟩ := List.mem_map.1 hi
    exact .str p.2
  · intro items hw
    cases hw with
    | refl => decide
    | dict hi hw =>
        obtain ⟨p, -, rfl⟩ := List.mem_map.1 hi
        cases hw
  · intro o hw
    cases hw with
    | dict hi hw =>
        obtain ⟨p, -, rfl⟩ := List.mem_map.1 hi
        cases hw
  · intro n j h
    rw [toJson_strings sampleItems h]
    rfl
  · refine ⟨encode (sampleDictModule.print sampleDictJson), .datetime "2025-01-01T12:00:00", rfl,
      loads_sampleDict, ?_⟩
    rw [loads_sampleDict]
    intro h
    cases Except.ok.inj h

end Serializers
