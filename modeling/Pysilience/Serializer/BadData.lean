/-
Is bad data in the database a miss?

A serializer reports content it cannot load by a `ValueError`, which the backend turns into a miss;
any other exception leaves `get`.  `JsonSerializer` hands the data of an envelope to the handler
of its type whatever they are, and the built-in handlers raise a `TypeError` for data that are not
strings: a text crashes the lookup exactly when the first place at which reading it cannot go on is
such an envelope.  `HmacPickleSerializer` turns the `UnpicklingError` of `pickle.loads` into a
`ValueError`, and no other exception.

The scanner completes a dictionary after its values, so the places of a text are visited from the
inside out.

Main definitions:

* `Serializers.completed` — the places of a text, in the order in which they are visited;
* `Serializers.EnvelopeOf`, `Serializers.BytesOf` — envelopes, and those of byte strings;
* `Serializers.Refused`, `Serializers.Faulty` — the places that stop the reading;
* `Serializers.Crashes` — the first of them is a faulty one.

Main results:

* `Serializers.ofJson_outcome` — how reading a text ends;
* `Serializers.bad_data_is_miss_iff` — **when bad data are a miss**;
* `Serializers.not_bad_data_is_miss` — an envelope of bytes over a number, and an empty pickle.
-/

import Pysilience.Lib.Stopping
import Pysilience.Redis.Backend
import Pysilience.Serializer.Envelope
import Pysilience.Serializer.Hmac

set_option relaxedAutoImplicit false
set_option autoImplicit false

namespace Serializers

open Stopping

universe u v w x y

variable {F : Type u} {lib : StdLib.{v}} {I : Type v}

/-! ### The places of a text -/

mutual

/-- The dictionaries of a text and the place where it breaks off, in the order in which the scanner
comes to them. -/
def completed : Json F → List (Json F)
  | .arr items => completedItems items
  | .obj members => completedEntries members ++ [.obj members]
  | .malformed message => [.malformed message]
  | _ => []

def completedItems : List (Json F) → List (Json F)
  | [] => []
  | j :: js => completed j ++ completedItems js

def completedEntries : List (String × Json F) → List (Json F)
  | [] => []
  | (_, j) :: members => completed j ++ completedEntries members

end

/-- The members are those of an envelope, for the type `key` and over `j`. -/
def EnvelopeOf (members : List (String × Json F)) (key : String) (j : Json F) : Prop :=
  ((dictOf members).map Prod.fst).toFinset = {envelopeTypeKey, envelopeDataKey} ∧
    (dictOf members).lookup envelopeTypeKey = some (.str key) ∧
    (dictOf members).lookup envelopeDataKey = some j

/-- The text is an envelope of the byte string `b`: over its base64 text, or over another envelope
of a byte string that is its base64 text. -/
inductive BytesOf (lib : StdLib.{v}) : Json F → Bytes → Prop
  | text {members : List (String × Json F)} {s : String} {b : Bytes} :
      EnvelopeOf members (typeKey bytesClass) (.str s) → lib.b64decode s = .ok b →
      BytesOf lib (.obj members) b
  | bytes {members : List (String × Json F)} {j : Json F} {b b' : Bytes} :
      EnvelopeOf members (typeKey bytesClass) j → BytesOf lib j b →
      lib.b64decodeBytes b = .ok b' → BytesOf lib (.obj members) b'

/-- The types with a built-in handler. -/
def builtinKeys : List String := [bytesClass, datetimeClass, dateClass, timeClass].map typeKey

/-- The string is none that the built-in handler of the type accepts. -/
def Rejects (lib : StdLib.{v}) (key s : String) : Prop :=
  key = typeKey bytesClass ∧ (∃ message, lib.b64decode s = .error message) ∨
    key = typeKey datetimeClass ∧ (∃ message, lib.datetimeOfIso s = .error message) ∨
    key = typeKey dateClass ∧ (∃ message, lib.dateOfIso s = .error message) ∨
    key = typeKey timeClass ∧ ∃ message, lib.timeOfIso s = .error message

/-- The text is malformed there, or there is an envelope of an unknown type, or of a built-in type
over a string or a byte string that its handler rejects. -/
inductive Refused (lib : StdLib.{v}) : Json F → Prop
  | malformed (message : String) : Refused lib (.malformed message)
  | unknown {members : List (String × Json F)} {key : String} {j : Json F} :
      EnvelopeOf members key j → key ∉ builtinKeys → Refused lib (.obj members)
  | text {members : List (String × Json F)} {key s : String} :
      EnvelopeOf members key (.str s) → Rejects lib key s → Refused lib (.obj members)
  | bytes {members : List (String × Json F)} {j : Json F} {b : Bytes} {message : String} :
      EnvelopeOf members (typeKey bytesClass) j → BytesOf lib j b →
      lib.b64decodeBytes b = .error message → Refused lib (.obj members)

/-- There is an envelope of a built-in type over what is neither a string nor, if the type is
`bytes`, a byte string. -/
inductive Faulty (lib : StdLib.{v}) : Json F → Prop
  | envelope {members : List (String × Json F)} {key : String} {j : Json F} :
      EnvelopeOf members key j → key ∈ builtinKeys → (∀ s, j ≠ .str s) →
      (key = typeKey bytesClass → ∀ b, ¬ BytesOf lib j b) → Faulty lib (.obj members)

/-- A place at which the reading cannot go on. -/
def Stops (lib : StdLib.{v}) (n : Json F) : Prop := Refused lib n ∨ Faulty lib n

/-- The exception that is raised there. -/
def Raises (lib : StdLib.{v}) (n : Json F) (e : Error) : Prop :=
  Refused lib n ∧ e.cls.isValueError = true ∨ Faulty lib n ∧ e.cls = .typeError

/-- The first place at which reading the text cannot go on is a faulty envelope. -/
def Crashes (lib : StdLib.{v}) (j : Json F) : Prop :=
  ∃ n, First (Stops lib) (completed j) n ∧ Faulty lib n

theorem EnvelopeOf.unique {members : List (String × Json F)} {key key' : String} {j j' : Json F}
    (h : EnvelopeOf members key j) (h' : EnvelopeOf members key' j') : key = key' ∧ j = j' := by
  obtain ⟨-, hkey, hdata⟩ := h
  obtain ⟨-, hkey', hdata'⟩ := h'
  exact ⟨Json.str.inj (Option.some_inj.1 (hkey.symm.trans hkey')),
    Option.some_inj.1 (hdata.symm.trans hdata')⟩

/-- What is refused is not faulty. -/
theorem Refused.not_faulty {n : Json F} (h : Refused lib n) : ¬ Faulty lib n := by
  rintro ⟨henv, hkey, hstr, hbytes⟩
  cases h with
  | unknown henv' hunknown =>
      obtain ⟨rfl, -⟩ := henv.unique henv'
      exact hunknown hkey
  | text henv' _ =>
      obtain ⟨-, rfl⟩ := henv.unique henv'
      exact hstr _ rfl
  | bytes henv' hb _ =>
      obtain ⟨rfl, rfl⟩ := henv.unique henv'
      exact hbytes rfl _ hb

/-! ### What is read tells what was there -/

/-- The value was read from the text: strings come from strings, and byte strings from envelopes of
them. -/
structure Reads (lib : StdLib.{v}) (j : Json F) (v : PyValue F (StdObject lib I)) : Prop where
  str : ∀ s, v = .str s ↔ j = .str s
  bytes : ∀ b, v = .obj (.bytes b) ↔ BytesOf lib j b

theorem BytesOf.eq_obj {j : Json F} {b : Bytes} (h : BytesOf lib j b) :
    ∃ members key data, j = .obj members ∧ EnvelopeOf members key data ∧
      key = typeKey bytesClass := by
  cases h with
  | text henv _ => exact ⟨_, _, _, rfl, henv, rfl⟩
  | bytes henv _ _ => exact ⟨_, _, _, rfl, henv, rfl⟩

/-- A text is an envelope of at most one byte string. -/
theorem BytesOf.unique {j : Json F} {b b' : Bytes} (h : BytesOf lib j b) (h' : BytesOf lib j b') :
    b = b' := by
  induction h generalizing b' with
  | text henv hb =>
      cases h' with
      | text henv' hb' =>
          obtain ⟨-, hs⟩ := henv.unique henv'
          obtain rfl := Json.str.inj hs
          exact Except.ok.inj (hb.symm.trans hb')
      | bytes henv' hinner _ =>
          obtain ⟨-, rfl⟩ := henv.unique henv'
          cases hinner
  | bytes henv hinner hb ih =>
      cases h' with
      | text henv' _ =>
          obtain ⟨-, rfl⟩ := henv.unique henv'
          cases hinner
      | bytes henv' hinner' hb' =>
          obtain ⟨-, rfl⟩ := henv.unique henv'
          obtain rfl := ih hinner'
          exact Except.ok.inj (hb.symm.trans hb')

/-- An envelope of a byte string is read as it. -/
theorem reads_bytes {members : List (String × Json F)} {b : Bytes}
    (h : BytesOf lib (.obj members) b) :
    Reads lib (.obj members) (.obj (.bytes b) : PyValue F (StdObject lib I)) := by
  refine ⟨fun s => iff_of_false nofun nofun, fun b' => ⟨fun hb => ?_, fun hb => ?_⟩⟩
  · obtain rfl := StdObject.bytes.inj (PyValue.obj.inj hb)
    exact h
  · rw [h.unique hb]

/-- What is neither a string nor an object was read from neither. -/
theorem reads_of_ne {j : Json F} {v : PyValue F (StdObject lib I)} (hv : ∀ s, v ≠ .str s)
    (hv' : ∀ o, v ≠ .obj o) (hj : ∀ s, j ≠ .str s)
    (hj' : ∀ members key data, j = .obj members → ¬ EnvelopeOf members key data) :
    Reads lib j v := by
  refine ⟨fun s => iff_of_false (hv s) (hj s), fun b => iff_of_false (hv' _) fun h => ?_⟩
  obtain ⟨members, key, data, rfl, henv, -⟩ := h.eq_obj
  exact hj' members key data rfl henv

/-- What a dictionary looks like to the hook, of which the values have been read. -/
theorem envelopeDecode_reads {members : List (String × Json F)}
    {items : List (String × PyValue F (StdObject lib I))}
    (h : List.Forall₂ (fun m item => m.1 = item.1 ∧ Reads lib m.2 item.2) members items)
    (registry : Registry F (StdObject lib I)) :
    (∃ key j data, EnvelopeOf members key j ∧ Reads lib j data ∧
      envelopeDecode registry (dictOf items) =
        match registry key with
        | .none => .error ⟨.valueError, [.text "Unknown pysilience type envelope: ", .repr key]⟩
        | some handler => handler.decode data) ∨
    (∀ key j, ¬ EnvelopeOf members key j) ∧
      envelopeDecode registry (dictOf items) = .ok (.dict (dictOf items)) := by
  have hdict := dictOf_forall₂ h
  have hkeys := keys_eq (hdict.imp fun _ _ h => h.1)
  by_cases hlooks : LooksLikeEnvelope (dictOf items)
  · left
    obtain ⟨key, data, hkey, hdata, hdecode⟩ :=
      @envelopeDecode_of_looks F (StdObject lib I) registry _ hlooks
    have hback : List.Forall₂ (fun (item : String × PyValue F (StdObject lib I)) m =>
        item.1 = m.1 ∧ Reads lib m.2 item.2) (dictOf items) (dictOf members) :=
      List.Forall₂.flip (hdict.imp fun _ _ h => ⟨h.1.symm, h.2⟩)
    obtain ⟨t, ht, hread⟩ := lookup_of_forall₂ (R := fun v j => Reads lib j v) hback hkey
    obtain rfl := (hread.str key).1 rfl
    obtain ⟨j, hj, hread'⟩ := lookup_of_forall₂ (R := fun v j => Reads lib j v) hback hdata
    refine ⟨key, j, data, ⟨by rw [hkeys]; exact hlooks.1, ht, hj⟩, hread', hdecode.trans ?_⟩
    cases registry key <;> rfl
  · refine .inr ⟨fun key j henv => hlooks ?_, envelopeDecode_of_not hlooks⟩
    obtain ⟨hset, hkey, -⟩ := henv
    obtain ⟨v, hv, hread⟩ := lookup_of_forall₂ hdict hkey
    exact ⟨by rw [← hkeys]; exact hset, key, by rw [hv, (hread.str key).2 rfl]⟩

/-! ### The built-in handlers -/

theorem builtinRegistry_eq_none_iff [HasClass I] {key : String} :
    (builtinRegistry : Registry F (StdObject lib I)) key = none ↔ key ∉ builtinKeys := by
  simp only [builtinRegistry, register, Function.update_apply, builtinKeys, List.map_cons,
    List.map_nil, List.mem_cons, List.not_mem_nil, or_false, not_or]
  split_ifs <;> simp_all

/-- The types with a built-in handler are different. -/
theorem typeKey_ne : typeKey bytesClass ≠ typeKey datetimeClass ∧
    typeKey bytesClass ≠ typeKey dateClass ∧ typeKey bytesClass ≠ typeKey timeClass ∧
    typeKey datetimeClass ≠ typeKey dateClass ∧ typeKey datetimeClass ≠ typeKey timeClass ∧
    typeKey dateClass ≠ typeKey timeClass := by
  decide

section

variable {members : List (String × Json F)} {key : String} {j : Json F}
  {data : PyValue F (StdObject lib I)}

/-- An envelope of a known type whose handler takes the data does not stop the reading. -/
theorem not_stops (henv : EnvelopeOf members key j) (hkey : key ∈ builtinKeys)
    (htext : ∀ s, j = .str s → ¬ Rejects lib key s)
    (hbytes : ∀ b, key = typeKey bytesClass → BytesOf lib j b → ∃ b', lib.b64decodeBytes b = .ok b')
    (htake : (∃ s, j = .str s) ∨ key = typeKey bytesClass ∧ ∃ b, BytesOf lib j b) :
    ¬ Stops lib (.obj members) := by
  rintro (hrefused | hfaulty)
  · cases hrefused with
    | unknown henv' hunknown =>
        obtain ⟨rfl, -⟩ := henv.unique henv'
        exact hunknown hkey
    | text henv' hrejects =>
        obtain ⟨rfl, rfl⟩ := henv.unique henv'
        exact htext _ rfl hrejects
    | bytes henv' hb herror =>
        obtain ⟨rfl, rfl⟩ := henv.unique henv'
        obtain ⟨b', hb'⟩ := hbytes _ rfl hb
        rw [hb'] at herror
        cases herror
  · cases hfaulty with
    | envelope henv' _ hstr hnone =>
        obtain ⟨rfl, rfl⟩ := henv.unique henv'
        rcases htake with ⟨s, rfl⟩ | ⟨hcls, b, hb⟩
        · exact hstr s rfl
        · exact hnone hcls b hb

/-- Handing the data of an envelope to a handler made from `fromisoformat`. -/
theorem isoHandler_outcome [HasClass I] {A : Type v} {toIso : StdObject lib I → Option String}
    {ofIso : String → Except String A} {mk : A → StdObject lib I}
    (henv : EnvelopeOf members key j) (hread : Reads lib j data) (hkey : key ∈ builtinKeys)
    (hne : key ≠ typeKey bytesClass) (hmk : ∀ a b, mk a ≠ .bytes b)
    (hrejects : ∀ s, Rejects lib key s ↔ ∃ message, ofIso s = .error message) :
    Outcome (Stops lib) (Raises lib) [.obj members] (Reads lib (.obj members))
      ((isoHandler toIso fun s => (ofIso s).map mk : TypeHandler F (StdObject lib I)).decode
        data) := by
  have hfaulty : (∀ s, data ≠ .str s) → Faulty lib (.obj members) := fun hdata =>
    .envelope henv hkey (fun s hs => hdata s ((hread.str s).2 hs)) fun hcls => absurd hcls hne
  cases data with
  | str s =>
      obtain rfl := (hread.str s).1 rfl
      cases ho : ofIso s with
      | error message =>
          have hstop : Refused lib (.obj members) := .text henv ((hrejects s).2 ⟨message, ho⟩)
          simp only [isoHandler, ho, Except.map]
          exact Outcome.stop (.inl hstop) (.inl ⟨hstop, rfl⟩)
      | ok a =>
          simp only [isoHandler, ho, Except.map]
          refine Outcome.pass ⟨fun s => ?_, fun b => ?_⟩ (not_stops henv hkey ?_ ?_ (.inl ⟨s, rfl⟩))
          · exact iff_of_false nofun nofun
          · refine iff_of_false (fun h => hmk a b (PyValue.obj.inj h)) fun h => ?_
            obtain ⟨members', key', data, hmem, henv', hcls⟩ := h.eq_obj
            obtain rfl := Json.obj.inj hmem
            exact hne ((henv.unique henv').1.trans hcls)
          · intro s' hs' hrej
            obtain rfl := Json.str.inj hs'
            obtain ⟨message, hmessage⟩ := (hrejects s).1 hrej
            rw [ho] at hmessage
            cases hmessage
          · exact fun b hcls => absurd hcls hne
  | _ => exact Outcome.stop (.inr (hfaulty nofun)) (.inr ⟨hfaulty nofun, rfl⟩)

/-- Handing the data of an envelope to the handler of byte strings. -/
theorem bytesHandler_outcome [HasClass I] (henv : EnvelopeOf members (typeKey bytesClass) j)
    (hread : Reads lib j data) (hrejects : ∀ s, Rejects lib (typeKey bytesClass) s ↔
      ∃ message, lib.b64decode s = .error message) :
    Outcome (Stops lib) (Raises lib) [.obj members] (Reads lib (.obj members))
      ((bytesHandler : TypeHandler F (StdObject lib I)).decode data) := by
  have hkey : typeKey bytesClass ∈ builtinKeys := .head _
  have hfaulty : (∀ s, data ≠ .str s) → (∀ b, data ≠ .obj (.bytes b)) →
      Faulty lib (.obj members) := fun hstr hbytes =>
    .envelope henv hkey (fun s hs => hstr s ((hread.str s).2 hs))
      fun _ b hb => hbytes b ((hread.bytes b).2 hb)
  cases data with
  | str s =>
      obtain rfl := (hread.str s).1 rfl
      cases hb : lib.b64decode s with
      | error message =>
          have hstop : Refused lib (.obj members) := .text henv ((hrejects s).2 ⟨message, hb⟩)
          simp only [bytesHandler, b64Result, hb]
          exact Outcome.stop (.inl hstop) (.inl ⟨hstop, rfl⟩)
      | ok b =>
          simp only [bytesHandler, b64Result, hb]
          refine Outcome.pass (reads_bytes (.text henv hb)) (not_stops henv hkey ?_ ?_ ?_)
          · intro s' hs' hrej
            obtain rfl := Json.str.inj hs'
            obtain ⟨message, hmessage⟩ := (hrejects s).1 hrej
            rw [hb] at hmessage
            cases hmessage
          · intro b' _ hinner
            cases hinner
          · exact .inl ⟨s, rfl⟩
  | obj o =>
      cases o with
      | bytes b =>
          have hinner := (hread.bytes b).1 rfl
          cases hb : lib.b64decodeBytes b with
          | error message =>
              have hstop : Refused lib (.obj members) := .bytes henv hinner hb
              simp only [bytesHandler, b64Result, hb]
              exact Outcome.stop (.inl hstop) (.inl ⟨hstop, rfl⟩)
          | ok b' =>
              simp only [bytesHandler, b64Result, hb]
              refine Outcome.pass (reads_bytes (.bytes henv hinner hb))
                (not_stops henv hkey ?_ ?_ ?_)
              · intro s hs
                cases (hread.str s).2 hs
              · intro b₁ _ hb₁
                exact ⟨b', by rw [hb₁.unique hinner, hb]⟩
              · exact .inr ⟨rfl, b, hinner⟩
      | _ => exact Outcome.stop (.inr (hfaulty nofun nofun)) (.inr ⟨hfaulty nofun nofun, rfl⟩)
  | _ => exact Outcome.stop (.inr (hfaulty nofun nofun)) (.inr ⟨hfaulty nofun nofun, rfl⟩)

/-- Calling the hook on a dictionary of which the values have been read. -/
theorem envelopeDecode_outcome [HasClass I] {items : List (String × PyValue F (StdObject lib I))}
    (h : List.Forall₂ (fun m item => m.1 = item.1 ∧ Reads lib m.2 item.2) members items) :
    Outcome (Stops lib) (Raises lib) [.obj members] (Reads lib (.obj members))
      (envelopeDecode builtinRegistry (dictOf items)) := by
  rcases envelopeDecode_reads h builtinRegistry with
    ⟨key, j, data, henv, hread, hdecode⟩ | ⟨hnone, hdecode⟩
  · rw [hdecode]
    obtain ⟨h1, h2, h3, h4, h5, h6⟩ := typeKey_ne
    cases hr : (builtinRegistry : Registry F (StdObject lib I)) key with
    | none =>
        have hstop : Refused lib (.obj members) := .unknown henv (builtinRegistry_eq_none_iff.1 hr)
        exact Outcome.stop (.inl hstop) (.inl ⟨hstop, rfl⟩)
    | some handler =>
        have hkey : key ∈ builtinKeys := by
          by_contra hunknown
          rw [builtinRegistry_eq_none_iff.2 hunknown] at hr
          cases hr
        rcases builtinRegistry_eq_some hr with ⟨rfl, rfl⟩ | ⟨rfl, rfl⟩ | ⟨rfl, rfl⟩ | ⟨rfl, rfl⟩
        · refine isoHandler_outcome henv hread hkey h3.symm nofun fun s => ?_
          simp [Rejects, h3.symm, h5.symm, h6.symm]
        · refine isoHandler_outcome henv hread hkey h2.symm nofun fun s => ?_
          simp [Rejects, h2.symm, h4.symm, h6]
        · refine isoHandler_outcome henv hread hkey h1.symm nofun fun s => ?_
          simp [Rejects, h1.symm, h4, h5]
        · refine bytesHandler_outcome henv hread fun s => ?_
          simp [Rejects, h1, h2, h3]
  · rw [hdecode]
    refine Outcome.pass (reads_of_ne nofun nofun nofun ?_) ?_
    · intro members' key j hmem henv
      obtain rfl := Json.obj.inj hmem
      exact hnone key j henv
    · rintro (hrefused | ⟨henv, -⟩)
      · cases hrefused with
        | unknown henv => exact hnone _ _ henv
        | text henv => exact hnone _ _ henv
        | bytes henv => exact hnone _ _ henv
      · exact hnone _ _ henv

end

/-! ### How reading a text ends -/

section

variable [HasClass I]

mutual

/-- **How reading a text ends.**  Going through its places in order, the first one that stops the
reading is the one that raises. -/
theorem ofJson_outcome : ∀ j : Json F,
    Outcome (Stops lib) (Raises lib) (completed j) (Reads lib j)
      (ofJson (envelopeDecode (builtinRegistry : Registry F (StdObject lib I))) j)
  | .null | .bool _ | .int _ | .float _ => Outcome.pure (reads_of_ne nofun nofun nofun nofun)
  | .str s => Outcome.pure ⟨by simp, fun b => iff_of_false nofun nofun⟩
  | .arr items =>
      (ofJsonItems_outcome items).map fun _ _ => reads_of_ne nofun nofun nofun nofun
  | .obj members => (ofJsonEntries_outcome members).bind fun _ h => envelopeDecode_outcome h
  | .malformed message => Outcome.stop (.inl (.malformed message)) (.inl ⟨.malformed message, rfl⟩)

theorem ofJsonItems_outcome : ∀ js : List (Json F),
    Outcome (Stops lib) (Raises lib) (completedItems js) (List.Forall₂ (Reads lib) js)
      (ofJsonItems (envelopeDecode (builtinRegistry : Registry F (StdObject lib I))) js)
  | [] => Outcome.pure .nil
  | j :: js =>
      (ofJson_outcome j).bind fun _ hv => (ofJsonItems_outcome js).map fun _ hvs => .cons hv hvs

theorem ofJsonEntries_outcome : ∀ members : List (String × Json F),
    Outcome (Stops lib) (Raises lib) (completedEntries members)
      (List.Forall₂ (fun m item => m.1 = item.1 ∧ Reads lib m.2 item.2) members)
      (ofJsonEntries (envelopeDecode (builtinRegistry : Registry F (StdObject lib I))) members)
  | [] => Outcome.pure .nil
  | (_, j) :: members =>
      (ofJson_outcome j).bind fun _ hv =>
        (ofJsonEntries_outcome members).map fun _ hvs => .cons ⟨rfl, hv⟩ hvs

end

end

/-! ### When bad data are a miss -/

/-- Converting the exceptions of its `try` block, `loads` makes no `ValueError` of what was none. -/
theorem valueErrorOnly_iff_attempt (json : JsonModule F) (limit : ℕ) [HasClass I] (raw : Bytes) :
    (JsonSerializer.serializer json (builtinRegistry : Registry F (StdObject lib I))
      limit).ValueErrorOnly raw ↔
      ∀ e, JsonSerializer.attempt json (builtinRegistry : Registry F (StdObject lib I)) raw =
        .error e → e.cls.isValueError = true := by
  change (∀ e, JsonSerializer.loads json (builtinRegistry : Registry F (StdObject lib I)) raw =
    .error e → e.cls.isValueError = true) ↔ _
  unfold JsonSerializer.loads
  cases JsonSerializer.attempt json (builtinRegistry : Registry F (StdObject lib I)) raw with
  | ok v => exact iff_of_true nofun nofun
  | error e =>
      by_cases hcls : e.cls = .unicodeDecodeError ∨ e.cls = .jsonDecodeError
      · simp only [if_pos hcls]
        refine iff_of_true (fun e' he' => ?_) (fun e' he' => ?_)
        · obtain rfl := Except.error.inj he'
          rfl
        · obtain rfl := Except.error.inj he'
          rcases hcls with hcls | hcls
          · rw [hcls]
            rfl
          · rw [hcls]
            rfl
      · simp only [if_neg hcls]

/-- Loading a text raises something else than a `ValueError` exactly when it crashes. -/
theorem json_valueErrorOnly_iff (json : JsonModule F) (limit : ℕ) [HasClass I] (raw : Bytes) :
    (JsonSerializer.serializer json (builtinRegistry : Registry F (StdObject lib I))
      limit).ValueErrorOnly raw ↔
      ∀ text, decode raw = some text → ¬ Crashes lib (json.scan text).value := by
  rw [valueErrorOnly_iff_attempt]
  unfold JsonSerializer.attempt
  cases decode raw with
  | none =>
      constructor
      · intro _ text htext
        cases htext
      · intro _ e he
        obtain rfl := Except.error.inj he
        rfl
  | some text =>
      have houtcome := @ofJson_outcome F lib I _ (json.scan text).value
      simp only [Option.some.injEq, forall_eq', jsonLoads]
      cases hread : ofJson (envelopeDecode (builtinRegistry : Registry F (StdObject lib I)))
          (json.scan text).value with
      | ok v =>
          refine iff_of_true (fun e he => ?_) ?_
          · -- only what follows the text can still raise
            cases hextra : (json.scan text).extraData with
            | none => simp [Except.bind, hextra] at he
            | some message =>
                simp only [Except.bind, hextra] at he
                obtain rfl := Except.error.inj he
                rfl
          · rintro ⟨n, hfirst, -⟩
            obtain ⟨e, he, -⟩ := houtcome.of_first hfirst
            rw [hread] at he
            cases he
      | error e =>
          rw [hread] at houtcome
          obtain ⟨n, hfirst, hraises⟩ := houtcome
          rcases hraises with ⟨hrefused, hvalue⟩ | ⟨hfaulty, htype⟩
          · refine iff_of_true (fun e' he' => ?_) ?_
            · obtain rfl := Except.error.inj he'
              exact hvalue
            · rintro ⟨n', hfirst', hfaulty⟩
              obtain rfl := hfirst.unique hfirst'
              exact hrefused.not_faulty hfaulty
          · refine iff_of_false (fun h => ?_) (not_not_intro ⟨n, hfirst, hfaulty⟩)
            have := h e rfl
            rw [htype] at this
            cases this

/-- A lookup of what is stored returns, if the serializer raises nothing but `ValueError`s there. -/
theorem get_returns_iff {K : Type w} {V : Type x} {server : Redis.Server}
    (backend : Redis.RedisBackend V) (hashing : Redis.Hashing K) {mode : Redis.Mode}
    (hmode : backend.require mode = .ok ()) (db : Redis.Database server) (key : K) :
    (∃ result, backend.get hashing mode db key = .ok result) ↔
      ∀ raw, db.get (backend.key hashing key) = some raw →
        backend.serializer.ValueErrorOnly raw := by
  simp only [Redis.RedisBackend.get, hmode]
  cases db.get (backend.key hashing key) with
  | none =>
      refine iff_of_true ⟨none, rfl⟩ ?_
      intro raw hraw
      cases hraw
  | some raw =>
      simp only [Option.some.injEq, forall_eq', Redis.RedisBackend.load,
        CacheSerializer.ValueErrorOnly]
      cases backend.serializer.loads raw with
      | ok value =>
          refine iff_of_true ⟨some value, rfl⟩ ?_
          intro e he
          cases he
      | error e =>
          cases hcls : e.cls.isValueError with
          | false =>
              refine iff_of_false (by simp [hcls]) fun h => ?_
              have := h e rfl
              rw [hcls] at this
              cases this
          | true =>
              refine iff_of_true ⟨none, by simp [hcls]⟩ fun e' he' => ?_
              obtain rfl := Except.error.inj he'
              exact hcls

/-- **When bad data are a miss.**  On any content `JsonSerializer` returns a value or raises a
`ValueError`, unless it is a text that crashes.  `HmacPickleSerializer` does, unless the content
carries a valid signature and unpickling it raises something that is neither an `UnpicklingError`
nor a `ValueError`.  A lookup through a `RedisBackend` returns a value or a miss exactly when its
serializer does so on what is stored. -/
theorem bad_data_is_miss_iff {K : Type w} {V : Type x} {W : Type y} [HasClass I]
    (json : JsonModule F) (limit : ℕ) (signing : Signing) (pickle : PickleModule V)
    (secret : Bytes) (hashing : Redis.Hashing K) :
    (∀ raw, (JsonSerializer.serializer json (builtinRegistry : Registry F (StdObject lib I))
      limit).ValueErrorOnly raw ↔
        ∀ text, decode raw = some text → ¬ Crashes lib (json.scan text).value) ∧
    (∀ raw, (HmacPickleSerializer.serializer signing pickle secret).ValueErrorOnly raw ↔
      ∀ payload e, raw = sign signing payload secret → pickle.loads payload = .error e →
        e.cls = .unpicklingError ∨ e.cls.isValueError = true) ∧
    ∀ (backend : Redis.RedisBackend W) (mode : Redis.Mode), backend.require mode = .ok () →
      ∀ (server : Redis.Server) (db : Redis.Database server) (key : K),
        (∃ result, backend.get hashing mode db key = .ok result) ↔
          ∀ raw, db.get (backend.key hashing key) = some raw →
            backend.serializer.ValueErrorOnly raw :=
  ⟨json_valueErrorOnly_iff json limit, hmac_valueErrorOnly_iff signing pickle secret,
    fun backend _ hmode _ db key => get_returns_iff backend hashing hmode db key⟩

/-! ### Lookups of bad data -/

/-- A database with one item. -/
def holding (key : String) (raw : Bytes) : Redis.Database Redis.keyspace :=
  Redis.Database.empty.set key raw

theorem get_holding (key : String) (raw : Bytes) : (holding key raw).get key = some raw := by
  rw [holding, Redis.Database.get, Redis.Database.live_set, if_pos rfl]
  rfl

/-- A backend with both clients. -/
def backendWith {V : Type x} (serializer : CacheSerializer V) : Redis.RedisBackend V where
  serializer := serializer
  sync := true
  async := true
  clients := rfl

/-- A text that is not JSON. -/
def notJson : String := "stale"

/-- The module `json` on this text. -/
def noJson : JsonModule Unit :=
  oneText notJson (.malformed "Expecting value: line 1 column 1 (char 0)")

/-- A text that is not JSON does not stop a lookup. -/
theorem bad_data_is_miss_of_no_json :
    let backend := backendWith (JsonSerializer.serializer noJson
      (builtinRegistry : Registry Unit (StdObject isoTexts Empty)) 1000)
    ∀ hashing : Redis.Hashing String, ∃ result,
      backend.get hashing .sync (holding (backend.key hashing "k") (encode notJson)) "k" =
        .ok result := by
  intro backend hashing
  let signing : Signing := ⟨fun _ _ => .replicate 32 0, fun _ _ => List.length_replicate⟩
  let pickle : PickleModule Bytes := ⟨.ok, .ok⟩
  obtain ⟨hjson, -, hget⟩ := @bad_data_is_miss_iff Unit isoTexts Empty String Bytes
    (PyValue Unit (StdObject isoTexts Empty)) _ noJson 1000 signing pickle [] hashing
  refine (hget backend .sync rfl _ _ "k").2 fun raw' _ => (hjson raw').2 fun text _ => ?_
  rintro ⟨n, hfirst, hfaulty⟩
  obtain rfl := List.mem_singleton.1 hfirst.mem
  cases hfaulty

theorem builtinRegistry_bytes [HasClass I] :
    (builtinRegistry : Registry F (StdObject lib I)) (typeKey bytesClass) = some bytesHandler := by
  obtain ⟨h1, h2, h3, -, -, -⟩ := typeKey_ne
  simp [builtinRegistry, register, h1, h2, h3]

/-- An envelope of bytes over a number. -/
def numberInBytes : Json Unit :=
  .obj [(envelopeTypeKey, .str (typeKey bytesClass)), (envelopeDataKey, .int 5)]

def numberText : String := "\x7b\"__pysilience_type__\":\"builtins.bytes\",\"data\":5\x7d"

/-- The module `pickle`, which unpickles nothing from nothing. -/
def emptyPickle : PickleModule Bytes where
  dumps data := .ok (0 :: data)
  loads
    | [] => .error ⟨.eofError, [.text "Ran out of input"]⟩
    | _ :: data => .ok data

/-- A lookup of an envelope of bytes over a number raises a `TypeError`, and one of an empty pickle
that is signed an `EOFError`. -/
theorem not_bad_data_is_miss :
    (∃ e : Error, e.cls = .typeError ∧
      let backend := backendWith (JsonSerializer.serializer (oneText numberText numberInBytes)
        (builtinRegistry : Registry Unit (StdObject isoTexts Empty)) 1000)
      backend.serializer.loads (encode numberText) = .error e ∧
        ∀ (hashing : Redis.Hashing String) (mode : Redis.Mode), backend.get hashing mode
          (holding (backend.key hashing "k") (encode numberText)) "k" = .error e) ∧
    ∃ e : Error, e.cls = .eofError ∧ ∀ (signing : Signing) (secret : Bytes),
      let backend := backendWith (HmacPickleSerializer.serializer signing emptyPickle secret)
      backend.serializer.loads (sign signing [] secret) = .error e ∧
        ∀ (hashing : Redis.Hashing String) (mode : Redis.Mode), backend.get hashing mode
          (holding (backend.key hashing "k") (sign signing [] secret)) "k" = .error e := by
  -- what the serializer raises, if it is no `ValueError`, leaves the lookup
  have hget : ∀ {V : Type} (serializer : CacheSerializer V) (raw : Bytes) (e : Error),
      serializer.loads raw = .error e → e.cls.isValueError = false →
        ∀ (hashing : Redis.Hashing String) (mode : Redis.Mode),
          (backendWith serializer).get hashing mode
            (holding ((backendWith serializer).key hashing "k") raw) "k" = .error e := by
    intro V serializer raw e he hcls hashing mode
    have hmode : (backendWith serializer).require mode = .ok () := by cases mode <;> rfl
    have hser : (backendWith serializer).serializer.loads raw = .error e := he
    simp [Redis.RedisBackend.get, hmode, get_holding, Redis.RedisBackend.load, hser, hcls]
  constructor
  · have hloads : JsonSerializer.loads (oneText numberText numberInBytes)
        (builtinRegistry : Registry Unit (StdObject isoTexts Empty)) (encode numberText) =
          .error ⟨.typeError,
            [.text "argument should be a bytes-like object or ASCII string, not ",
              .repr "int"]⟩ := by
      have hattempt : JsonSerializer.attempt (oneText numberText numberInBytes)
          (builtinRegistry : Registry Unit (StdObject isoTexts Empty)) (encode numberText) =
            bytesHandler.decode (.int 5) := by
        have hscan : (oneText numberText numberInBytes).scan numberText =
            ⟨.obj [(envelopeTypeKey, .str (typeKey bytesClass)), (envelopeDataKey, .int 5)],
              .none⟩ := by
          rw [oneText, numberInBytes]
        have hdata : ofJson (envelopeDecode builtinRegistry) (.int 5 : Json Unit) =
            (.ok (.int 5) : Except Error (PyValue Unit (StdObject isoTexts Empty))) := by
          rw [ofJson]
        exact attempt_envelope (o := (.bytes [] : StdObject isoTexts Empty)) hscan
          builtinRegistry_bytes hdata
      rw [JsonSerializer.loads, hattempt]
      rfl
    exact ⟨_, rfl, hloads, hget _ _ _ hloads rfl⟩
  · refine ⟨⟨.eofError, [.text "Ran out of input"]⟩, rfl, fun signing secret => ?_⟩
    have hloads : (HmacPickleSerializer.serializer signing emptyPickle secret).loads
        (sign signing [] secret) = .error ⟨.eofError, [.text "Ran out of input"]⟩ :=
      verifyAndLoad_sign signing emptyPickle [] secret
    exact ⟨hloads, hget _ _ _ hloads rfl⟩

end Serializers
