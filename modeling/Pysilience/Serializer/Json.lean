/-
`JsonSerializer`: JSON with type envelopes.

What JSON cannot express is wrapped in an envelope, a dictionary of two items that names the type
and holds what the registered function made of the object.  `json.dumps` meets the objects on its
way down and wraps them through its `default` argument; `json.loads` calls its `object_hook` on
every dictionary on its way up, and the hook unwraps what looks like an envelope.

The module `json` is a parameter: a printer of plain JSON values and a scanner.  The scanner
reads a text from left to right and calls the hook on every dictionary it has completed, until it
comes to a place where the text is not JSON; `Serializers.Json` is therefore a tree that may break
off.  The nesting `json.dumps` can cope with is bounded by the recursion limit of the interpreter,
which is the fuel of `Serializers.toJson`.

Main definitions:

* `Serializers.PyValue`, `Serializers.Json` — values, and JSON texts as they are read;
* `Serializers.Registry`, `Serializers.register`, `Serializers.unregister` — the type registry;
* `Serializers.envelopeEncode`, `Serializers.envelopeDecode` — the two hooks;
* `Serializers.JsonSerializer.dumps`, `Serializers.JsonSerializer.loads` — the serializer;
* `Serializers.StdObject`, `Serializers.builtinRegistry` — the built-in handlers.

Main results:

* `Serializers.mapM_eq_ok` — a loop that returns has returned for every element;
* `Serializers.ofJsonEntries_eq_ok` — the same for the values of a dictionary.
-/

import Pysilience.Lib.OrderedDict
import Pysilience.Serializer.CacheSerializer
import Mathlib.Data.Finset.Insert
import Mathlib.Data.List.Forall2
import Mathlib.Logic.Function.Basic

set_option relaxedAutoImplicit false
set_option autoImplicit false

namespace Serializers

open Collections

universe u v w x

/-! ### Values and texts -/

/-- The values a cache may hold: what JSON can express, and objects `O` that it cannot. -/
inductive PyValue (F : Type u) (O : Type v)
  | none
  | bool (b : Bool)
  | int (n : ℤ)
  | float (x : F)
  | str (s : String)
  | list (items : List (PyValue F O))
  | dict (items : List (String × PyValue F O))
  | obj (o : O)

/-- A JSON text as the scanner reads it.  At `malformed` it is not JSON, with the message of the
`JSONDecodeError` that is raised when the scanner gets there. -/
inductive Json (F : Type u)
  | null
  | bool (b : Bool)
  | int (n : ℤ)
  | float (x : F)
  | str (s : String)
  | arr (items : List (Json F))
  | obj (members : List (String × Json F))
  | malformed (message : String)

/-- A whole text: its value, and the message of the `JSONDecodeError` that is raised when something
follows it. -/
structure Document (F : Type u) where
  value : Json F
  extraData : Option String := .none

/-- The module `json`, and the text of a `UnicodeDecodeError`. -/
structure JsonModule (F : Type u) where
  /-- `json.dumps(…, separators=(",", ":"))` of a plain value. -/
  print : Json F → String
  scan : String → Document F
  undecodable : Bytes → String

variable {F : Type u} {O : Type v}

/-! ### The type registry -/

/-- A class, as far as the registry knows it. -/
structure PyClass where
  moduleName : String
  qualname : String
  deriving DecidableEq, Repr

/-- `__name__`: the last part of the qualified name. -/
def PyClass.name (cls : PyClass) : String := (cls.qualname.splitOn ".").getLastD cls.qualname

/-- The classes of the objects. -/
class HasClass (O : Type v) where
  classOf : O → PyClass

/-- `_type_key`. -/
def typeKey (cls : PyClass) : String := cls.moduleName ++ "." ++ cls.qualname

/-- A registry entry. -/
structure TypeHandler (F : Type u) (O : Type v) where
  encode : O → Except Error (PyValue F O)
  decode : PyValue F O → Except Error (PyValue F O)

/-- `_type_registry`. -/
abbrev Registry (F : Type u) (O : Type v) := String → Option (TypeHandler F O)

/-- `JsonSerializer.register`, which is `_register_type`. -/
def register (registry : Registry F O) (cls : PyClass) (handler : TypeHandler F O) :
    Registry F O :=
  Function.update registry (typeKey cls) (some handler)

/-- `JsonSerializer.unregister`. -/
def unregister (registry : Registry F O) (cls : PyClass) : Registry F O :=
  Function.update registry (typeKey cls) .none

/-! ### Envelopes -/

def envelopeTypeKey : String := "__pysilience_type__"

def envelopeDataKey : String := "data"

variable [HasClass O]

/-- `value.__class__.__name__`. -/
def PyValue.typeName : PyValue F O → String
  | .none => "NoneType"
  | .bool _ => "bool"
  | .int _ => "int"
  | .float _ => "float"
  | .str _ => "str"
  | .list _ => "list"
  | .dict _ => "dict"
  | .obj o => (HasClass.classOf o).name

/-- `_envelope_encode`. -/
def envelopeEncode (registry : Registry F O) (o : O) : Except Error (PyValue F O) :=
  let cls := HasClass.classOf o
  match registry (typeKey cls) with
  | .none =>
      .error ⟨.typeError, [.text "Object of type ", .repr cls.qualname,
        .text (" is not serializable. Register it with JsonSerializer.register() or use " ++
          "HmacPickleSerializer.")]⟩
  | some handler =>
      (handler.encode o).map fun data =>
        .dict [(envelopeTypeKey, .str (typeKey cls)), (envelopeDataKey, data)]

omit [HasClass O] in
/-- `_envelope_decode`. -/
def envelopeDecode (registry : Registry F O) (obj : List (String × PyValue F O)) :
    Except Error (PyValue F O) :=
  if (obj.map Prod.fst).toFinset = {envelopeTypeKey, envelopeDataKey} then
    match obj.lookup envelopeTypeKey, obj.lookup envelopeDataKey with
    | some (.str key), some data =>
        match registry key with
        | .none =>
            .error ⟨.valueError, [.text "Unknown pysilience type envelope: ", .repr key]⟩
        | some handler => handler.decode data
    | _, _ => .ok (.dict obj)
  else .ok (.dict obj)

/-! ### Printing and scanning -/

/-- What `json.dumps` makes of a value, with `_envelope_encode` as its `default`. -/
def toJson (registry : Registry F O) : ℕ → PyValue F O → Except Error (Json F)
  | 0, _ => .error ⟨.recursionError, [.text "maximum recursion depth exceeded"]⟩
  | _ + 1, .none => .ok .null
  | _ + 1, .bool b => .ok (.bool b)
  | _ + 1, .int n => .ok (.int n)
  | _ + 1, .float x => .ok (.float x)
  | _ + 1, .str s => .ok (.str s)
  | n + 1, .list items => (items.mapM (toJson registry n)).map .arr
  | n + 1, .dict items =>
      (items.mapM fun item => (toJson registry n item.2).map (item.1, ·)).map .obj
  | n + 1, .obj o => (envelopeEncode registry o).bind (toJson registry n)

/-- The dictionary of a list of items, of which the last one with a key counts. -/
def dictOf {α : Type v} (items : List (String × α)) : List (String × α) :=
  (items.foldl (fun d item => d.setItem item.1 item.2) OrderedDict.empty).items

omit [HasClass O] in
mutual

/-- What `json.loads` makes of a text, with the given `object_hook`. -/
def ofJson (hook : List (String × PyValue F O) → Except Error (PyValue F O)) :
    Json F → Except Error (PyValue F O)
  | .null => .ok .none
  | .bool b => .ok (.bool b)
  | .int n => .ok (.int n)
  | .float x => .ok (.float x)
  | .str s => .ok (.str s)
  | .arr items => (ofJsonItems hook items).map .list
  | .obj members => (ofJsonEntries hook members).bind fun items => hook (dictOf items)
  | .malformed message => .error ⟨.jsonDecodeError, [.text message]⟩

def ofJsonItems (hook : List (String × PyValue F O) → Except Error (PyValue F O)) :
    List (Json F) → Except Error (List (PyValue F O))
  | [] => .ok []
  | j :: js => (ofJson hook j).bind fun v => (ofJsonItems hook js).map (v :: ·)

def ofJsonEntries (hook : List (String × PyValue F O) → Except Error (PyValue F O)) :
    List (String × Json F) → Except Error (List (String × PyValue F O))
  | [] => .ok []
  | (key, j) :: members =>
      (ofJson hook j).bind fun v => (ofJsonEntries hook members).map ((key, v) :: ·)

end

/-! ### The serializer -/

omit [HasClass O] in
/-- `json.loads(text, object_hook=_envelope_decode)`. -/
def jsonLoads (json : JsonModule F) (registry : Registry F O) (text : String) :
    Except Error (PyValue F O) :=
  (ofJson (envelopeDecode registry) (json.scan text).value).bind fun value =>
    match (json.scan text).extraData with
    | .none => .ok value
    | some message => .error ⟨.jsonDecodeError, [.text message]⟩

namespace JsonSerializer

/-- `JsonSerializer.dumps`; `limit` is the recursion limit. -/
def dumps (json : JsonModule F) (registry : Registry F O) (limit : ℕ) (value : PyValue F O) :
    Except Error Bytes :=
  (toJson registry limit value).map fun j => encode (json.print j)

omit [HasClass O] in
/-- The `try` block of `JsonSerializer.loads`. -/
def attempt (json : JsonModule F) (registry : Registry F O) (raw : Bytes) :
    Except Error (PyValue F O) :=
  match decode raw with
  | .none => .error ⟨.unicodeDecodeError, [.text (json.undecodable raw)]⟩
  | some text => jsonLoads json registry text

omit [HasClass O] in
/-- `JsonSerializer.loads`: `raise ValueError(str(exc)) from exc`. -/
def loads (json : JsonModule F) (registry : Registry F O) (raw : Bytes) :
    Except Error (PyValue F O) :=
  match attempt json registry raw with
  | .ok value => .ok value
  | .error e =>
      if e.cls = .unicodeDecodeError ∨ e.cls = .jsonDecodeError then .error ⟨.valueError, e.message⟩
      else .error e

/-- `JsonSerializer()`. -/
def serializer (json : JsonModule F) (registry : Registry F O) (limit : ℕ) :
    CacheSerializer (PyValue F O) :=
  ⟨dumps json registry limit, loads json registry⟩

end JsonSerializer

/-! ### The built-in handlers -/

/-- The classes `datetime`, `date` and `time` with their `isoformat` and `fromisoformat`, and
`base64`.  Where a function raises a `ValueError`, it is given by its message. -/
structure StdLib where
  Datetime : Type v
  Date : Type v
  Time : Type v
  datetimeIso : Datetime → String
  datetimeOfIso : String → Except String Datetime
  dateIso : Date → String
  dateOfIso : String → Except String Date
  timeIso : Time → String
  timeOfIso : String → Except String Time
  b64encode : Bytes → String
  b64decode : String → Except String Bytes
  b64decodeBytes : Bytes → Except String Bytes

/-- The objects with a built-in handler, and the instances `I` of other classes. -/
inductive StdObject (lib : StdLib.{v}) (I : Type v)
  | bytes (b : Bytes)
  | datetime (d : lib.Datetime)
  | date (d : lib.Date)
  | time (t : lib.Time)
  | inst (i : I)

variable {lib : StdLib.{v}} {I : Type v}

def bytesClass : PyClass := ⟨"builtins", "bytes"⟩
def datetimeClass : PyClass := ⟨"datetime", "datetime"⟩
def dateClass : PyClass := ⟨"datetime", "date"⟩
def timeClass : PyClass := ⟨"datetime", "time"⟩

instance [HasClass I] : HasClass (StdObject lib I) where
  classOf
    | .bytes _ => bytesClass
    | .datetime _ => datetimeClass
    | .date _ => dateClass
    | .time _ => timeClass
    | .inst i => HasClass.classOf i

section

variable [HasClass I]

/-- `encode=lambda d: d.isoformat(), decode=lambda s: cls.fromisoformat(s)`. -/
def isoHandler (toIso : StdObject lib I → Option String)
    (ofIso : String → Except String (StdObject lib I)) : TypeHandler F (StdObject lib I) where
  encode o :=
    match toIso o with
    | some s => .ok (.str s)
    | .none =>
        .error ⟨.other "AttributeError", [.repr (HasClass.classOf o).name,
          .text " object has no attribute 'isoformat'"]⟩
  decode
    | .str s =>
        match ofIso s with
        | .ok o => .ok (.obj o)
        | .error message => .error ⟨.valueError, [.text message]⟩
    | _ => .error ⟨.typeError, [.text "fromisoformat: argument must be str"]⟩

def datetimeHandler : TypeHandler F (StdObject lib I) :=
  isoHandler (fun | .datetime d => some (lib.datetimeIso d) | _ => .none)
    fun s => (lib.datetimeOfIso s).map .datetime

def dateHandler : TypeHandler F (StdObject lib I) :=
  isoHandler (fun | .date d => some (lib.dateIso d) | _ => .none)
    fun s => (lib.dateOfIso s).map .date

def timeHandler : TypeHandler F (StdObject lib I) :=
  isoHandler (fun | .time t => some (lib.timeIso t) | _ => .none)
    fun s => (lib.timeOfIso s).map .time

omit [HasClass I] in
/-- The result of `base64.b64decode`, whose exceptions are `ValueError`s. -/
def b64Result (result : Except String Bytes) : Except Error (PyValue F (StdObject lib I)) :=
  match result with
  | .ok b => .ok (.obj (.bytes b))
  | .error message => .error ⟨.valueError, [.text message]⟩

/-- The handler of `bytes`; `base64.b64decode` takes a string or a bytes-like object. -/
def bytesHandler : TypeHandler F (StdObject lib I) where
  encode
    | .bytes b => .ok (.str (lib.b64encode b))
    | o =>
        .error ⟨.typeError, [.text "a bytes-like object is required, not ",
          .repr (HasClass.classOf o).name]⟩
  decode
    | .str s => b64Result (lib.b64decode s)
    | .obj (.bytes b) => b64Result (lib.b64decodeBytes b)
    | data =>
        .error ⟨.typeError, [.text "argument should be a bytes-like object or ASCII string, not ",
          .repr data.typeName]⟩

/-- The registry as it is after the import of the module. -/
def builtinRegistry : Registry F (StdObject lib I) :=
  register (register (register (register (fun _ => .none)
    bytesClass bytesHandler) datetimeClass datetimeHandler) dateClass dateHandler)
    timeClass timeHandler

/-- The entries of the registry. -/
theorem builtinRegistry_eq_some {key : String} {handler : TypeHandler F (StdObject lib I)}
    (h : builtinRegistry key = some handler) :
    (key = typeKey timeClass ∧ handler = timeHandler) ∨
      (key = typeKey dateClass ∧ handler = dateHandler) ∨
      (key = typeKey datetimeClass ∧ handler = datetimeHandler) ∨
      (key = typeKey bytesClass ∧ handler = bytesHandler) := by
  simp only [builtinRegistry, register, Function.update_apply] at h
  split at h
  · next hkey => exact .inl ⟨hkey, (Option.some_inj.1 h).symm⟩
  · split at h
    · next hkey => exact .inr (.inl ⟨hkey, (Option.some_inj.1 h).symm⟩)
    · split at h
      · next hkey => exact .inr (.inr (.inl ⟨hkey, (Option.some_inj.1 h).symm⟩))
      · split at h
        · next hkey => exact .inr (.inr (.inr ⟨hkey, (Option.some_inj.1 h).symm⟩))
        · cases h

end

/-! ### A small library -/

/-- A library whose instants are their ISO texts. -/
def isoTexts : StdLib where
  Datetime := String
  Date := String
  Time := String
  datetimeIso := id
  datetimeOfIso := .ok
  dateIso := id
  dateOfIso := .ok
  timeIso := id
  timeOfIso := .ok
  b64encode _ := ""
  b64decode _ := .ok []
  b64decodeBytes _ := .ok []

instance : HasClass Empty := ⟨nofun⟩

/-- A module `json` that knows one value and its text. -/
def oneText (text : String) (j : Json Unit) : JsonModule Unit where
  print _ := text
  scan _ := ⟨j, .none⟩
  undecodable _ := ""

/-! ### Loops that return -/

omit [HasClass O] in
/-- A loop that returns has returned for every element. -/
theorem mapM_eq_ok {α : Type w} {β : Type x} {f : α → Except Error β} {as : List α} {bs : List β} :
    as.mapM f = .ok bs ↔ List.Forall₂ (fun a b => f a = .ok b) as bs := by
  induction as generalizing bs with
  | nil =>
      rw [List.mapM_nil]
      constructor
      · intro h
        injection h with h
        subst h
        exact .nil
      · rintro ⟨⟩
        rfl
  | cons a as ih =>
      rw [List.mapM_cons]
      cases ha : f a with
      | error e =>
          constructor
          · intro h
            cases h
          · rintro (_ | ⟨h, -⟩)
            rw [ha] at h
            cases h
      | ok b =>
          cases has : as.mapM f with
          | error e =>
              constructor
              · intro h
                cases h
              · rintro (_ | ⟨-, h⟩)
                rw [← ih, has] at h
                cases h
          | ok bs' =>
              constructor
              · intro h
                injection h with h
                subst h
                exact .cons ha (ih.1 has)
              · rintro (_ | ⟨h, hs⟩)
                rw [ha] at h
                rw [← ih, has] at hs
                injection h with h
                injection hs with hs
                rw [h, hs]
                rfl

section

omit [HasClass O]

variable {hook : List (String × PyValue F O) → Except Error (PyValue F O)}

/-- A list is read when all its elements are. -/
theorem ofJsonItems_eq_ok {js : List (Json F)} {vs : List (PyValue F O)} :
    ofJsonItems hook js = .ok vs ↔ List.Forall₂ (fun j v => ofJson hook j = .ok v) js vs := by
  induction js generalizing vs with
  | nil => cases vs <;> simp [ofJsonItems]
  | cons j js ih =>
      rw [ofJsonItems]
      cases hj : ofJson hook j with
      | error e => cases vs <;> simp [Except.bind, hj]
      | ok v =>
          cases hjs : ofJsonItems hook js with
          | error e => cases vs <;> simp [Except.bind, Except.map, hj, ← ih, hjs]
          | ok rest => cases vs <;> simp [Except.bind, Except.map, hj, ← ih, hjs]

/-- A dictionary is read when all its values are. -/
theorem ofJsonEntries_eq_ok {members : List (String × Json F)}
    {items : List (String × PyValue F O)} :
    ofJsonEntries hook members = .ok items ↔
      List.Forall₂ (fun m item => m.1 = item.1 ∧ ofJson hook m.2 = .ok item.2) members items := by
  induction members generalizing items with
  | nil => cases items <;> simp [ofJsonEntries]
  | cons m members ih =>
      obtain ⟨key, j⟩ := m
      rw [ofJsonEntries]
      cases hj : ofJson hook j with
      | error e => cases items <;> simp [Except.bind, hj]
      | ok v =>
          cases hms : ofJsonEntries hook members with
          | error e => cases items <;> simp [Except.bind, Except.map, hj, ← ih, hms]
          | ok rest =>
              cases items <;>
                simp [Except.bind, Except.map, hj, ← ih, hms, Prod.ext_iff, and_assoc]

end

/-- Items with different keys are the items of their dictionary. -/
theorem dictOf_of_nodup {α : Type v} {items : List (String × α)}
    (h : (items.map Prod.fst).Nodup) : dictOf items = items := by
  -- the items so far, and the ones to come, whose keys are all new
  have hfold : ∀ (items : List (String × α)) (d : OrderedDict String α),
      ((d.items ++ items).map Prod.fst).Nodup →
        (items.foldl (fun d item => d.setItem item.1 item.2) d).items = d.items ++ items := by
    intro items
    induction items with
    | nil => simp
    | cons item items ih =>
        intro d hd
        have hnew : ∀ p ∈ d.items, p.1 ≠ item.1 := by
          rw [List.map_append, List.nodup_append] at hd
          exact fun p hp => hd.2.2 _ (List.mem_map_of_mem hp) _ (List.mem_map_of_mem (.head _))
        have hset := OrderedDict.setItem_items_of_not_mem hnew item.2
        rw [List.foldl_cons, ih _ (by rw [hset, List.append_assoc]; exact hd), hset,
          List.append_assoc]
        rfl
  exact hfold items OrderedDict.empty h

end Serializers
