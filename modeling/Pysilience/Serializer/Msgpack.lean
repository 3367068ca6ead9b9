/-
`MsgpackSerializer`: MessagePack with registered extension types.

The registry of a serializer is kept in two dictionaries, from types to ids and from ids to
handlers.  Registering a type anew may move it to another id, and an id that belongs to another type
is refused.  `msgpack` is a parameter, with its constructor of extension values and its two
functions.

The two dictionaries are one table: every registered type has an id of its own, and its handlers are
under that id.  `Serializers.Msgpack.Consistent` says so, and every call keeps it.

Main definitions:

* `Serializers.MsgpackTypes` — the types, as far as the registry knows them;
* `Serializers.MsgpackSerializer` — the two dictionaries;
* `Serializers.MsgpackSerializer.registerType`, `Serializers.MsgpackSerializer.unregisterType`,
  `Serializers.MsgpackSerializer.register` — the changes to the registry;
* `Serializers.MsgpackSerializer.default`, `Serializers.MsgpackSerializer.extHook` — the two hooks;
* `Serializers.Msgpack.registry` — the machine of the calls on one serializer.

Main results:

* `Serializers.MsgpackSerializer.register_cases` — all `register_type` can do;
* `Serializers.Msgpack.Consistent.step` — every call keeps the table;
* `Serializers.Msgpack.registry_consistent` — **the registry is a bijection**, in every run.
-/

import Pysilience.Lib.OrderedDict
import Pysilience.Lib.Transition
import Pysilience.Serializer.CacheSerializer
import Mathlib.Data.Int.Notation

set_option relaxedAutoImplicit false
set_option autoImplicit false

namespace Serializers

open Collections Transition

universe u v w

/-! ### Types and handlers -/

/-- The functions registered for a type. -/
structure Handlers (V : Type v) where
  pack : V → Except Error Bytes
  unpack : Bytes → Except Error V

/-- The types of values, as far as the registry knows them; `__pack__` and `__unpack__` are looked
up along the `__mro__` of a class. -/
class MsgpackTypes (T : Type u) (V : outParam (Type v)) where
  typeOf : V → T
  qualname : T → String
  /-- `_is_instance_method(cls, "__pack__")`. -/
  hasPack : T → Bool
  /-- `_is_classmethod(cls, "__unpack__")`. -/
  hasUnpack : T → Bool
  /-- `cls.__pack__` and `cls.__unpack__`. -/
  methods : T → Handlers V

/-- The module `msgpack`, for extension values `X`. -/
structure MsgpackModule (V : Type v) (X : Type w) where
  /-- `ExtType(code, data)`. -/
  extType : ℤ → Bytes → Except Error X
  /-- `packb(value, default=default, use_bin_type=True)`. -/
  packb : (V → Except Error X) → V → Except Error Bytes
  /-- `unpackb(raw, raw=False, ext_hook=ext_hook)`. -/
  unpackb : (ℤ → Bytes → Except Error V) → Bytes → Except Error V

/-- The dictionaries `_ext_by_type` and `_handlers_by_id`. -/
structure MsgpackSerializer (T : Type u) (V : Type v) where
  extByType : OrderedDict T ℤ
  handlersById : OrderedDict ℤ (Handlers V)

variable {T : Type u} {V : Type v} {X : Type w} [DecidableEq T] [MsgpackTypes T V]

namespace MsgpackSerializer

omit [DecidableEq T] [MsgpackTypes T V] in
/-- `__init__`. -/
def init : MsgpackSerializer T V := ⟨OrderedDict.empty, OrderedDict.empty⟩

/-! ### The registry -/

/-- The test whether the id is free for the type.  The search for the owner of an id that is in use
raises a `StopIteration` if it finds none. -/
def checkOwner (s : MsgpackSerializer T V) (typ : T) (resolvedId : ℤ) : Except Error Unit :=
  match s.handlersById.get? resolvedId with
  | none => .ok ()
  | some _ =>
      match s.extByType.items.find? (·.2 = resolvedId) with
      | none => .error ⟨.other "StopIteration", []⟩
      | some (owner, _) =>
          if owner ≠ typ then
            .error ⟨.valueError, [.text "type_id ", .text (toString resolvedId),
              .text " is already registered to ", .repr (MsgpackTypes.qualname owner),
              .text "; call unregister_type() first"]⟩
          else .ok ()

/-- `register_type`: how it ends, and the registry it leaves. -/
def registerType (s : MsgpackSerializer T V) (typ : T) (handlers : Handlers V)
    (typeId : Option ℤ) : Except Error Unit × MsgpackSerializer T V :=
  match typeId.or (s.extByType.get? typ) with
  | none =>
      (.error ⟨.valueError,
        [.text "type_id is required to register ", .repr (MsgpackTypes.qualname typ)]⟩, s)
  | some resolvedId =>
      match s.checkOwner typ resolvedId with
      | .error e => (.error e, s)
      | .ok () =>
          let handlersById :=
            match s.extByType.get? typ with
            | some oldId =>
                if oldId ≠ resolvedId then s.handlersById.delItem oldId else s.handlersById
            | none => s.handlersById
          (.ok (), ⟨s.extByType.setItem typ resolvedId,
            handlersById.setItem resolvedId handlers⟩)

omit [MsgpackTypes T V] in
/-- `unregister_type`. -/
def unregisterType (s : MsgpackSerializer T V) (typ : T) : MsgpackSerializer T V :=
  match s.extByType.get? typ with
  | none => s
  | some typeId => ⟨s.extByType.delItem typ, s.handlersById.delItem typeId⟩

/-- The decorator `register(type_id)`, applied to a class. -/
def register (s : MsgpackSerializer T V) (cls : T) (typeId : ℤ) :
    Except Error Unit × MsgpackSerializer T V :=
  if MsgpackTypes.hasPack cls = false then
    (.error ⟨.typeError, [.repr (MsgpackTypes.qualname cls),
      .text " must define __pack__(self) -> bytes"]⟩, s)
  else if MsgpackTypes.hasUnpack cls = false then
    (.error ⟨.typeError, [.repr (MsgpackTypes.qualname cls),
      .text " must define @classmethod __unpack__(cls, data: bytes)"]⟩, s)
  else s.registerType cls (MsgpackTypes.methods cls) (some typeId)

/-! ### The hooks -/

/-- `_default`. -/
def default (s : MsgpackSerializer T V) (msgpack : MsgpackModule V X) (obj : V) :
    Except Error X :=
  match s.extByType.get? (MsgpackTypes.typeOf obj) with
  | none =>
      .error ⟨.typeError, [.text "Object of type ",
        .repr (MsgpackTypes.qualname (MsgpackTypes.typeOf (T := T) obj)),
        .text (" is not serializable. " ++
          "Register it with register_type() or @serializer.register(type_id=...).")]⟩
  | some typeId =>
      match s.handlersById.get? typeId with
      | none => .error ⟨.other "KeyError", [.text (toString typeId)]⟩
      | some handlers => (handlers.pack obj).bind (msgpack.extType typeId)

omit [DecidableEq T] [MsgpackTypes T V] in
/-- `_ext_hook`. -/
def extHook (s : MsgpackSerializer T V) (code : ℤ) (data : Bytes) : Except Error V :=
  match s.handlersById.get? code with
  | none =>
      .error ⟨.valueError, [.text "Unknown msgpack extension type: ", .text (toString code)]⟩
  | some handlers => handlers.unpack data

/-- The serializer.  `loads` turns the exceptions of `unpackb` that mean bad data into
`ValueError`s. -/
def serializer (s : MsgpackSerializer T V) (msgpack : MsgpackModule V X) : CacheSerializer V where
  dumps value := msgpack.packb (s.default msgpack) value
  loads raw :=
    match msgpack.unpackb s.extHook raw with
    | .ok value => .ok value
    | .error e =>
        if e.cls = .other "UnpackException" ∨ e.cls = .other "FormatError" ∨
          e.cls.isValueError = true then .error ⟨.valueError, e.message⟩
        else .error e

/-! ### All `register_type` can do -/

/-- The branches of `register_type`. -/
inductive RegisterCase (s : MsgpackSerializer T V) (typ : T) (handlers : Handlers V) :
    Except Error Unit × MsgpackSerializer T V → Prop
  /-- No id is given, and the type has none. -/
  | missing (message : List Piece) : s.extByType.get? typ = none →
      RegisterCase s typ handlers (.error ⟨.valueError, message⟩, s)
  /-- The id belongs to another type. -/
  | taken (message : List Piece) : RegisterCase s typ handlers (.error ⟨.valueError, message⟩, s)
  /-- The id is in use and belongs to no type. -/
  | lost (id : ℤ) (e : Error) : (∃ h, s.handlersById.get? id = some h) →
      (∀ owner, s.extByType.get? owner ≠ some id) → RegisterCase s typ handlers (.error e, s)
  /-- The id is free, or the type has it already. -/
  | accepted (id : ℤ) (s' : MsgpackSerializer T V) :
      s.handlersById.get? id = none ∨ s.extByType.get? typ = some id →
      (∀ T, s'.extByType.get? T = if T = typ then some id else s.extByType.get? T) →
      (∀ i, s'.handlersById.get? i =
        if i = id then some handlers
        else if s.extByType.get? typ = some i then none else s.handlersById.get? i) →
      RegisterCase s typ handlers (.ok (), s')

/-- The owner test passes when the id is free, or the type has it already; it raises a
`StopIteration` when the id is in use and belongs to no type. -/
theorem checkOwner_cases (s : MsgpackSerializer T V) (typ : T) (id : ℤ) :
    (s.checkOwner typ id = .ok () ∧
      (s.handlersById.get? id = none ∨ s.extByType.get? typ = some id)) ∨
    (∃ message, s.checkOwner typ id = .error ⟨.valueError, message⟩) ∨
    (s.checkOwner typ id = .error ⟨.other "StopIteration", []⟩ ∧
      (∃ h, s.handlersById.get? id = some h) ∧ ∀ owner, s.extByType.get? owner ≠ some id) := by
  unfold checkOwner
  cases hhandlers : s.handlersById.get? id with
  | none => exact .inl ⟨rfl, .inl rfl⟩
  | some h =>
      cases hfind : s.extByType.items.find? (·.2 = id) with
      | none =>
          refine .inr (.inr ⟨rfl, ⟨h, rfl⟩, fun owner howner => ?_⟩)
          have := List.find?_eq_none.1 hfind _ (OrderedDict.get?_eq_some.1 howner)
          simp at this
      | some p =>
          obtain ⟨owner, i⟩ := p
          obtain rfl : i = id := by simpa using List.find?_some hfind
          have howner := OrderedDict.get?_eq_some.2 (List.mem_of_find?_eq_some hfind)
          by_cases heq : owner = typ
          · subst heq
            exact .inl ⟨if_neg (not_not.2 rfl), .inr howner⟩
          · exact .inr (.inl ⟨_, if_pos heq⟩)

/-- **All `register_type` can do.** -/
theorem register_cases (s : MsgpackSerializer T V) (typ : T) (handlers : Handlers V)
    (typeId : Option ℤ) : RegisterCase s typ handlers (s.registerType typ handlers typeId) := by
  unfold registerType
  cases hid : typeId.or (s.extByType.get? typ) with
  | none => exact .missing _ (Option.or_eq_none_iff.1 hid).2
  | some id =>
      rcases checkOwner_cases s typ id with ⟨hok, hfree⟩ | ⟨message, herror⟩ | ⟨hlost, hused, hnone⟩
      · simp only [hok]
        refine .accepted id _ hfree (fun U => OrderedDict.get?_setItem _ _ _ _) fun i => ?_
        rw [OrderedDict.get?_setItem]
        cases hold : s.extByType.get? typ with
        | none => simp
        | some oldId =>
            by_cases hmove : oldId = id
            · subst hmove
              simp only [ne_eq, not_true_eq_false, if_false, Option.some_inj]
              by_cases hi : i = oldId
              · rw [if_pos hi, if_pos hi]
              · rw [if_neg hi, if_neg hi, if_neg (Ne.symm hi)]
            · simp only [ne_eq, hmove, not_false_eq_true, if_true, OrderedDict.get?_delItem,
                Option.some_inj, eq_comm (a := oldId)]
      · simp only [herror]
        exact .taken message
      · simp only [hlost]
        exact .lost id _ hused hnone

end MsgpackSerializer

/-! ### The calls on one serializer -/

namespace Msgpack

/-- A call that may change the registry. -/
inductive Call (T : Type u) (V : Type v)
  | registerType (typ : T) (handlers : Handlers V) (typeId : Option ℤ)
  | register (cls : T) (typeId : ℤ)
  | unregisterType (typ : T)

/-- A serializer, and the registrations that were accepted and the types that were given up, newest
first. -/
structure History (T : Type u) (V : Type v) where
  serializer : MsgpackSerializer T V
  log : List (T × Option (Handlers V))

namespace History

/-- The handlers that were registered most recently for the type, unless it was given up since. -/
def latest (r : History T V) (typ : T) : Option (Handlers V) :=
  (r.log.find? (·.1 = typ)).bind Prod.snd

/-- A registration, accepted or rejected. -/
def afterRegistration (r : History T V) (typ : T) (handlers : Handlers V) :
    Except Error Unit × MsgpackSerializer T V → History T V
  | (.ok (), s) => ⟨s, (typ, some handlers) :: r.log⟩
  | (.error _, s) => ⟨s, r.log⟩

/-- The effect of a call; every call is possible. -/
def step (r : History T V) : Call T V → Option (History T V)
  | .registerType typ handlers typeId =>
      some (r.afterRegistration typ handlers (r.serializer.registerType typ handlers typeId))
  | .register cls typeId =>
      some (r.afterRegistration cls (MsgpackTypes.methods cls) (r.serializer.register cls typeId))
  | .unregisterType typ => some ⟨r.serializer.unregisterType typ, (typ, none) :: r.log⟩

end History

variable (T V) in
/-- The machine: any calls, in any order. -/
def registry : Machine (History T V) (Call T V) := ⟨⟨MsgpackSerializer.init, []⟩, History.step⟩

/-- The two dictionaries are one table: no two types have the same id, every type in it has its most
recent handlers under its id, every id belongs to a type, and every type that was registered and not
given up is in it. -/
structure Consistent (r : History T V) : Prop where
  injective : ∀ typ typ' id, r.serializer.extByType.get? typ = some id →
    r.serializer.extByType.get? typ' = some id → typ = typ'
  found : ∀ typ id, r.serializer.extByType.get? typ = some id →
    ∃ h, r.serializer.handlersById.get? id = some h ∧ r.latest typ = some h
  owned : ∀ id h, r.serializer.handlersById.get? id = some h →
    ∃ typ, r.serializer.extByType.get? typ = some id
  registered : ∀ typ h, r.latest typ = some h → ∃ id, r.serializer.extByType.get? typ = some id

theorem Consistent.init : Consistent (registry T V).init := by
  have hext : ∀ typ : T, (registry T V).init.serializer.extByType.get? typ = none :=
    fun _ => rfl
  have hids : ∀ id, (registry T V).init.serializer.handlersById.get? id = none := fun _ => rfl
  refine ⟨fun typ typ' id h => ?_, fun typ id h => ?_, fun id h hh => ?_, nofun⟩
  · rw [hext] at h
    cases h
  · rw [hext] at h
    cases h
  · rw [hids] at hh
    cases hh

omit [MsgpackTypes T V] in
theorem latest_cons (s : MsgpackSerializer T V) (log : List (T × Option (Handlers V)))
    (typ typ' : T) (handlers : Option (Handlers V)) :
    (⟨s, (typ, handlers) :: log⟩ : History T V).latest typ' =
      if typ' = typ then handlers else (⟨s, log⟩ : History T V).latest typ' := by
  by_cases h : typ' = typ
  · simp [History.latest, h]
  · simp [History.latest, h, Ne.symm h]

omit [MsgpackTypes T V] in
/-- A registration keeps the table. -/
theorem Consistent.registration {r : History T V} (hr : Consistent r) {typ : T}
    {handlers : Handlers V} {result : Except Error Unit × MsgpackSerializer T V}
    (hcase : r.serializer.RegisterCase typ handlers result) :
    Consistent (r.afterRegistration typ handlers result) := by
  cases hcase with
  | missing message _ => exact ⟨hr.injective, hr.found, hr.owned, hr.registered⟩
  | taken message => exact ⟨hr.injective, hr.found, hr.owned, hr.registered⟩
  | lost id e => exact ⟨hr.injective, hr.found, hr.owned, hr.registered⟩
  | accepted id s' hfree hext hids =>
      -- no other type has the id
      have hother : ∀ U, r.serializer.extByType.get? U = some id → U = typ := by
        intro U hU
        rcases hfree with hnone | htyp
        · obtain ⟨h, hh, -⟩ := hr.found U id hU
          rw [hnone] at hh
          cases hh
        · exact hr.injective U typ id hU htyp
      refine ⟨?_, ?_, ?_, ?_⟩
      · intro U U' i hU hU'
        simp only [History.afterRegistration, hext] at hU hU'
        have := hr.injective U U' i
        grind
      · intro U i hU
        simp only [History.afterRegistration, hext] at hU
        simp only [History.afterRegistration, hids, latest_cons]
        by_cases htyp : U = typ
        · rw [if_pos htyp, Option.some_inj] at hU
          exact ⟨handlers, if_pos hU.symm, if_pos htyp⟩
        · rw [if_neg htyp] at hU
          -- the id of another type is neither taken over nor given up
          have hid : i ≠ id := fun h => htyp (hother U (h ▸ hU))
          have hold : r.serializer.extByType.get? typ ≠ some i :=
            fun h => htyp (hr.injective U typ i hU h)
          rw [if_neg hid, if_neg hold, if_neg htyp]
          exact hr.found U i hU
      · intro i h hh
        simp only [History.afterRegistration, hids] at hh
        simp only [History.afterRegistration, hext]
        by_cases hid : i = id
        · exact ⟨typ, by rw [if_pos rfl, hid]⟩
        · rw [if_neg hid] at hh
          split_ifs at hh with hold
          obtain ⟨U, hU⟩ := hr.owned i h hh
          have htyp : U ≠ typ := by
            rintro rfl
            exact hold hU
          exact ⟨U, by rw [if_neg htyp, hU]⟩
      · intro U h hU
        simp only [History.afterRegistration, latest_cons] at hU
        simp only [History.afterRegistration, hext]
        split_ifs at hU ⊢ with htyp
        · exact ⟨id, rfl⟩
        · exact hr.registered U h hU

omit [MsgpackTypes T V] in
/-- Giving up a type keeps the table. -/
theorem Consistent.unregistration {r : History T V} (hr : Consistent r) (typ : T) :
    Consistent ⟨r.serializer.unregisterType typ, (typ, none) :: r.log⟩ := by
  unfold MsgpackSerializer.unregisterType
  cases hid : r.serializer.extByType.get? typ with
  | none =>
      refine ⟨hr.injective, fun U i hU => ?_, hr.owned, fun U h hU => ?_⟩
      · have htyp : U ≠ typ := by
          rintro rfl
          rw [hid] at hU
          cases hU
        rw [latest_cons, if_neg htyp]
        exact hr.found U i hU
      · rw [latest_cons] at hU
        split_ifs at hU
        exact hr.registered U h hU
  | some id =>
      refine ⟨fun U U' i hU hU' => ?_, fun U i hU => ?_, fun i h hh => ?_, fun U h hU => ?_⟩
      · rw [OrderedDict.get?_delItem] at hU hU'
        split_ifs at hU hU'
        exact hr.injective U U' i hU hU'
      · rw [OrderedDict.get?_delItem] at hU
        split_ifs at hU with htyp
        have hne : i ≠ id := fun h => htyp (hr.injective U typ i hU (h ▸ hid))
        rw [OrderedDict.get?_delItem, if_neg hne, latest_cons, if_neg htyp]
        exact hr.found U i hU
      · rw [OrderedDict.get?_delItem] at hh
        split_ifs at hh with hne
        obtain ⟨U, hU⟩ := hr.owned i h hh
        have htyp : U ≠ typ := by
          rintro rfl
          exact hne (Option.some_inj.1 (hU.symm.trans hid))
        exact ⟨U, by rw [OrderedDict.get?_delItem, if_neg htyp, hU]⟩
      · rw [latest_cons] at hU
        split_ifs at hU with htyp
        obtain ⟨i, hi⟩ := hr.registered U h hU
        exact ⟨i, by rw [OrderedDict.get?_delItem, if_neg htyp, hi]⟩

/-- The decorator does what `register_type` does, or refuses the class and leaves the registry as it
is. -/
theorem register_eq (s : MsgpackSerializer T V) (cls : T) (typeId : ℤ) :
    (∃ message, s.register cls typeId = (.error ⟨.typeError, message⟩, s)) ∨
      s.register cls typeId = s.registerType cls (MsgpackTypes.methods cls) (some typeId) := by
  unfold MsgpackSerializer.register
  split_ifs
  · exact .inl ⟨_, rfl⟩
  · exact .inl ⟨_, rfl⟩
  · exact .inr rfl

/-- Every call keeps the table. -/
theorem Consistent.step {r r' : History T V} {call : Call T V} (hr : Consistent r)
    (h : r.step call = some r') : Consistent r' := by
  cases call with
  | registerType typ handlers typeId =>
      obtain rfl := Option.some_inj.1 h
      exact hr.registration (r.serializer.register_cases typ handlers typeId)
  | register cls typeId =>
      obtain rfl := Option.some_inj.1 h
      rcases register_eq r.serializer cls typeId with ⟨message, href⟩ | heq
      · rw [href]
        exact ⟨hr.injective, hr.found, hr.owned, hr.registered⟩
      · rw [heq]
        exact hr.registration (r.serializer.register_cases _ _ _)
  | unregisterType typ =>
      obtain rfl := Option.some_inj.1 h
      exact hr.unregistration typ

/-- The table holds in every run. -/
theorem consistent_of_reachable {r : History T V} (hr : (registry T V).Reachable r) :
    Consistent r :=
  hr.invariant Consistent.init fun _ _ _ hi hs => hi.step hs

/-- A rejected registration is a `ValueError`, and leaves the two dictionaries as they are. -/
theorem Consistent.rejected {r : History T V} (hr : Consistent r) {typ : T}
    {handlers : Handlers V} {typeId : Option ℤ} {e : Error} {s' : MsgpackSerializer T V}
    (h : r.serializer.registerType typ handlers typeId = (.error e, s')) :
    e.cls = .valueError ∧ s' = r.serializer := by
  have hcase := r.serializer.register_cases typ handlers typeId
  rw [h] at hcase
  cases hcase with
  | missing message _ => exact ⟨rfl, rfl⟩
  | taken message => exact ⟨rfl, rfl⟩
  | lost id _ hused hnone =>
      -- every id that is in use has an owner
      obtain ⟨handlers', hused⟩ := hused
      obtain ⟨owner, howner⟩ := hr.owned id handlers' hused
      exact absurd howner (hnone owner)

omit [DecidableEq T] [MsgpackTypes T V] in
/-- The hook for reading takes the handlers that are under the id. -/
theorem extHook_of_get? {s : MsgpackSerializer T V} {id : ℤ} {h : Handlers V}
    (hid : s.handlersById.get? id = some h) (data : Bytes) :
    s.extHook id data = h.unpack data := by
  rw [MsgpackSerializer.extHook, hid]

/-- The hook for writing takes the id of the type, and the handlers that are under it. -/
theorem default_of_get? {s : MsgpackSerializer T V} {obj : V} {id : ℤ} {h : Handlers V}
    (htyp : s.extByType.get? (MsgpackTypes.typeOf obj) = some id)
    (hid : s.handlersById.get? id = some h) (msgpack : MsgpackModule V X) :
    s.default msgpack obj = (h.pack obj).bind (msgpack.extType id) := by
  rw [MsgpackSerializer.default, htyp]
  simp only [hid]

/-- The hook for writing refuses the values of all other types. -/
theorem default_of_not_registered {s : MsgpackSerializer T V} {obj : V}
    (htyp : s.extByType.get? (MsgpackTypes.typeOf obj) = none) (msgpack : MsgpackModule V X) :
    ∃ message, s.default msgpack obj = .error ⟨.typeError, message⟩ := by
  rw [MsgpackSerializer.default, htyp]
  exact ⟨_, rfl⟩

/-- **The registry is a bijection**, after any calls, accepted and rejected: no two types have the
same id, the ids of the types are the ids that have handlers, and the types that have an id are
those that were registered and not given up since.  A rejected `register_type` is a `ValueError`,
and leaves both dictionaries as they are; the hook for writing never misses the handlers of a type;
and the id it writes is the one under which the hook for reading finds the handlers that were
registered last for the type. -/
theorem registry_consistent {r : History T V} (hr : (registry T V).Reachable r)
    (msgpack : MsgpackModule V X) :
    (∀ typ typ' id, r.serializer.extByType.get? typ = some id →
      r.serializer.extByType.get? typ' = some id → typ = typ') ∧
    (∀ id, (∃ typ, r.serializer.extByType.get? typ = some id) ↔
      ∃ h, r.serializer.handlersById.get? id = some h) ∧
    (∀ typ, (∃ id, r.serializer.extByType.get? typ = some id) ↔ ∃ h, r.latest typ = some h) ∧
    (∀ typ handlers typeId e s', r.serializer.registerType typ handlers typeId = (.error e, s') →
      e.cls = .valueError ∧ s' = r.serializer) ∧
    (∀ obj, r.serializer.extByType.get? (MsgpackTypes.typeOf obj) = none →
      ∃ message, r.serializer.default msgpack obj = .error ⟨.typeError, message⟩) ∧
    ∀ typ id, r.serializer.extByType.get? typ = some id →
      ∃ h, r.latest typ = some h ∧
        (∀ obj, MsgpackTypes.typeOf obj = typ →
          r.serializer.default msgpack obj = (h.pack obj).bind (msgpack.extType id)) ∧
        ∀ data, r.serializer.extHook id data = h.unpack data := by
  have htable := consistent_of_reachable hr
  refine ⟨htable.injective, fun id => ⟨?_, fun ⟨h, hh⟩ => htable.owned id h hh⟩,
    fun typ => ⟨?_, fun ⟨h, hh⟩ => htable.registered typ h hh⟩,
    fun typ handlers typeId e s' => htable.rejected,
    fun obj hobj => default_of_not_registered hobj msgpack, fun typ id hid => ?_⟩
  · rintro ⟨typ, hid⟩
    obtain ⟨h, hh, -⟩ := htable.found typ id hid
    exact ⟨h, hh⟩
  · rintro ⟨id, hid⟩
    obtain ⟨h, -, hlatest⟩ := htable.found typ id hid
    exact ⟨h, hlatest⟩
  · obtain ⟨h, hh, hlatest⟩ := htable.found typ id hid
    refine ⟨h, hlatest, fun obj hobj => ?_, extHook_of_get? hh⟩
    subst hobj
    exact default_of_get? hid hh msgpack

/-! ### Two classes -/

/-- An object: the name of its class, and its bytes. -/
structure Plain where
  cls : String
  bytes : Bytes

instance : MsgpackTypes String Plain where
  typeOf obj := obj.cls
  qualname cls := cls
  hasPack _ := true
  hasUnpack _ := true
  methods cls := ⟨fun obj => .ok obj.bytes, fun data => .ok ⟨cls, data⟩⟩

/-- Two classes want the id 64; the second one gets it when the first one has moved to the id 65.
Then an object of the second class is written under the id 64. -/
theorem registry_consistent_twoClasses :
    ∃ r : History String Plain, (registry String Plain).Reachable r ∧
      r.serializer.extByType.get? "GeoPoint" = some 64 ∧
      ∃ h, r.latest "GeoPoint" = some h ∧ ∀ obj : Plain, MsgpackTypes.typeOf obj = "GeoPoint" →
        r.serializer.default (X := ℤ × Bytes)
          ⟨fun id data => .ok (id, data), fun _ _ => .ok [], fun _ data => .ok ⟨"bytes", data⟩⟩
            obj = (h.pack obj).bind fun data => .ok (64, data) := by
  obtain ⟨r, hr, hid⟩ := Machine.exists_reachable_of_exec (registry String Plain)
    [.register "datetime" 64, .register "GeoPoint" 64, .register "datetime" 65,
      .register "GeoPoint" 64]
    (fun r => r.serializer.extByType.get? "GeoPoint" = some 64) (by decide)
  have hid : r.serializer.extByType.get? "GeoPoint" = some 64 := of_decide_eq_true hid
  obtain ⟨-, -, -, -, -, hfound⟩ := registry_consistent hr (X := ℤ × Bytes)
    ⟨fun id data => .ok (id, data), fun _ _ => .ok [], fun _ data => .ok ⟨"bytes", data⟩⟩
  obtain ⟨h, hlatest, hdefault, -⟩ := hfound "GeoPoint" 64 hid
  exact ⟨r, hr, hid, h, hlatest, hdefault⟩

end Msgpack

end Serializers
