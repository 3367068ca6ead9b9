/-
Does registering one class make a difference for another?

The type registry is keyed by the dotted name of a class, its module and its qualified name joined
by a dot.  Both may contain dots themselves, so that a class nested in another one and a class of a
submodule may have the same dotted name.  Such classes share one entry of the registry: the last
one that is registered takes it over, and decodes what was written for the other.

Main definitions:

* `Serializers.PyClass.Overlaps` — classes that have the same dotted name without being the same;
* `Serializers.RegistryCall`, `Serializers.registryAfter` — the registry after any calls;
* `Serializers.Alike` — a class is treated in the same way by two registries;
* `Serializers.Independent` — no call for one class makes a difference for the other.

Main results:

* `Serializers.typeKey_eq_iff` — which classes have the same key;
* `Serializers.alike_purge` — the treatment of a class depends on the calls for its key only;
* `Serializers.registrations_independent_iff` — **when two classes are independent**;
* `Serializers.not_registrations_independent` — a nested class, and a class of a submodule;
* `Serializers.dumps_perform`, `Serializers.loads_perform` — which values and which contents a call
  makes no difference for.
-/

import Pysilience.Lib.Joined
import Pysilience.Lib.Purging
import Pysilience.Serializer.Printing

set_option relaxedAutoImplicit false
set_option autoImplicit false

namespace Serializers

open Joined Purging

universe u v w x

/-! ### Dotted names -/

/-- The module name of `D` goes on where that of `C` ends, with what the qualified name of `C`
begins with: `C` is nested in a class, and `D` is in a submodule that has the name of that class. -/
def PyClass.Overlaps (C D : PyClass) : Prop :=
  ∃ s, D.moduleName = C.moduleName ++ "." ++ s ∧ C.qualname = s ++ "." ++ D.qualname

variable {C D : PyClass}

theorem dotted_toList (s t : String) : (s ++ "." ++ t).toList = s.toList ++ '.' :: t.toList := by
  rw [String.toList_append, String.toList_append, List.append_assoc]
  rfl

/-- Whether classes overlap can be seen from the characters of their names. -/
theorem PyClass.overlaps_iff : C.Overlaps D ↔ Shifted '.' C.moduleName.toList C.qualname.toList
    D.moduleName.toList D.qualname.toList := by
  constructor
  · rintro ⟨s, hmodule, hname⟩
    exact ⟨s.toList, by rw [hmodule, dotted_toList], by rw [hname, dotted_toList]⟩
  · rintro ⟨s, hmodule, hname⟩
    refine ⟨String.ofList s, String.toList_inj.1 ?_, String.toList_inj.1 ?_⟩
    · rw [hmodule, dotted_toList, String.toList_ofList]
    · rw [hname, dotted_toList, String.toList_ofList]

/-- **Which classes have the same key**: the same class, and classes that overlap. -/
theorem typeKey_eq_iff : typeKey C = typeKey D ↔ C = D ∨ C.Overlaps D ∨ D.Overlaps C := by
  rw [typeKey, typeKey, ← String.toList_inj, dotted_toList, dotted_toList, join_eq_iff,
    ← PyClass.overlaps_iff, ← PyClass.overlaps_iff, String.toList_inj, String.toList_inj]
  refine or_congr_left ?_
  obtain ⟨moduleName, qualname⟩ := C
  obtain ⟨moduleName', qualname'⟩ := D
  rw [PyClass.mk.injEq]

theorem PyClass.Overlaps.ne (h : C.Overlaps D) : C ≠ D := by
  rintro rfl
  exact (PyClass.overlaps_iff.1 h).ne rfl

/-- A class whose names contain no dots overlaps with none. -/
theorem not_overlaps_of_plain (hmodule : '.' ∉ D.moduleName.toList)
    (hname : '.' ∉ D.qualname.toList) : ¬ (C.Overlaps D ∨ D.Overlaps C) := by
  rintro (h | h)
  · exact hmodule (PyClass.overlaps_iff.1 h).mem_left
  · exact hname (PyClass.overlaps_iff.1 h).mem_right

/-- Classes that are not nested in others do not overlap. -/
theorem not_overlaps_of_topLevel (hC : '.' ∉ C.qualname.toList) (hD : '.' ∉ D.qualname.toList) :
    ¬ (C.Overlaps D ∨ D.Overlaps C) := by
  rintro (h | h)
  · exact hC (PyClass.overlaps_iff.1 h).mem_right
  · exact hD (PyClass.overlaps_iff.1 h).mem_right

/-! ### Calls that change the registry -/

/-- A call of `JsonSerializer.register` or `JsonSerializer.unregister`. -/
inductive RegistryCall (F : Type u) (O : Type v)
  | register (cls : PyClass) (handler : TypeHandler F O)
  | unregister (cls : PyClass)

variable {F : Type u} {O : Type v}

namespace RegistryCall

/-- The class the call is for. -/
def cls : RegistryCall F O → PyClass
  | .register cls _ => cls
  | .unregister cls => cls

/-- What the call leaves in the registry under the key of its class. -/
def entry : RegistryCall F O → Option (TypeHandler F O)
  | .register _ handler => some handler
  | .unregister _ => .none

/-- The effect of the call. -/
def perform (registry : Registry F O) : RegistryCall F O → Registry F O
  | .register cls handler => Serializers.register registry cls handler
  | .unregister cls => Serializers.unregister registry cls

/-- All a call can do. -/
theorem perform_apply (registry : Registry F O) (call : RegistryCall F O) (key : String) :
    call.perform registry key = if key = typeKey call.cls then call.entry else registry key := by
  cases call with
  | register cls handler => exact Function.update_apply registry (typeKey cls) (some handler) key
  | unregister cls => exact Function.update_apply registry (typeKey cls) .none key

theorem perform_of_ne {registry : Registry F O} {call : RegistryCall F O} {key : String}
    (h : key ≠ typeKey call.cls) : call.perform registry key = registry key := by
  rw [perform_apply, if_neg h]

end RegistryCall

/-- Of the entry under a key one sees nothing of the calls for other keys. -/
theorem registry_unwinding (key : String) :
    Unwinding RegistryCall.perform (fun registry : Registry F O => registry key)
      fun call => decide (typeKey call.cls ≠ key) where
  hide registry call hne := RegistryCall.perform_of_ne (of_decide_eq_true hne).symm
  carry registry registry' call hkey _ := by
    have hkey : typeKey call.cls = key := not_not.1 (of_decide_eq_false hkey)
    simp only [RegistryCall.perform_apply, hkey, if_true]

/-! ### The treatment of a class -/

variable [HasClass O]

/-- The dictionary is an envelope that was written for the class. -/
def IsEnvelopeFor (cls : PyClass) (items : List (String × PyValue F O)) : Prop :=
  (items.map Prod.fst).toFinset = {envelopeTypeKey, envelopeDataKey} ∧
    items.lookup envelopeTypeKey = some (.str (typeKey cls))

/-- What `_envelope_encode` returns. -/
theorem envelopeEncode_eq_ok {registry : Registry F O} {o : O} {v : PyValue F O} :
    envelopeEncode registry o = .ok v ↔ ∃ handler data,
      registry (typeKey (HasClass.classOf o)) = some handler ∧ handler.encode o = .ok data ∧
        v = .dict (envelope o data) := by
  rw [envelopeEncode]
  cases registry (typeKey (HasClass.classOf o)) with
  | none => simp
  | some handler =>
      cases he : handler.encode o with
      | error e => simp [he, Except.map]
      | ok data => simp [he, Except.map, envelope, eq_comm]

/-- It is an envelope that was written for the class of the object. -/
theorem isEnvelopeFor_of_encode {registry : Registry F O} {o : O}
    {items : List (String × PyValue F O)} (h : envelopeEncode registry o = .ok (.dict items)) :
    IsEnvelopeFor (HasClass.classOf o) items := by
  obtain ⟨handler, data, -, -, hitems⟩ := envelopeEncode_eq_ok.1 h
  obtain rfl := PyValue.dict.inj hitems
  exact ⟨(envelope_looks o data).1, List.lookup_cons_self⟩

omit [HasClass O] in
/-- An envelope is handed to the handler that is registered under its key. -/
theorem exists_envelopeDecode_eq {key : String} {items : List (String × PyValue F O)}
    (hkeys : (items.map Prod.fst).toFinset = {envelopeTypeKey, envelopeDataKey})
    (hkey : items.lookup envelopeTypeKey = some (.str key)) :
    ∃ data, ∀ registry : Registry F O, envelopeDecode registry items =
      match registry key with
      | .none => .error ⟨.valueError, [.text "Unknown pysilience type envelope: ", .repr key]⟩
      | some handler => handler.decode data := by
  have hlooks : LooksLikeEnvelope items := ⟨hkeys, key, hkey⟩
  obtain ⟨_, data, -, hdata, -⟩ := @envelopeDecode_of_looks F O (fun _ => .none) _ hlooks
  refine ⟨data, fun registry => ?_⟩
  obtain ⟨key', data', hkey', hdata', heq⟩ := @envelopeDecode_of_looks F O registry _ hlooks
  obtain rfl := PyValue.str.inj (Option.some_inj.1 (hkey.symm.trans hkey'))
  obtain rfl := Option.some_inj.1 (hdata.symm.trans hdata')
  exact heq

/-- The two registries treat the class in the same way: its instances are encoded alike, and the
envelopes written for it are decoded alike. -/
structure Alike (cls : PyClass) (registry registry' : Registry F O) : Prop where
  encode : ∀ o, HasClass.classOf o = cls → envelopeEncode registry o = envelopeEncode registry' o
  decode : ∀ items, IsEnvelopeFor cls items →
    envelopeDecode registry items = envelopeDecode registry' items

/-- Registries with the same entry under the key of the class treat it in the same way. -/
theorem alike_of_entry {cls : PyClass} {registry registry' : Registry F O}
    (h : registry (typeKey cls) = registry' (typeKey cls)) : Alike cls registry registry' where
  encode o ho := by
    subst ho
    rw [envelopeEncode, envelopeEncode, h]
  decode items hitems := by
    obtain ⟨data, hdata⟩ := exists_envelopeDecode_eq hitems.1 hitems.2
    rw [hdata registry, hdata registry', h]

/-- A handler that encodes every object as `None`, and decodes all data to the value. -/
def constantHandler (v : PyValue F O) : TypeHandler F O := ⟨fun _ => .ok .none, fun _ => .ok v⟩

omit [HasClass O] in
/-- Registering a class with the same key takes over the envelopes of the class. -/
theorem IsEnvelopeFor.decode_register {items : List (String × PyValue F O)}
    (h : IsEnvelopeFor D items) (hkey : typeKey C = typeKey D) (registry : Registry F O)
    (v : PyValue F O) :
    envelopeDecode (register registry C (constantHandler v)) items = .ok v := by
  obtain ⟨data, hdata⟩ := exists_envelopeDecode_eq h.1 h.2
  rw [hdata, register, hkey, Function.update_self]
  rfl

/-! ### Independent classes -/

section

variable {lib : StdLib.{v}} {I : Type v} [HasClass I]

/-- The registry after the import of the module and the calls. -/
def registryAfter (calls : List (RegistryCall F (StdObject lib I))) :
    Registry F (StdObject lib I) :=
  calls.foldl RegistryCall.perform builtinRegistry

theorem registryAfter_concat (calls : List (RegistryCall F (StdObject lib I)))
    (call : RegistryCall F (StdObject lib I)) :
    registryAfter (calls ++ [call]) = call.perform (registryAfter calls) :=
  List.foldl_concat ..

/-- **The treatment of a class depends on the calls for its key only.** -/
theorem alike_purge (D : PyClass) (calls : List (RegistryCall F (StdObject lib I))) :
    Alike D (registryAfter calls)
      (registryAfter (calls.filter fun call => typeKey call.cls = typeKey D)) := by
  have hpurge := (registry_unwinding (typeKey D)).purge calls
    (builtinRegistry : Registry F (StdObject lib I))
  simp only [ne_eq, decide_not, Bool.not_not] at hpurge
  exact alike_of_entry hpurge

/-- A call for a class with another key makes no difference, at once or later. -/
theorem alike_insert (hkey : typeKey C ≠ typeKey D)
    (before after : List (RegistryCall F (StdObject lib I)))
    {call : RegistryCall F (StdObject lib I)} (hcall : call.cls = C) :
    Alike D (registryAfter (before ++ call :: after)) (registryAfter (before ++ after)) := by
  subst hcall
  exact alike_of_entry ((registry_unwinding (typeKey D)).insert before after
    (decide_eq_true hkey) builtinRegistry)

variable (F lib I) in
/-- After any calls, no call for `C` makes a difference for `D`. -/
def Independent (C D : PyClass) : Prop :=
  ∀ (calls : List (RegistryCall F (StdObject lib I))) (call : RegistryCall F (StdObject lib I)),
    call.cls = C → Alike D (registryAfter (calls ++ [call])) (registryAfter calls)

theorem independent_of_typeKey_ne (hkey : typeKey C ≠ typeKey D) : Independent F lib I C D := by
  intro calls call hcall
  have hinsert := alike_insert hkey calls [] hcall
  rwa [List.append_nil] at hinsert

/-- A class can be registered over another one with the same key: an envelope of `D` that was
decoded to `v` is decoded to `w` from then on. -/
theorem Independent.decoded_eq (hind : Independent F lib I C D) (hkey : typeKey C = typeKey D)
    (v w : PyValue F (StdObject lib I)) : v = w := by
  have hitems : IsEnvelopeFor D
      [(envelopeTypeKey, (.str (typeKey D) : PyValue F (StdObject lib I))),
        (envelopeDataKey, .none)] := ⟨by simp, List.lookup_cons_self⟩
  have halike := (hind [.register D (constantHandler v)]
    (.register C (constantHandler w)) rfl).decode _ hitems
  have hown := hitems.decode_register rfl builtinRegistry v
  have htaken := hitems.decode_register hkey (registryAfter [.register D (constantHandler v)]) w
  rw [registryAfter_concat] at halike
  exact Except.ok.inj (hown.symm.trans (halike.symm.trans htaken))

theorem not_independent_of_typeKey_eq (hkey : typeKey C = typeKey D) :
    ¬ Independent F lib I C D := by
  intro hind
  cases hind.decoded_eq hkey .none (.bool true)

/-- Classes that are not nested in others are independent. -/
theorem independent_of_topLevel (hne : C ≠ D) (hC : '.' ∉ C.qualname.toList)
    (hD : '.' ∉ D.qualname.toList) : Independent F lib I C D := by
  refine independent_of_typeKey_ne fun hkey => ?_
  exact not_overlaps_of_topLevel hC hD ((typeKey_eq_iff.1 hkey).resolve_left hne)

/-- The built-in handlers can be changed only by calls for their own classes. -/
theorem independent_of_builtin (hne : C ≠ D)
    (hD : D ∈ [bytesClass, datetimeClass, dateClass, timeClass]) : Independent F lib I C D := by
  have hplain : ∀ D ∈ [bytesClass, datetimeClass, dateClass, timeClass],
      '.' ∉ D.moduleName.toList ∧ '.' ∉ D.qualname.toList := by
    decide
  obtain ⟨hmodule, hname⟩ := hplain D hD
  refine independent_of_typeKey_ne fun hkey => ?_
  exact not_overlaps_of_plain hmodule hname ((typeKey_eq_iff.1 hkey).resolve_left hne)

/-- **When two classes are independent.**  For every two classes, the statement that no
`register` or `unregister` of the first one, after any sequence of such calls, changes how instances
of the second one are encoded or how envelopes written for it are decoded, holds exactly unless the
classes overlap: the module name of the one is that of the other and `.s`, and the qualified name of
the other is `s.` and that of the one. -/
theorem registrations_independent_iff (C D : PyClass) :
    (C ≠ D → Independent F lib I C D) ↔ ¬ (C.Overlaps D ∨ D.Overlaps C) := by
  constructor
  · intro hind hoverlaps
    have hne : C ≠ D := hoverlaps.elim PyClass.Overlaps.ne fun h => h.ne.symm
    exact not_independent_of_typeKey_eq (typeKey_eq_iff.2 (.inr hoverlaps)) (hind hne)
  · intro hnot hne
    exact independent_of_typeKey_ne fun hkey => hnot ((typeKey_eq_iff.1 hkey).resolve_left hne)

end

/-- The class `Order` nested in the class `orders` of the module `shop`. -/
def nestedOrder : PyClass := ⟨"shop", "orders.Order"⟩

/-- The class `Order` of the submodule `shop.orders`. -/
def submoduleOrder : PyClass := ⟨"shop.orders", "Order"⟩

/-- Objects without contents, one of each class. -/
instance : HasClass PyClass := ⟨id⟩

/-- **The orders of the submodule are decoded to nested ones**, when the nested class is registered
after them. -/
theorem not_registrations_independent :
    nestedOrder ≠ submoduleOrder ∧
      ¬ Independent Unit isoTexts PyClass nestedOrder submoduleOrder := by
  refine ⟨by decide, fun hind => ?_⟩
  have hkey : typeKey nestedOrder = typeKey submoduleOrder := by decide
  have hobj := hind.decoded_eq hkey (.obj (.inst submoduleOrder)) (.obj (.inst nestedOrder))
  injection hobj with hinst
  injection hinst with hcls
  exact absurd hcls (by decide)

/-! ### Whole values and whole texts -/

omit [HasClass O] in
/-- A loop does the same when its body does the same for every element. -/
theorem mapM_congr {α : Type w} {β : Type x} {f g : α → Except Error β} {as : List α}
    (h : ∀ a ∈ as, f a = g a) : as.mapM f = as.mapM g := by
  induction as with
  | nil => rfl
  | cons a as ih =>
      rw [List.mapM_cons, List.mapM_cons, h a (.head _), ih fun b hb => h b (.tail _ hb)]

variable {registry registry' : Registry F O} {call : RegistryCall F O}

/-- An object that is printed on behalf of an envelope is printed on behalf of its data. -/
theorem within_envelope {o o' : O} {data : PyValue F O}
    (h : Within registry (.obj o') (.dict (envelope o data))) : Within registry (.obj o') data := by
  rw [envelope] at h
  cases h with
  | dict hitem hw =>
      rcases List.mem_pair.1 hitem with rfl | rfl
      · cases hw
      · exact hw

/-- A value is printed in the same way by registries with the same entries for all objects that are
printed on its behalf. -/
theorem toJson_congr (n : ℕ) : ∀ {v : PyValue F O},
    (∀ o, Within registry (.obj o) v →
      registry (typeKey (HasClass.classOf o)) = registry' (typeKey (HasClass.classOf o))) →
    toJson registry n v = toJson registry' n v := by
  induction n with
  | zero =>
      intro v _
      rw [toJson, toJson]
  | succ n ih =>
      intro v h
      cases v with
      | none | bool | int | float | str => rw [toJson, toJson]
      | list items =>
          rw [toJson, toJson]
          congr 1
          exact mapM_congr fun v hv => ih fun o ho => h o (.list hv ho)
      | dict items =>
          rw [toJson, toJson]
          congr 1
          refine mapM_congr fun item hitem => ?_
          rw [ih fun o ho => h o (.dict hitem ho)]
      | obj o =>
          have hsame := (alike_of_entry (h o .refl)).encode o rfl
          rw [toJson, toJson, ← hsame]
          cases he : envelopeEncode registry o with
          | error e => rfl
          | ok v =>
              obtain ⟨handler, data, hr, hdata, rfl⟩ := envelopeEncode_eq_ok.1 he
              refine ih fun o' ho' => h o' ?_
              exact .obj hr hdata (within_envelope ho')

/-- The hook is called on the dictionary when the text is read, if the reading gets that far. -/
inductive Hooked (hook : List (String × PyValue F O) → Except Error (PyValue F O)) :
    List (String × PyValue F O) → Json F → Prop
  | obj {members : List (String × Json F)} {items : List (String × PyValue F O)} :
      ofJsonEntries hook members = .ok items → Hooked hook (dictOf items) (.obj members)
  | member {members : List (String × Json F)} {m : String × Json F}
      {items : List (String × PyValue F O)} : m ∈ members → Hooked hook items m.2 →
      Hooked hook items (.obj members)
  | elem {js : List (Json F)} {j : Json F} {items : List (String × PyValue F O)} : j ∈ js →
      Hooked hook items j → Hooked hook items (.arr js)

section

omit [HasClass O]

variable {hook hook' : List (String × PyValue F O) → Except Error (PyValue F O)}

mutual

/-- A text is read in the same way with hooks that agree on the dictionaries they are called on. -/
theorem ofJson_congr : ∀ {j : Json F}, (∀ items, Hooked hook items j → hook items = hook' items) →
    ofJson hook j = ofJson hook' j
  | .null, _ | .bool _, _ | .int _, _ | .float _, _ | .str _, _ | .malformed _, _ => by
      rw [ofJson, ofJson]
  | .arr js, h => by
      rw [ofJson, ofJson, ofJsonItems_congr fun j hj items hi => h items (.elem hj hi)]
  | .obj members, h => by
      have hentries := ofJsonEntries_congr fun m (hm : m ∈ members) items hi =>
        h items (.member hm hi)
      rw [ofJson, ofJson, ← hentries]
      cases hread : ofJsonEntries hook members with
      | error e => rfl
      | ok items => exact h _ (.obj hread)

theorem ofJsonItems_congr : ∀ {js : List (Json F)},
    (∀ j ∈ js, ∀ items, Hooked hook items j → hook items = hook' items) →
      ofJsonItems hook js = ofJsonItems hook' js
  | [], _ => by rw [ofJsonItems, ofJsonItems]
  | j :: js, h => by
      rw [ofJsonItems, ofJsonItems, ofJson_congr (h j (.head _)),
        ofJsonItems_congr fun j' hj' => h j' (.tail _ hj')]

theorem ofJsonEntries_congr : ∀ {members : List (String × Json F)},
    (∀ m ∈ members, ∀ items, Hooked hook items m.2 → hook items = hook' items) →
      ofJsonEntries hook members = ofJsonEntries hook' members
  | [], _ => by rw [ofJsonEntries, ofJsonEntries]
  | (key, j) :: members, h => by
      rw [ofJsonEntries, ofJsonEntries, ofJson_congr (h (key, j) (.head _)),
        ofJsonEntries_congr fun m hm => h m (.tail _ hm)]

end

/-- A call does not change what the hook makes of dictionaries that are no envelopes for its
class. -/
theorem envelopeDecode_perform {items : List (String × PyValue F O)}
    (h : ¬ IsEnvelopeFor call.cls items) :
    envelopeDecode (call.perform registry) items = envelopeDecode registry items := by
  by_cases hlooks : LooksLikeEnvelope items
  · obtain ⟨hkeys, key, hkey⟩ := hlooks
    have hne : key ≠ typeKey call.cls := by
      rintro rfl
      exact h ⟨hkeys, hkey⟩
    obtain ⟨data, hdata⟩ := exists_envelopeDecode_eq hkeys hkey
    rw [hdata, hdata, RegistryCall.perform_of_ne hne]
  · rw [envelopeDecode_of_not hlooks, envelopeDecode_of_not hlooks]

/-- **Content without envelopes for the class of a call is loaded as before.** -/
theorem loads_perform (json : JsonModule F) {raw : Bytes}
    (h : ∀ text, decode raw = some text → ∀ items,
      Hooked (envelopeDecode registry) items (json.scan text).value →
        ¬ IsEnvelopeFor call.cls items) :
    JsonSerializer.loads json (call.perform registry) raw =
      JsonSerializer.loads json registry raw := by
  have hattempt : JsonSerializer.attempt json (call.perform registry) raw =
      JsonSerializer.attempt json registry raw := by
    unfold JsonSerializer.attempt
    cases htext : decode raw with
    | none => rfl
    | some text =>
        have hread := ofJson_congr fun items hi =>
          (envelopeDecode_perform (h text htext items hi)).symm
        simp only [jsonLoads, hread]
  rw [JsonSerializer.loads, JsonSerializer.loads, hattempt]

end

/-- **Values on whose behalf no instance of a class with the key of a call is printed are dumped as
before.** -/
theorem dumps_perform (json : JsonModule F) (limit : ℕ) {value : PyValue F O}
    (h : ∀ o, Within registry (.obj o) value →
      typeKey (HasClass.classOf o) ≠ typeKey call.cls) :
    JsonSerializer.dumps json (call.perform registry) limit value =
      JsonSerializer.dumps json registry limit value := by
  rw [JsonSerializer.dumps, JsonSerializer.dumps,
    toJson_congr limit fun o ho => (RegistryCall.perform_of_ne (h o ho)).symm]

end Serializers
