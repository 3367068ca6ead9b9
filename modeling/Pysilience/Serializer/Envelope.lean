/-
Envelopes, and what the hook of `json.loads` makes of them.

An envelope is recognised by its keys and the string under one of them, and by nothing else.  The
hook hands it to the handler of its type, and leaves every other dictionary alone.

Main definitions:

* `Serializers.LooksLikeEnvelope` — what the hook takes for an envelope;
* `Serializers.envelope` — the envelope of an object.

Main results:

* `Serializers.envelopeDecode_of_not`, `Serializers.envelopeDecode_of_looks` — what the hook does;
* `Serializers.ofJson_envelope`, `Serializers.attempt_envelope` — reading the envelope of an object.
-/

import Pysilience.Serializer.Json

set_option relaxedAutoImplicit false
set_option autoImplicit false

namespace Serializers

open Collections

universe u v w x

variable {F : Type u} {O : Type v} [HasClass O] {registry : Registry F O}

/-! ### Dictionaries with the same keys -/

section

omit [HasClass O]

variable {α : Type w} {β : Type x} {as : List (String × α)} {bs : List (String × β)}

theorem keys_eq (h : List.Forall₂ (fun a b => a.1 = b.1) as bs) :
    as.map Prod.fst = bs.map Prod.fst := by
  induction h with
  | nil => rfl
  | cons hab _ ih => rw [List.map_cons, List.map_cons, hab, ih]

variable {R : α → β → Prop}

/-- Values under the same key are related. -/
theorem lookup_of_forall₂ (h : List.Forall₂ (fun a b => a.1 = b.1 ∧ R a.2 b.2) as bs) {key : String}
    {a : α} (ha : as.lookup key = some a) : ∃ b, bs.lookup key = some b ∧ R a b := by
  induction h with
  | nil => cases ha
  | @cons p q _ _ hpq _ ih =>
      obtain ⟨k, c⟩ := p
      obtain ⟨l, d⟩ := q
      obtain ⟨rfl, hcd⟩ : k = l ∧ R c d := hpq
      rw [List.lookup_cons] at ha ⊢
      split at ha
      · obtain rfl := Option.some_inj.1 ha
        exact ⟨d, rfl, hcd⟩
      · exact ih ha

/-- Setting a key to related values. -/
theorem setItem_forall₂ {d : OrderedDict String α} {d' : OrderedDict String β}
    (h : List.Forall₂ (fun a b => a.1 = b.1 ∧ R a.2 b.2) d.items d'.items) (key : String)
    {a : α} {b : β} (hab : R a b) :
    List.Forall₂ (fun a b => a.1 = b.1 ∧ R a.2 b.2) (d.setItem key a).items
      (d'.setItem key b).items := by
  have hkeys : (∀ p ∈ d.items, p.1 ≠ key) ↔ ∀ p ∈ d'.items, p.1 ≠ key := by
    have hmap := keys_eq (h.imp fun _ _ h => h.1)
    rw [← List.forall_mem_map (f := Prod.fst) (P := (· ≠ key)), hmap, List.forall_mem_map]
  by_cases hnew : ∀ p ∈ d.items, p.1 ≠ key
  · rw [OrderedDict.setItem_items_of_not_mem hnew,
      OrderedDict.setItem_items_of_not_mem (hkeys.1 hnew)]
    exact List.rel_append h (.cons ⟨rfl, hab⟩ .nil)
  · rw [OrderedDict.setItem, dif_neg hnew, OrderedDict.setItem, dif_neg (mt hkeys.2 hnew)]
    rw [List.forall₂_map_left_iff, List.forall₂_map_right_iff]
    refine h.imp ?_
    rintro p q ⟨hkey, hpq⟩
    refine ⟨hkey, ?_⟩
    rw [hkey]
    split
    · exact hab
    · exact hpq

/-- The dictionaries of related items have related items. -/
theorem dictOf_forall₂ (h : List.Forall₂ (fun a b => a.1 = b.1 ∧ R a.2 b.2) as bs) :
    List.Forall₂ (fun a b => a.1 = b.1 ∧ R a.2 b.2) (dictOf as) (dictOf bs) := by
  have hfold : ∀ (d : OrderedDict String α) (d' : OrderedDict String β),
      List.Forall₂ (fun a b => a.1 = b.1 ∧ R a.2 b.2) d.items d'.items →
        List.Forall₂ (fun a b => a.1 = b.1 ∧ R a.2 b.2)
          (as.foldl (fun d item => d.setItem item.1 item.2) d).items
          (bs.foldl (fun d item => d.setItem item.1 item.2) d').items := by
    induction h with
    | nil => exact fun _ _ hd => hd
    | @cons p q _ _ hpq _ ih =>
        intro d d' hd
        rw [List.foldl_cons, List.foldl_cons, hpq.1]
        exact ih _ _ (setItem_forall₂ hd q.1 hpq.2)
  exact hfold OrderedDict.empty OrderedDict.empty .nil

end

/-! ### What looks like an envelope -/

/-- A dictionary with the two keys of an envelope and a string for the type. -/
def LooksLikeEnvelope (items : List (String × PyValue F O)) : Prop :=
  (items.map Prod.fst).toFinset = {envelopeTypeKey, envelopeDataKey} ∧
    ∃ s, items.lookup envelopeTypeKey = some (.str s)

omit [HasClass O] in
/-- A dictionary that does not look like an envelope is left alone. -/
theorem envelopeDecode_of_not {items : List (String × PyValue F O)}
    (h : ¬ LooksLikeEnvelope items) : envelopeDecode registry items = .ok (.dict items) := by
  unfold envelopeDecode
  split
  · next hkeys =>
    split
    · next key data hkey hdata => exact absurd ⟨hkeys, key, hkey⟩ h
    · rfl
  · rfl

omit [HasClass O] in
/-- A dictionary that looks like an envelope is handed to the handler of its type. -/
theorem envelopeDecode_of_looks {items : List (String × PyValue F O)}
    (h : LooksLikeEnvelope items) : ∃ key data, items.lookup envelopeTypeKey = some (.str key) ∧
      items.lookup envelopeDataKey = some data ∧ envelopeDecode registry items =
        match registry key with
        | .none => .error ⟨.valueError, [.text "Unknown pysilience type envelope: ", .repr key]⟩
        | some handler => handler.decode data := by
  obtain ⟨hkeys, key, hkey⟩ := h
  have hmem : envelopeDataKey ∈ items.map Prod.fst := by
    rw [← List.mem_toFinset, hkeys]
    exact Finset.mem_insert_of_mem (Finset.mem_singleton_self _)
  obtain ⟨item, hitem, hfst⟩ := List.mem_map.1 hmem
  obtain ⟨data, hdata⟩ := Option.isSome_iff_exists.1
    (List.lookup_isSome_iff.2 ⟨item, hitem, by rw [hfst]; exact beq_self_eq_true _⟩)
  refine ⟨key, data, hkey, hdata, ?_⟩
  cases hr : registry key with
  | none => simp [envelopeDecode, hkeys, hkey, hdata, hr]
  | some handler => simp [envelopeDecode, hkeys, hkey, hdata, hr]

/-! ### The envelope of an object -/

/-- The envelope of an object whose handler returned `data`. -/
def envelope (o : O) (data : PyValue F O) : List (String × PyValue F O) :=
  [(envelopeTypeKey, .str (typeKey (HasClass.classOf o))), (envelopeDataKey, data)]

theorem envelope_looks (o : O) (data : PyValue F O) : LooksLikeEnvelope (envelope o data) := by
  refine ⟨?_, typeKey (HasClass.classOf o), List.lookup_cons_self⟩
  simp [envelope]

/-- An envelope is handed to the handler of its object. -/
theorem envelopeDecode_envelope {o : O} {handler : TypeHandler F O} (data : PyValue F O)
    (h : registry (typeKey (HasClass.classOf o)) = some handler) :
    envelopeDecode registry (envelope o data) = handler.decode data := by
  obtain ⟨key, data', hkey, hdata, hdecode⟩ :=
    @envelopeDecode_of_looks F O registry _ (envelope_looks o data)
  have hne : (envelopeDataKey == envelopeTypeKey) = false := by decide
  rw [envelope, List.lookup_cons_self] at hkey
  rw [envelope, List.lookup_cons, hne, List.lookup_cons_self] at hdata
  obtain rfl := PyValue.str.inj (Option.some_inj.1 hkey)
  rw [hdecode, h, Option.some_inj.1 hdata]

theorem envelope_nodup (o : O) (data : PyValue F O) : ((envelope o data).map Prod.fst).Nodup := by
  simp [envelope, envelopeTypeKey, envelopeDataKey]

omit [HasClass O] in
/-- Reading the members of a dictionary with different keys calls the hook on them. -/
theorem ofJson_obj {hook : List (String × PyValue F O) → Except Error (PyValue F O)}
    {members : List (String × Json F)} (items : List (String × PyValue F O))
    (h : List.Forall₂ (fun m item => m.1 = item.1 ∧ ofJson hook m.2 = .ok item.2) members items)
    (hnodup : (items.map Prod.fst).Nodup) : ofJson hook (.obj members) = hook items := by
  rw [ofJson, ofJsonEntries_eq_ok.2 h, Except.bind, dictOf_of_nodup hnodup]

/-- Reading an envelope whose data are read as `data` decodes them. -/
theorem ofJson_envelope {o : O} {handler : TypeHandler F O} {data : PyValue F O} {j : Json F}
    (h : registry (typeKey (HasClass.classOf o)) = some handler)
    (hj : ofJson (envelopeDecode registry) j = .ok data) :
    ofJson (envelopeDecode registry) (.obj [(envelopeTypeKey,
      .str (typeKey (HasClass.classOf o))), (envelopeDataKey, j)]) = handler.decode data := by
  rw [ofJson_obj (envelope o data) _ (envelope_nodup o data),
    envelopeDecode_envelope data h]
  exact .cons ⟨rfl, by rw [ofJson]⟩ (.cons ⟨rfl, hj⟩ .nil)

/-- Loading the text of an envelope decodes its data. -/
theorem attempt_envelope {json : JsonModule F} {text : String} {o : O} {handler : TypeHandler F O}
    {data : PyValue F O} {j : Json F}
    (hscan : json.scan text = ⟨.obj [(envelopeTypeKey, .str (typeKey (HasClass.classOf o))),
      (envelopeDataKey, j)], .none⟩)
    (h : registry (typeKey (HasClass.classOf o)) = some handler)
    (hj : ofJson (envelopeDecode registry) j = .ok data) :
    JsonSerializer.attempt json registry (encode text) = handler.decode data := by
  simp only [JsonSerializer.attempt, decode_encode, jsonLoads, hscan, ofJson_envelope h hj]
  cases handler.decode data <;> rfl

/-- Reading an envelope reads its data first. -/
theorem ofJson_envelope_eq_ok {o : O} {handler : TypeHandler F O} {j : Json F} {v : PyValue F O}
    (hr : registry (typeKey (HasClass.classOf o)) = some handler)
    (h : ofJson (envelopeDecode registry) (.obj [(envelopeTypeKey,
      .str (typeKey (HasClass.classOf o))), (envelopeDataKey, j)]) = .ok v) :
    ∃ data, ofJson (envelopeDecode registry) j = .ok data ∧ handler.decode data = .ok v := by
  cases hj : ofJson (envelopeDecode registry) j with
  | error e => simp [ofJson, ofJsonEntries, hj, Except.bind, Except.map] at h
  | ok data => exact ⟨data, rfl, by rw [← ofJson_envelope hr hj, h]⟩

end Serializers
