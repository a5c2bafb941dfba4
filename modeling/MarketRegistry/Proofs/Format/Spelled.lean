import MarketRegistry.Proofs.Dump.Spellings
import MarketRegistry.Proofs.Dump.Tree
import MarketRegistry.Proofs.Format.Exact

/-!
# Spellings of values in a dump

A dump writes the values of a format more freely than json does: integers bare or quoted in
hexadecimal, addresses as bytes or in base 58, variants bare or as objects, and the names of
some fields in an older casing. Normalization brings every spelling to a variation of the
written form, provided that no name is mistaken for a quoted integer or address.

## Main definitions

* `Format.Spells` — a value and its spellings.
* `Format.Unmistakable` — formats whose names are taken for nothing else.
* `Json.Intact` — trees of which normalization leaves json without repeated keys.

## Main results

* `Format.intact_of_spells` — spellings are normalized to variations of the written form.
-/

namespace MarketRegistry

/-! ### Spellings -/

/-- A name in the **older casing**: `5Min` for `5min` and `24H` for `24h`. -/
def oldCasing : List Char → List Char
  | '5' :: 'm' :: 'i' :: 'n' :: cs => '5' :: 'M' :: 'i' :: 'n' :: oldCasing cs
  | '2' :: '4' :: 'h' :: cs => '2' :: '4' :: 'H' :: oldCasing cs
  | c :: cs => c :: oldCasing cs
  | [] => []

/-- The spellings of the name of a field. -/
def fieldSpellings (name : String) : List (List Char) :=
  [camelCase name.toList, oldCasing (camelCase name.toList)]

/-- The label of a variant as it is written. -/
def Enumeration.spelling {α : Type} (e : Enumeration α) (a : α) : List Char :=
  uncapitalized (e.label a).toList

mutual

/-- A value and its **spellings** in a dump. Only integers of 128 bits are spelled. -/
def Format.Spells : {α : Type} → Format α → α → Json → Prop
  | _, .int, i, j => isInt128 i ∧
      (j = .number (.int i) ∨ ∃ cs, IsHexText i cs ∧ j = .string (Text.ofChars cs))
  | _, .bool, b, j => j = .bool b
  | _, .bytes, bytes, j => j = .array (Json.ofBytes bytes)
  | _, .buffer _, b, j => j = .array (Json.ofBytes b.bytes)
  | _, .address, a, j => j = .array (Json.ofBytes a.bytes) ∨
      (¬a.isShadowed ∧ j = .string (Text.ofChars a.toText))
  | _, .optional _, none, j => j = .null
  | _, .optional format, some a, j => format.Spells a j
  | _, .variant e, a, j => j = .string (Text.ofChars (e.spelling a)) ∨
      j = .object [(Text.ofChars (e.spelling a), .object [])]
  | _, .record fields shape, a, j => ∃ ms os, j = .object os ∧ ms.Perm os ∧
      fields.Spells (shape.unpack a) ms
  | _, .unsupported _, a, _ => nomatch a

/-- The members of a record and their spellings, in the order of its fields. -/
def Fields.Spells : {α : Type} → Fields α → α → List (Text × Json) → Prop
  | _, .nil, _, ms => ms = []
  | _, .read name format _ rest, (a, b), ms => ∃ cs v ms', ms = (Text.ofChars cs, v) :: ms' ∧
      cs ∈ fieldSpellings name ∧ format.Spells a v ∧ rest.Spells b ms'
  | _, .given _ _ rest, (_, b), ms => rest.Spells b ms

end

/-- The name of a field is **clear** when none of its spellings can be taken for a quoted integer
or address, and the casing fixes bring them to its key. -/
def ClearName (name : String) : Prop :=
  ∀ cs ∈ fieldSpellings name, isPlainName cs ∧ fixCasing cs = camelCase name.toList

instance (name : String) : Decidable (ClearName name) :=
  inferInstanceAs (Decidable (∀ cs ∈ fieldSpellings name, _))

/-- The labels of an enumeration are **clear** when none of them can be taken for a quoted
integer or address, and the casing fixes leave them alone. -/
def Enumeration.Clear {α : Type} (e : Enumeration α) : Prop :=
  ∀ a ∈ e.variants, isPlainName (e.spelling a) ∧ fixCasing (e.spelling a) = e.spelling a

instance {α : Type} (e : Enumeration α) : Decidable e.Clear :=
  inferInstanceAs (Decidable (∀ a ∈ e.variants, _))

mutual

/-- A format is **unmistakable** when the names of its fields and its labels are clear, and every
record has a field that is read. -/
def Format.Unmistakable : {α : Type} → Format α → Prop
  | _, .optional format => format.Unmistakable
  | _, .variant e => e.Clear
  | _, .record fields _ => fields.Unmistakable ∧ fields.names ≠ [] ∧
      ∀ name ∈ fields.names, ClearName name
  | _, .int | _, .bool | _, .bytes | _, .buffer _ | _, .address | _, .unsupported _ => True

/-- The formats of fields are unmistakable. -/
def Fields.Unmistakable : {α : Type} → Fields α → Prop
  | _, .nil => True
  | _, .read _ format _ rest => format.Unmistakable ∧ rest.Unmistakable
  | _, .given _ _ rest => rest.Unmistakable

end

/-! ### Intact trees -/

/-- A tree is **intact** when it stays json where it is normalized: no key of it is converted,
its normalized form has no repeated keys, and it is not the empty object, which would make a
unit variant of an object around it. -/
structure Json.Intact (j : Json) : Prop where
  not_isConverted : ∀ k ∈ j.objectKeys, ¬k.isConverted
  distinct : j.normalized.Distinct
  ne_empty : j ≠ .object []

namespace Json

variable {ms os : List (Text × Json)}

/-- Normalization leaves arrays of bytes alone. -/
theorem normalized_ofBytes (bytes : List UInt8) :
    (array (ofBytes bytes)).normalized = .array (ofBytes bytes) := by
  rw [normalized, normalizedItems_eq_map, ofBytes, List.map_map]
  rfl

/-- Arrays of bytes are intact. -/
theorem intact_ofBytes (bytes : List UInt8) : (array (ofBytes bytes)).Intact where
  not_isConverted := by
    rw [objectKeys, forall_objectKeysItems]
    intro j hj
    obtain ⟨b, -, rfl⟩ := List.mem_map.mp hj
    simp [objectKeys]
  distinct := by
    rw [normalized_ofBytes, Distinct, distinctItems_iff]
    intro j hj
    obtain ⟨b, -, rfl⟩ := List.mem_map.mp hj
    trivial
  ne_empty := by simp

/-- A string is intact, whatever it stands for. -/
theorem intact_string (t : Text) : (string t).Intact where
  not_isConverted := by simp [objectKeys]
  distinct := by
    rw [normalized, Text.literalJson]
    cases t.literal? with
    | none => trivial
    | some l =>
        cases l with
        | integer i => trivial
        | text cs => trivial
        | key a =>
            have h := (intact_ofBytes a.bytes).distinct
            rwa [normalized_ofBytes] at h
  ne_empty := by simp

/-- A unit variant is intact, and is normalized as its name. -/
theorem intact_unitVariant (t : Text) : (object [(t, .object [])]).Intact where
  not_isConverted := by simp [objectKeys, unitVariant?]
  distinct := (intact_string t).distinct
  ne_empty := by simp

/-- No unit variant has an intact value. -/
theorem unitVariant?_eq_none (h : ∀ m ∈ ms, m.2.Intact) : unitVariant? ms = none := by
  cases hu : unitVariant? ms with
  | none => rfl
  | some k =>
      obtain rfl := eq_of_unitVariant? hu
      exact absurd rfl (h (k, .object []) List.mem_cons_self).ne_empty

/-- An object of intact members is normalized member by member. -/
theorem normalized_object (h : ∀ m ∈ ms, m.2.Intact) :
    (object ms).normalized = .object (normalizedMembers ms) := by
  rw [normalized, unitVariant?_eq_none h, Option.elim_none]

/-- **An object is intact** when its members are, and their keys are not converted and stay
distinct. -/
theorem intact_object (h : ∀ m ∈ ms, ¬m.1.isConverted ∧ m.2.Intact)
    (hnodup : (keys (normalizedMembers ms)).Nodup) (hne : ms ≠ []) : (object ms).Intact where
  not_isConverted := by
    rw [objectKeys, unitVariant?_eq_none fun m hm => (h m hm).2]
    exact forall_objectKeysMembers.mpr fun m hm => ⟨(h m hm).1, (h m hm).2.not_isConverted⟩
  distinct := by
    rw [normalized_object fun m hm => (h m hm).2]
    refine ⟨hnodup, distinctMembers_iff.mpr fun m hm => ?_⟩
    rw [normalizedMembers_eq_map] at hm
    obtain ⟨m', hm', rfl⟩ := List.mem_map.mp hm
    exact (h m' hm').2.distinct
  ne_empty := fun heq => hne (object.inj heq)

end Json

/-! ### Spellings are normalized to written forms -/

variable {α : Type}

/-- A plain name is not converted. -/
theorem not_isConverted_of_isPlainName {cs : List Char} (h : isPlainName cs) :
    ¬(Text.ofChars cs).isConverted := by
  rw [Text.isConverted_ofChars, classify_of_isPlainName h]
  exact Bool.false_ne_true

/-- Every field that is read is spelled. -/
theorem Fields.length_of_spells {α : Type} (fields : Fields α) (a : α) {ms : List (Text × Json)}
    (h : fields.Spells a ms) : ms.length = fields.names.length := by
  match fields, a with
  | .nil, () =>
      obtain rfl : ms = [] := h
      rfl
  | .read name format default rest, (a, b) =>
      obtain ⟨cs, v, ms', rfl, -, -, hrest⟩ := h
      rw [List.length_cons, rest.length_of_spells b hrest]
      rfl
  | .given name value rest, (a, b) => exact rest.length_of_spells b h

/-- An object of spelled members is intact, whatever their order, and is normalized member by
member. -/
theorem Fields.intact_of_perm (fields : Fields α) (hwf : fields.WellFormed)
    (hnodup : fields.names.Nodup) (hread : fields.names ≠ []) (a : α) {ms os : List (Text × Json)}
    (hspells : fields.Spells a ms) (hmembers : ∀ m ∈ ms, ¬m.1.isConverted ∧ m.2.Intact)
    (halike : fields.Alike (fields.encode a) (Json.normalizedMembers ms)) (hperm : ms.Perm os) :
    (Json.object os).Intact ∧
      (Json.object os).normalized = .object (Json.normalizedMembers os) ∧
      (Json.normalizedMembers ms).Perm (Json.normalizedMembers os) := by
  have hos : ∀ m ∈ os, ¬m.1.isConverted ∧ m.2.Intact := by
    intro m hm
    exact hmembers m (hperm.mem_iff.mpr hm)
  have hnormal : (Json.normalizedMembers ms).Perm (Json.normalizedMembers os) := by
    rw [Json.normalizedMembers_eq_map, Json.normalizedMembers_eq_map]
    exact hperm.map _
  have hkeys : (Json.keys (Json.normalizedMembers os)).Nodup := by
    rw [Json.keys, ← (hnormal.map Prod.fst).nodup_iff]
    exact (fields.nodup_keys hwf hnodup).sublist (fields.sublist_keys_of_alike _ halike)
  have hne : os ≠ [] := by
    rintro rfl
    have hlen := fields.length_of_spells a hspells
    rw [hperm.length_eq, List.length_nil] at hlen
    exact hread (List.length_eq_zero_iff.mp hlen.symm)
  refine ⟨Json.intact_object hos hkeys hne, ?_, hnormal⟩
  exact Json.normalized_object fun m hm => (hos m hm).2

mutual

/-- **Spellings are normalized** to variations of the written form, and are intact. -/
theorem Format.intact_of_spells {α : Type} (format : Format α) (hwf : format.WellFormed)
    (hclear : format.Unmistakable) (a : α) {j : Json} (h : format.Spells a j) :
    j.Intact ∧ format.Alike (format.encode a) j.normalized := by
  match format, a with
  | .int, i =>
      obtain ⟨hi, rfl | ⟨cs, hcs, rfl⟩⟩ := h
      · exact ⟨⟨by simp [Json.objectKeys], trivial, by simp⟩, rfl⟩
      · refine ⟨Json.intact_string _, ?_⟩
        change Json.normalized _ = _
        rw [Json.normalized, Text.literalJson_ofChars, classify_of_isHexText hcs hi]
        rfl
  | .bool, b =>
      obtain rfl : j = .bool b := h
      exact ⟨⟨by simp [Json.objectKeys], trivial, by simp⟩, rfl⟩
  | .bytes, bytes =>
      obtain rfl : j = .array (Json.ofBytes bytes) := h
      exact ⟨Json.intact_ofBytes _, Json.normalized_ofBytes _⟩
  | .buffer _, b =>
      obtain rfl : j = .array (Json.ofBytes b.bytes) := h
      exact ⟨Json.intact_ofBytes _, Json.normalized_ofBytes _⟩
  | .address, a =>
      rcases h with rfl | ⟨hshadow, rfl⟩
      · exact ⟨Json.intact_ofBytes _, Json.normalized_ofBytes _⟩
      · refine ⟨Json.intact_string _, ?_⟩
        change Json.normalized _ = _
        rw [Json.normalized, Text.literalJson_ofChars, Address.classify_toText hshadow]
        rfl
  | .optional format, none =>
      obtain rfl : j = .null := h
      exact ⟨⟨by simp [Json.objectKeys], trivial, by simp⟩, .inl ⟨rfl, rfl⟩⟩
  | .optional format, some a =>
      obtain ⟨hintact, halike⟩ := format.intact_of_spells hwf.1 hclear a h
      exact ⟨hintact, .inr halike⟩
  | .variant e, a =>
      obtain ⟨hplain, hfix⟩ := hclear a (e.complete a)
      have hliteral : (Text.ofChars (e.spelling a)).literalJson = (Format.variant e).encode a := by
        rw [Text.literalJson_ofChars, classify_of_isPlainName hplain, hfix]
        rfl
      rcases h with rfl | rfl
      · refine ⟨Json.intact_string _, ?_⟩
        rw [Json.normalized, hliteral]
        exact (Format.variant e).alike_encode a
      · refine ⟨Json.intact_unitVariant _, ?_⟩
        rw [Json.normalized, Json.unitVariant?, Option.elim_some, hliteral]
        exact (Format.variant e).alike_encode a
  | .record fields shape, a =>
      obtain ⟨ms, os, rfl, hperm, hspells⟩ := h
      obtain ⟨hfields, hread, hnames⟩ := hclear
      obtain ⟨hmembers, halike⟩ :=
        fields.intact_of_spells hwf.1 hfields hnames (shape.unpack a) hspells
      obtain ⟨hintact, hnormalized, hnormal⟩ :=
        fields.intact_of_perm hwf.1 hwf.2 hread _ hspells hmembers halike hperm
      rw [hnormalized]
      exact ⟨hintact, _, _, _, rfl, rfl, hnormal, halike⟩

theorem Fields.intact_of_spells {α : Type} (fields : Fields α) (hwf : fields.WellFormed)
    (hclear : fields.Unmistakable) (hnames : ∀ name ∈ fields.names, ClearName name) (a : α)
    {ms : List (Text × Json)} (h : fields.Spells a ms) :
    (∀ m ∈ ms, ¬m.1.isConverted ∧ m.2.Intact) ∧
      fields.Alike (fields.encode a) (Json.normalizedMembers ms) := by
  match fields, a with
  | .nil, () =>
      obtain rfl : ms = [] := h
      exact ⟨by simp, rfl, rfl⟩
  | .read name format default rest, (a, b) =>
      obtain ⟨cs, v, ms', rfl, hcs, hv, hrest⟩ := h
      obtain ⟨hname, hrestnames⟩ := List.forall_mem_cons.mp hnames
      obtain ⟨hplain, hfix⟩ := hname cs hcs
      obtain ⟨hvintact, hvalike⟩ := format.intact_of_spells hwf.2.1 hclear.1 a hv
      obtain ⟨hmembers, halike⟩ := rest.intact_of_spells hwf.2.2.2 hclear.2 hrestnames b hrest
      refine ⟨List.forall_mem_cons.mpr
        ⟨⟨not_isConverted_of_isPlainName hplain, hvintact⟩, hmembers⟩, ?_⟩
      rw [Json.normalizedMembers, Text.fixedCasing_ofChars, hfix]
      exact ⟨_, _, _, rfl, .inl ⟨_, _, rfl, hvalike, halike⟩⟩
  | .given name value rest, (a, b) => exact rest.intact_of_spells hwf hclear hnames b h

end

end MarketRegistry
