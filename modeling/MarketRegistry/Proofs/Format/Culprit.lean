import MarketRegistry.Proofs.Format.Exact
import MarketRegistry.Proofs.Text.Sorted

/-!
# The first culprit

When a value is not decoded, the fault that is reported is that of its first culprit. For a
record the order is: it is an object, its keys are in camel case, they all stand for fields, and
then each field as it was declared, where a present field is decoded by itself. For an array of
bytes the order is: it is an array, each element is an integer, they are all in range, and their
number is right. What follows says this once as a relation, with one rule for each fault, and
proves that the decoder reports exactly what the relation derives.

## Main definitions

* `BytesFault`, `KeyFault` — the faults of arrays of bytes, and those in the keys of a record.
* `FirstFault` — the fault of the first culprit in a value of any format.

## Main results

* `decodeBytes_eq_error_iff`, `fieldMembers_eq_error_iff` — the parts.
* `Format.firstFault_of_decode`, `FirstFault.decode_eq` — what is reported is derived, and what
  is derived is reported.
-/

namespace MarketRegistry

variable {path : Path} {j : Json} {e : DecodeError} {names : List String} {ms : List (Text × Json)}

/-! ### Arrays of bytes -/

/-- The fault of an **array of bytes**, whatever their number should be. -/
inductive BytesFault (path : Path) : Json → DecodeError → Prop where
  /-- It is no array. -/
  | notArray {j : Json} (h : ∀ items, j ≠ .array items) : BytesFault path j ⟨path, .notBytes j⟩
  /-- An element is no integer, and all before it are. -/
  | element {before after : List Json} {j : Json}
      (hbefore : ∀ b ∈ before, ∃ i, b = .number (.int i)) (h : ∀ i, j ≠ .number (.int i)) :
      BytesFault path (.array (before ++ j :: after))
        ⟨path.index before.length, .notInteger j⟩
  /-- All elements are integers, and one of them is no byte. -/
  | range {is : List Int} (h : ∃ i ∈ is, ¬(0 ≤ i ∧ i ≤ 255)) :
      BytesFault path (.array (is.map fun i => .number (.int i))) ⟨path, .byteOutOfRange⟩

theorem decodeInt_eq_error_iff :
    decodeInt path j = .error e ↔ (∀ i, j ≠ .number (.int i)) ∧ e = ⟨path, .notInteger j⟩ := by
  unfold decodeInt
  split
  · rename_i i
    exact iff_of_false nofun fun h => h.1 i rfl
  · rename_i h
    rw [Except.error.injEq, eq_comm]
    exact (and_iff_right h).symm

theorem decodeBool_eq_error_iff :
    decodeBool path j = .error e ↔ (∀ b, j ≠ .bool b) ∧ e = ⟨path, .notBool j⟩ := by
  unfold decodeBool
  split
  · rename_i b
    exact iff_of_false nofun fun h => h.1 b rfl
  · rename_i h
    rw [Except.error.injEq, eq_comm]
    exact (and_iff_right h).symm

/-- **Elements are no integers** from the first on that is none. -/
theorem decodeInts_eq_error_iff {n : Nat} {js : List Json} :
    decodeInts path n js = .error e ↔ ∃ before j after, js = before ++ j :: after ∧
      (∀ b ∈ before, ∃ i, b = .number (.int i)) ∧ (∀ i, j ≠ .number (.int i)) ∧
      e = ⟨path.index (n + before.length), .notInteger j⟩ := by
  induction js generalizing n with
  | nil =>
      refine iff_of_false (by rintro ⟨⟩) ?_
      rintro ⟨before, j, after, h, -⟩
      exact absurd h.symm (List.append_ne_nil_of_right_ne_nil before (List.cons_ne_nil j after))
  | cons j js ih =>
      simp only [decodeInts, bind_eq_error_iff, decodeInt_eq_error_iff, decodeInt_eq_ok_iff, ih,
        List.cons_eq_append_iff]
      constructor
      · rintro (⟨hj, rfl⟩ |
          ⟨i, rfl, ⟨before, j', after, rfl, hbefore, hj', rfl⟩ | ⟨is, -, hreturn⟩⟩)
        · exact ⟨[], j, js, .inl ⟨rfl, rfl⟩, List.forall_mem_nil _, hj, rfl⟩
        · refine ⟨_ :: before, j', after, .inr ⟨before, rfl, rfl⟩,
            List.forall_mem_cons.mpr ⟨⟨i, rfl⟩, hbefore⟩, hj', ?_⟩
          rw [List.length_cons, Nat.add_right_comm, Nat.add_assoc]
        · cases hreturn
      · rintro ⟨before, j', after, ⟨rfl, hcons⟩ | ⟨before', rfl, rfl⟩, hbefore, hj', rfl⟩
        · cases hcons
          exact .inl ⟨hj', rfl⟩
        · obtain ⟨⟨i, rfl⟩, hbefore'⟩ := List.forall_mem_cons.mp hbefore
          refine .inr ⟨i, rfl, .inl ⟨before', j', after, rfl, hbefore', hj', ?_⟩⟩
          rw [List.length_cons, Nat.add_right_comm, Nat.add_assoc]

/-- **An array of bytes fails** in the order of its faults. -/
theorem decodeBytes_eq_error_iff : decodeBytes path j = .error e ↔ BytesFault path j e := by
  constructor
  · intro h
    unfold decodeBytes at h
    split at h
    · rename_i items
      rcases bind_eq_error_iff.mp h with hints | ⟨is, hints, hrange⟩
      · obtain ⟨before, j, after, rfl, hbefore, hj, rfl⟩ := decodeInts_eq_error_iff.mp hints
        rw [Nat.zero_add]
        exact .element hbefore hj
      · obtain rfl := decodeInts_eq_ok_iff.mp hints
        split at hrange
        · cases hrange
        · rename_i hbytes
          cases hrange
          exact .range (mapM_byte?_eq_none_iff.mp hbytes)
    · rename_i hj
      cases h
      exact .notArray hj
  · rintro (hj | ⟨hbefore, hj⟩ | hrange)
    · unfold decodeBytes
      split
      · rename_i items
        exact absurd rfl (hj items)
      · rfl
    · refine bind_eq_error_iff.mpr (.inl (decodeInts_eq_error_iff.mpr ?_))
      exact ⟨_, _, _, rfl, hbefore, hj, by rw [Nat.zero_add]⟩
    · refine bind_eq_error_iff.mpr (.inr ⟨_, decodeInts_eq_ok_iff.mpr rfl, ?_⟩)
      rw [mapM_byte?_eq_none_iff.mpr hrange]

theorem decodeBuffer_eq_error_iff {n : Nat} : decodeBuffer n path j = .error e ↔
    BytesFault path j e ∨ ∃ bytes : List UInt8, j = .array (Json.ofBytes bytes) ∧
      bytes.length ≠ n ∧ e = ⟨path, .wrongLength n bytes.length⟩ := by
  simp only [decodeBuffer, bind_eq_error_iff, decodeBytes_eq_error_iff, decodeBytes_eq_ok_iff]
  refine or_congr_right (exists_congr fun bytes => and_congr_right fun _ => ?_)
  split
  · rename_i hlen
    exact iff_of_false (by rintro ⟨⟩) fun h => h.1 hlen
  · rename_i hlen
    rw [Except.error.injEq, eq_comm]
    exact (and_iff_right hlen).symm

theorem decodeAddress_eq_error_iff : decodeAddress path j = .error e ↔
    BytesFault path j e ∨ ∃ bytes : List UInt8, j = .array (Json.ofBytes bytes) ∧
      bytes.length ≠ 32 ∧ e = ⟨path, .wrongAddressLength bytes.length⟩ := by
  simp only [decodeAddress, bind_eq_error_iff, decodeBytes_eq_error_iff, decodeBytes_eq_ok_iff]
  refine or_congr_right (exists_congr fun bytes => and_congr_right fun _ => ?_)
  by_cases hlen : bytes.length = 32
  · have haddress : Address.ofBytes? bytes = some ⟨bytes, hlen⟩ :=
      Address.ofBytes?_bytes ⟨bytes, hlen⟩
    rw [haddress]
    exact iff_of_false (by rintro ⟨⟩) fun h => h.1 hlen
  · have haddress : Address.ofBytes? bytes = none := by
      refine Option.eq_none_iff_forall_ne_some.mpr fun a ha => hlen ?_
      rw [← Address.ofBytes?_eq_some ha]
      exact a.length_bytes
    rw [haddress]
    simp only [Except.error.injEq]
    exact ⟨fun h => ⟨hlen, h.symm⟩, fun h => h.2.symm⟩

/-! ### Variants -/

section Variant

variable {α : Type} {en : Enumeration α} {name : List Char}

theorem decodeVariant_ofChars (hname : isVariantName name) :
    decodeVariant en path (.string (Text.ofChars name)) =
      match en.find? (capitalized name) with
      | some a => .ok a
      | none => .error ⟨path, .unknownVariant en.name (Text.ofChars name)⟩ := by
  have hread : (Text.ofChars name).toChars?.filter isVariantName = some name :=
    Option.filter_eq_some_iff.mpr ⟨Text.toChars?_ofChars name, hname⟩
  rw [decodeVariant]
  split
  · rename_i hnone
    cases hread.symm.trans hnone
  · rename_i name' hsome
    cases hread.symm.trans hsome
    rfl

/-- A label that is unknown finds nothing. -/
theorem Enumeration.find?_eq_none_iff {label : List Char} :
    en.find? label = none ↔ ∀ a, (en.label a).toList ≠ label := by
  simp only [Option.eq_none_iff_forall_ne_some, ne_eq, Enumeration.find?_eq_some_iff]

theorem decodeVariant_of_ne (h : ∀ name, isVariantName name → j ≠ .string (Text.ofChars name)) :
    decodeVariant en path j = .error ⟨path, .notVariant en.name j⟩ := by
  unfold decodeVariant
  split
  · rename_i t
    split
    · rfl
    · rename_i name hname
      obtain ⟨hchars, hvariant⟩ := Option.filter_eq_some_iff.mp hname
      rw [Text.toChars?_eq_some_iff.mp hchars] at h
      exact absurd rfl (h name hvariant)
  · rfl

/-- **A variant fails** when it is no text that may be a label, or when no variant has it. -/
theorem decodeVariant_eq_error_iff : decodeVariant en path j = .error e ↔
    ((∀ name, isVariantName name → j ≠ .string (Text.ofChars name)) ∧
      e = ⟨path, .notVariant en.name j⟩) ∨
    ∃ name, isVariantName name ∧ j = .string (Text.ofChars name) ∧
      (∀ a, (en.label a).toList ≠ capitalized name) ∧
      e = ⟨path, .unknownVariant en.name (Text.ofChars name)⟩ := by
  constructor
  · intro h
    by_cases hj : ∃ name, isVariantName name ∧ j = .string (Text.ofChars name)
    · obtain ⟨name, hname, rfl⟩ := hj
      rw [decodeVariant_ofChars hname] at h
      split at h
      · cases h
      · rename_i hlabel
        cases h
        exact .inr ⟨name, hname, rfl, Enumeration.find?_eq_none_iff.mp hlabel, rfl⟩
    · simp only [not_exists, not_and] at hj
      rw [decodeVariant_of_ne hj] at h
      exact .inl ⟨hj, (Except.error.inj h).symm⟩
  · rintro (⟨hj, rfl⟩ | ⟨name, hname, rfl, hlabel, rfl⟩)
    · exact decodeVariant_of_ne hj
    · rw [decodeVariant_ofChars hname, Enumeration.find?_eq_none_iff.mpr hlabel]

end Variant

/-! ### Keys -/

/-- The fault in the **keys** of a record with these names of fields. -/
inductive KeyFault (names : List String) (path : Path) : Json → DecodeError → Prop where
  /-- It is no object. -/
  | notObject {j : Json} (h : ∀ ms, j ≠ .object ms) :
      KeyFault names path j ⟨path, .notObject j⟩
  /-- Some keys are not in camel case: all of them are listed. -/
  | notCamelCase {ms : List (Text × Json)} {keys : List Text}
      (h : ∃ k, Json.NotCamelKey ms k) (hkeys : Text.Lists (Json.NotCamelKey ms) keys) :
      KeyFault names path (.object ms) ⟨path, .notCamelCase keys⟩
  /-- All keys are in camel case, and some stand for no field: the names of all these are
  listed. -/
  | unknownFields {ms : List (Text × Json)} {unknown : List Text}
      (hcamel : ∀ k, ¬Json.NotCamelKey ms k) (h : ∃ t, Json.UnknownName names ms t)
      (hunknown : Text.Lists (Json.UnknownName names ms) unknown) :
      KeyFault names path (.object ms) ⟨path, .unknownFields unknown⟩

theorem lists_notCamelKeys (h : (Json.keys ms).Nodup) :
    Text.Lists (Json.NotCamelKey ms) (Text.sorted (notCamelKeys ms)) :=
  Text.lists_sorted (h.filter _) fun _ => mem_notCamelKeys_iff

theorem lists_unknownNames (h : (Json.keys ms).Nodup) :
    Text.Lists (Json.UnknownName names ms) (Text.sorted (unknownNames names ms)) := by
  refine Text.lists_sorted ?_ fun _ => mem_unknownNames_iff
  exact ((nodup_snakeForm h).filter _).map fun _ _ => Text.ofChars_inj.mp

/-- **The keys of a record fail** in the order of their faults. -/
theorem fieldMembers_eq_error_iff (hj : j.Distinct) :
    fieldMembers names path j = .error e ↔ KeyFault names path j e := by
  constructor
  · intro h
    cases j with
    | object ms =>
        rw [fieldMembers_object] at h
        split at h
        · rename_i hcamel
          split at h
          · cases h
          · rename_i hunknown
            cases h
            obtain ⟨t, ht⟩ := List.exists_mem_of_ne_nil _ hunknown
            exact .unknownFields (notCamelKeys_eq_nil_iff.mp hcamel) ⟨t, mem_unknownNames_iff.mp ht⟩
              (lists_unknownNames hj.1)
        · rename_i hcamel
          cases h
          obtain ⟨k, hk⟩ := List.exists_mem_of_ne_nil _ hcamel
          exact .notCamelCase ⟨k, mem_notCamelKeys_iff.mp hk⟩ (lists_notCamelKeys hj.1)
    | _ =>
        cases h
        exact .notObject nofun
  · rintro (hj' | ⟨⟨k, hk⟩, hkeys⟩ | ⟨hcamel, ⟨t, ht⟩, hunknown⟩)
    · cases j with
      | object ms => exact absurd rfl (hj' ms)
      | _ => rfl
    · have hne := List.ne_nil_of_mem (mem_notCamelKeys_iff.mpr hk)
      rw [fieldMembers_object, if_neg hne, (lists_notCamelKeys hj.1).unique hkeys]
    · have hne := List.ne_nil_of_mem (mem_unknownNames_iff.mpr ht)
      rw [fieldMembers_object, if_pos (notCamelKeys_eq_nil_iff.mpr hcamel), if_neg hne,
        (lists_unknownNames hj.1).unique hunknown]

/-! ### Values of any format -/

/-- A field that is **settled**: the member that fills it is decoded, or it is absent and has a
default. -/
def Field.Settled (f : Field) (path : Path) (ms : List (Text × Json)) : Prop :=
  (∃ v a, Json.Fills ms f.name.toList v ∧ f.format.decode (path.field f.name) v = .ok a) ∨
    ((∀ v, ¬Json.Fills ms f.name.toList v) ∧ f.default.isSome)

/-- The fault of the **first culprit** in a value. -/
inductive FirstFault : {α : Type} → Format α → Path → Json → DecodeError → Prop where
  | int {path : Path} {j : Json} (h : ∀ i, j ≠ .number (.int i)) :
      FirstFault .int path j ⟨path, .notInteger j⟩
  | bool {path : Path} {j : Json} (h : ∀ b, j ≠ .bool b) :
      FirstFault .bool path j ⟨path, .notBool j⟩
  | bytes {path : Path} {j : Json} {e : DecodeError} (h : BytesFault path j e) :
      FirstFault .bytes path j e
  | buffer {n : Nat} {path : Path} {j : Json} {e : DecodeError} (h : BytesFault path j e) :
      FirstFault (.buffer n) path j e
  /-- The number of bytes comes last. -/
  | bufferLength {n : Nat} {path : Path} {bytes : List UInt8} (h : bytes.length ≠ n) :
      FirstFault (.buffer n) path (.array (Json.ofBytes bytes)) ⟨path, .wrongLength n bytes.length⟩
  | address {path : Path} {j : Json} {e : DecodeError} (h : BytesFault path j e) :
      FirstFault .address path j e
  | addressLength {path : Path} {bytes : List UInt8} (h : bytes.length ≠ 32) :
      FirstFault .address path (.array (Json.ofBytes bytes))
        ⟨path, .wrongAddressLength bytes.length⟩
  /-- Null is no fault of what is optional. -/
  | optional {α : Type} {format : Format α} {path : Path} {j : Json} {e : DecodeError}
      (hj : j ≠ .null) (h : FirstFault format path j e) : FirstFault (.optional format) path j e
  | notVariant {α : Type} {en : Enumeration α} {path : Path} {j : Json}
      (h : ∀ name, isVariantName name → j ≠ .string (Text.ofChars name)) :
      FirstFault (.variant en) path j ⟨path, .notVariant en.name j⟩
  | unknownVariant {α : Type} {en : Enumeration α} {path : Path} {name : List Char}
      (hname : isVariantName name) (h : ∀ a, (en.label a).toList ≠ capitalized name) :
      FirstFault (.variant en) path (.string (Text.ofChars name))
        ⟨path, .unknownVariant en.name (Text.ofChars name)⟩
  /-- The keys of a record come before its fields. -/
  | keys {α β : Type} {fields : Fields β} {shape : Shape α β} {path : Path} {j : Json}
      {e : DecodeError} (h : KeyFault fields.names path j e) :
      FirstFault (.record fields shape) path j e
  /-- A field is absent and has no default, and all fields declared before it are settled. -/
  | missing {α β : Type} {fields : Fields β} {shape : Shape α β} {path : Path}
      {ms : List (Text × Json)} {before after : List Field} {f : Field}
      (hkeys : ∀ k ∈ Json.keys ms, ∃ n ∈ fields.names, fieldName? k = some n.toList)
      (hfields : fields.toList = before ++ f :: after) (hbefore : ∀ g ∈ before, g.Settled path ms)
      (habsent : ∀ v, ¬Json.Fills ms f.name.toList v) (hdefault : f.default = none) :
      FirstFault (.record fields shape) path (.object ms) ⟨path, .missingField f.name⟩
  /-- A field is filled with a value at fault, and all fields declared before it are settled. The
  fault is that of the value by itself. -/
  | field {α β : Type} {fields : Fields β} {shape : Shape α β} {path : Path}
      {ms : List (Text × Json)} {before after : List Field} {f : Field} {v : Json}
      {e : DecodeError}
      (hkeys : ∀ k ∈ Json.keys ms, ∃ n ∈ fields.names, fieldName? k = some n.toList)
      (hfields : fields.toList = before ++ f :: after) (hbefore : ∀ g ∈ before, g.Settled path ms)
      (hvalue : Json.Fills ms f.name.toList v)
      (h : FirstFault f.format (path.field f.name) v e) :
      FirstFault (.record fields shape) path (.object ms) e
  | unsupported {name : String} {path : Path} {j : Json} :
      FirstFault (.unsupported name) path j ⟨path, .unsupported name⟩

theorem Field.settled_iff {f : Field} (h : (Json.keys ms).Nodup) :
    f.Settled path ms ↔ ∃ a, f.decode path (snakeForm ms) = .ok a := by
  simp only [Field.Settled, Field.decode_eq_ok_iff h, exists_or, Option.isSome_iff_exists]
  refine or_congr ?_ ?_
  · exact exists_comm.trans (exists_congr fun a => exists_congr fun v => Iff.rfl)
  · exact exists_and_left.symm

/-- **A record fails** as its first field does that is not settled, when its keys are right. -/
theorem Format.decode_of_first_field {α β : Type} {fields : Fields β} {shape : Shape α β}
    {before after : List Field} {f : Field} (hnodup : (Json.keys ms).Nodup)
    (hkeys : ∀ k ∈ Json.keys ms, ∃ n ∈ fields.names, fieldName? k = some n.toList)
    (hfields : fields.toList = before ++ f :: after) (hbefore : ∀ g ∈ before, g.Settled path ms)
    (h : f.decode path (snakeForm ms) = .error e) :
    (Format.record fields shape).decode path (.object ms) = .error e := by
  have hmembers : fieldMembers fields.names path (.object ms) = .ok (snakeForm ms) :=
    fieldMembers_eq_ok_iff_fieldName?.mpr ⟨ms, rfl, hkeys, rfl⟩
  have hdecode : fields.decode path (snakeForm ms) = .error e :=
    fields.decode_eq_error_iff.mpr ⟨before, f, after, hfields,
      fun g hg => (Field.settled_iff hnodup).mp (hbefore g hg), h⟩
  exact bind_eq_error_iff.mpr (.inr ⟨_, hmembers, bind_eq_error_iff.mpr (.inl hdecode)⟩)

theorem Json.Distinct.of_fills {n : List Char} {v : Json} (h : Json.DistinctMembers ms)
    (hv : Json.Fills ms n v) : v.Distinct := by
  obtain ⟨k, hk, -⟩ := hv
  exact Json.distinctMembers_iff.mp h (k, v) hk

mutual

/-- **What is reported** is the fault of the first culprit. -/
theorem Format.firstFault_of_decode {α : Type} (format : Format α) {path : Path} {j : Json}
    {e : DecodeError} (hj : j.Distinct) (h : format.decode path j = .error e) :
    FirstFault format path j e := by
  match format with
  | .int =>
      obtain ⟨hint, rfl⟩ := decodeInt_eq_error_iff.mp h
      exact .int hint
  | .bool =>
      obtain ⟨hbool, rfl⟩ := decodeBool_eq_error_iff.mp h
      exact .bool hbool
  | .bytes => exact .bytes (decodeBytes_eq_error_iff.mp h)
  | .buffer n =>
      rcases decodeBuffer_eq_error_iff.mp h with h | ⟨bytes, rfl, hlen, rfl⟩
      · exact .buffer h
      · exact .bufferLength hlen
  | .address =>
      rcases decodeAddress_eq_error_iff.mp h with h | ⟨bytes, rfl, hlen, rfl⟩
      · exact .address h
      · exact .addressLength hlen
  | .optional format =>
      by_cases hnull : j = .null
      · subst hnull
        cases h
      · rw [format.decode_optional path hnull] at h
        rcases bind_eq_error_iff.mp h with h | ⟨a, -, hreturn⟩
        · exact .optional hnull (format.firstFault_of_decode hj h)
        · cases hreturn
  | .variant en =>
      rcases decodeVariant_eq_error_iff.mp h with ⟨hj', rfl⟩ | ⟨name, hname, rfl, hlabel, rfl⟩
      · exact .notVariant hj'
      · exact .unknownVariant hname hlabel
  | .record fields shape =>
      rcases bind_eq_error_iff.mp h with h | ⟨members, hmembers, h⟩
      · exact .keys ((fieldMembers_eq_error_iff hj).mp h)
      rcases bind_eq_error_iff.mp h with h | ⟨values, -, hreturn⟩
      · obtain ⟨ms, rfl, hkeys, rfl⟩ := fieldMembers_eq_ok_iff_fieldName?.mp hmembers
        obtain ⟨before, f, after, hfields, hbefore, h⟩ := fields.decode_eq_error_iff.mp h
        have hsettled : ∀ g ∈ before, g.Settled path ms := fun g hg =>
          (Field.settled_iff hj.1).mpr (hbefore g hg)
        -- the fault of a value is the business of its format, which is part of the format of the
        -- record: this is where the recursion goes
        rcases (Field.decode_eq_error_iff hj.1).mp h with ⟨v, hv, h⟩ | ⟨habsent, hdefault, rfl⟩
        · have hf : f ∈ fields.toList := hfields ▸ List.mem_append_right _ List.mem_cons_self
          exact .field hkeys hfields hsettled hv
            (fields.firstFault_of_mem f hf (.of_fills hj.2 hv) h)
        · exact .missing hkeys hfields hsettled habsent hdefault
      · cases hreturn
  | .unsupported name =>
      cases h
      exact .unsupported

theorem Fields.firstFault_of_mem {α : Type} (fields : Fields α) :
    ∀ f ∈ fields.toList, ∀ {path : Path} {j : Json} {e : DecodeError}, j.Distinct →
      f.format.decode path j = .error e → FirstFault f.format path j e := by
  match fields with
  | .nil => exact nofun
  | .read name format default rest =>
      exact List.forall_mem_cons.mpr ⟨format.firstFault_of_decode, rest.firstFault_of_mem⟩
  | .given name value rest => exact rest.firstFault_of_mem

end

/-- **The fault of the first culprit** is what is reported. -/
theorem FirstFault.decode_eq {α : Type} {format : Format α} {path : Path} {j : Json}
    {e : DecodeError} (h : FirstFault format path j e) (hj : j.Distinct) :
    format.decode path j = .error e := by
  induction h with
  | int h => exact decodeInt_eq_error_iff.mpr ⟨h, rfl⟩
  | bool h => exact decodeBool_eq_error_iff.mpr ⟨h, rfl⟩
  | bytes h => exact decodeBytes_eq_error_iff.mpr h
  | buffer h => exact decodeBuffer_eq_error_iff.mpr (.inl h)
  | bufferLength h => exact decodeBuffer_eq_error_iff.mpr (.inr ⟨_, rfl, h, rfl⟩)
  | address h => exact decodeAddress_eq_error_iff.mpr (.inl h)
  | addressLength h => exact decodeAddress_eq_error_iff.mpr (.inr ⟨_, rfl, h, rfl⟩)
  | @optional _ format path j e hnull _ ih =>
      rw [format.decode_optional path hnull]
      exact bind_eq_error_iff.mpr (.inl (ih hj))
  | notVariant h => exact decodeVariant_eq_error_iff.mpr (.inl ⟨h, rfl⟩)
  | unknownVariant hname h =>
      exact decodeVariant_eq_error_iff.mpr (.inr ⟨_, hname, rfl, h, rfl⟩)
  | keys h => exact bind_eq_error_iff.mpr (.inl ((fieldMembers_eq_error_iff hj).mpr h))
  | missing hkeys hfields hbefore habsent hdefault =>
      refine Format.decode_of_first_field hj.1 hkeys hfields hbefore ?_
      exact (Field.decode_eq_error_iff hj.1).mpr (.inr ⟨habsent, hdefault, rfl⟩)
  | field hkeys hfields hbefore hvalue _ ih =>
      refine Format.decode_of_first_field hj.1 hkeys hfields hbefore ?_
      exact (Field.decode_eq_error_iff hj.1).mpr (.inl ⟨_, hvalue, ih (.of_fills hj.2 hvalue)⟩)
  | unsupported => rfl

end MarketRegistry
