import MarketRegistry.Proofs.Format.Fields
import MarketRegistry.Proofs.Format.Written

/-!
# Decoding accepts exactly the written forms

What a value is decoded from is a variation of its written form, and every variation of the
written form is decoded to the value, with the given values in their places. Both directions
are proved by recursion over formats: for a record the members are looked up one by one, and
the keys of the fields keep them apart.

## Main results

* `Format.distinct_encode` — written forms have no repeated keys.
* `Format.decode_of_alike` — variations of the written form are decoded.
* `Format.alike_of_decode` — nothing else is.
* `Format.exact_of_wellFormed` — a well-formed format accepts exactly the written forms.
-/

namespace MarketRegistry

variable {α : Type}

/-! ### Keys -/

theorem fieldKey_injective {m n : String} (hm : isSnakeCase m.toList) (hn : isSnakeCase n.toList)
    (h : fieldKey m = fieldKey n) : m = n := by
  have hchars := congrArg Text.toChars? h
  rw [fieldKey, fieldKey, Text.toChars?_ofChars, Text.toChars?_ofChars, Option.some_inj] at hchars
  rw [← String.toList_inj, ← (snakeCase_camelCase hm).2, hchars, (snakeCase_camelCase hn).2]

theorem camelKey?_fieldKey {n : String} (h : isSnakeCase n.toList) :
    camelKey? (fieldKey n) = some (camelCase n.toList) :=
  Option.filter_eq_some_iff.mpr ⟨Text.toChars?_ofChars _, (snakeCase_camelCase h).1⟩

theorem Fields.isSnakeCase_of_mem_names {α : Type} (fields : Fields α) (hwf : fields.WellFormed) :
    ∀ n ∈ fields.names, isSnakeCase n.toList := by
  match fields with
  | .nil => simp [Fields.names]
  | .read name format default rest =>
      obtain ⟨hname, -, -, hrest⟩ := hwf
      exact List.forall_mem_cons.mpr ⟨hname, rest.isSnakeCase_of_mem_names hrest⟩
  | .given name value rest => exact rest.isSnakeCase_of_mem_names hwf

/-- The keys of a variation are those of fields, in order. -/
theorem Fields.sublist_keys_of_alike {α : Type} (fields : Fields α) (a : α)
    {os : List (Text × Json)} (h : fields.Alike (fields.encode a) os) :
    (Json.keys os).Sublist (fields.names.map fieldKey) := by
  match fields, a with
  | .nil, () =>
      obtain ⟨-, rfl⟩ := h
      exact .slnil
  | .read name format default rest, (a, b) =>
      obtain ⟨k, v, ms', hms, h⟩ := h
      cases hms
      rcases h with ⟨o, os', rfl, -, h⟩ | ⟨-, h⟩
      · exact (rest.sublist_keys_of_alike b h).cons_cons _
      · exact (rest.sublist_keys_of_alike b h).cons _
  | .given name value rest, (a, b) => exact rest.sublist_keys_of_alike b h

theorem Fields.nodup_keys (fields : Fields α) (hwf : fields.WellFormed)
    (hnodup : fields.names.Nodup) : (fields.names.map fieldKey).Nodup :=
  hnodup.map_on fun _ hm _ hn =>
    fieldKey_injective (fields.isSnakeCase_of_mem_names hwf _ hm)
      (fields.isSnakeCase_of_mem_names hwf _ hn)

/-! ### Members by the names of fields -/

theorem fieldName?_fieldKey {n : String} (h : isSnakeCase n.toList) :
    fieldName? (fieldKey n) = some n.toList := by
  rw [fieldName?, camelKey?_fieldKey h, Option.map_some, (snakeCase_camelCase h).2]

/-- The key of a field is the one that stands for it. -/
theorem fieldName?_eq_some_iff {k : Text} {n : String} (h : isSnakeCase n.toList) :
    fieldName? k = some n.toList ↔ k = fieldKey n :=
  ⟨fun hk => fieldName?_inj hk (fieldName?_fieldKey h), fun hk => hk ▸ fieldName?_fieldKey h⟩

variable {names : List String} {ms : List (Text × Json)}

theorem snakeForm_cons {n : String} (hn : isSnakeCase n.toList) (v : Json)
    (ms : List (Text × Json)) :
    snakeForm ((fieldKey n, v) :: ms) = (n.toList, v) :: snakeForm ms := by
  rw [snakeForm, List.filterMap_cons_some (b := (n.toList, v))]
  · rfl
  · rw [camelKey?_fieldKey hn, Option.map_some, (snakeCase_camelCase hn).2]

/-- **Members under the names of fields** are those of an object with the keys of fields. -/
theorem fieldMembers_eq_ok_iff (hnames : ∀ n ∈ names, isSnakeCase n.toList) {path : Path}
    {o : Json} {members : List (List Char × Json)} :
    fieldMembers names path o = .ok members ↔ ∃ ms, o = .object ms ∧
      (∀ k ∈ Json.keys ms, ∃ n ∈ names, k = fieldKey n) ∧ members = snakeForm ms := by
  rw [fieldMembers_eq_ok_iff_fieldName?]
  refine exists_congr fun ms => and_congr_right fun _ => and_congr_left fun _ => ?_
  refine forall₂_congr fun k _ => exists_congr fun n => and_congr_right fun hn => ?_
  exact fieldName?_eq_some_iff (hnames n hn)

/-- Looking up a field by its name or by its key. -/
theorem lookup_snakeForm (hnames : ∀ n ∈ names, isSnakeCase n.toList)
    (hkeys : ∀ k ∈ Json.keys ms, ∃ n ∈ names, k = fieldKey n) {n : String} (hn : n ∈ names) :
    (snakeForm ms).lookup n.toList = ms.lookup (fieldKey n) := by
  induction ms with
  | nil => rfl
  | cons m ms ih =>
      obtain ⟨k, v⟩ := m
      obtain ⟨⟨n', hn', rfl⟩, hrest⟩ := List.forall_mem_cons.mp hkeys
      rw [snakeForm_cons (hnames n' hn'), List.lookup_cons, List.lookup_cons, ih hrest]
      by_cases h : n = n'
      · subst h
        simp
      · have hname : n.toList ≠ n'.toList := fun heq => h (String.toList_inj.mp heq)
        have hkey : fieldKey n ≠ fieldKey n' := by
          intro heq
          exact h (fieldKey_injective (hnames n hn) (hnames n' hn') heq)
        rw [beq_false_of_ne hname, beq_false_of_ne hkey]

/-! ### Variations of written forms are decoded -/

theorem Enumeration.exists_label (e : Enumeration α) (a : α) :
    ∃ c cs, (e.label a).toList = c :: cs ∧ isCapital c := by
  have hlabel := e.isLabel_label a
  rw [isLabel] at hlabel
  cases h : (e.label a).toList with
  | nil => simp [h] at hlabel
  | cons c cs =>
      rw [h, Bool.and_eq_true] at hlabel
      exact ⟨c, cs, rfl, hlabel.1⟩

theorem Enumeration.encode_variant (e : Enumeration α) {a : α} {c : Char} {cs : List Char}
    (h : (e.label a).toList = c :: cs) :
    (Format.variant e).encode a = .string (Text.ofChars (small c :: cs)) := by
  rw [Format.encode, h, uncapitalized]

mutual

/-- A written form is a variation of itself. -/
theorem Format.alike_encode {α : Type} (format : Format α) (a : α) :
    format.Alike (format.encode a) (format.encode a) := by
  match format, a with
  | .int, _ | .bool, _ | .bytes, _ | .buffer _, _ | .address, _ => rfl
  | .optional format, none => exact .inl ⟨rfl, rfl⟩
  | .optional format, some a => exact .inr (format.alike_encode a)
  | .variant e, a =>
      obtain ⟨c, cs, hlabel, -⟩ := e.exists_label a
      have hencode := e.encode_variant hlabel
      exact ⟨small c, small c, cs, hencode, hencode, rfl⟩
  | .record fields shape, a =>
      exact ⟨_, _, _, rfl, rfl, .refl _, fields.alike_encode (shape.unpack a)⟩

theorem Fields.alike_encode {α : Type} (fields : Fields α) (a : α) :
    fields.Alike (fields.encode a) (fields.encode a) := by
  match fields, a with
  | .nil, () => exact ⟨rfl, rfl⟩
  | .read name format default rest, (a, b) =>
      exact ⟨_, _, _, rfl, .inl ⟨_, _, rfl, format.alike_encode a, rest.alike_encode b⟩⟩
  | .given name value rest, (a, b) => exact rest.alike_encode b

end

mutual

/-- **A written form** has no repeated keys. -/
theorem Format.distinct_encode {α : Type} (format : Format α) (hwf : format.WellFormed) (a : α) :
    (format.encode a).Distinct := by
  match format, a with
  | .int, _ | .bool, _ | .variant _, _ => trivial
  | .bytes, _ | .buffer _, _ | .address, _ =>
      refine Json.distinctItems_iff.mpr fun j hj => ?_
      obtain ⟨b, -, rfl⟩ := List.mem_map.mp hj
      trivial
  | .optional format, none => trivial
  | .optional format, some a => exact format.distinct_encode hwf.1 a
  | .record fields shape, a =>
      refine ⟨?_, Json.distinctMembers_iff.mpr (fields.distinct_encode hwf.1 (shape.unpack a))⟩
      exact (fields.nodup_keys hwf.1 hwf.2).sublist
        (fields.sublist_keys_of_alike _ (fields.alike_encode _))

theorem Fields.distinct_encode {α : Type} (fields : Fields α) (hwf : fields.WellFormed) (a : α) :
    ∀ m ∈ fields.encode a, m.2.Distinct := by
  match fields, a with
  | .nil, () => exact nofun
  | .read name format default rest, (a, b) =>
      obtain ⟨-, hformat, -, hrest⟩ := hwf
      exact List.forall_mem_cons.mpr
        ⟨format.distinct_encode hformat a, rest.distinct_encode hrest b⟩
  | .given name value rest, (a, b) => exact rest.distinct_encode hwf b

end

/-- Only what is optional may be null. -/
theorem Format.decode_null_ne_ok (format : Format α) (h : format.isOptional = false)
    (path : Path) (a : α) : format.decode path .null ≠ .ok a := by
  cases format with
  | optional _ => cases h
  | _ => exact nofun

theorem Format.eq_null_of_alike (format : Format α) (h : format.isOptional = false) {o : Json}
    (ho : format.Alike .null o) : o = .null := by
  cases format with
  | int | bool | bytes | buffer _ | address | unsupported _ => exact ho
  | variant _ =>
      obtain ⟨c, d, cs, hnull, -⟩ := ho
      cases hnull
  | record _ _ =>
      obtain ⟨ms, os, os', hnull, -⟩ := ho
      cases hnull
  | optional _ => cases h

theorem Format.decode_optional (format : Format α) (path : Path) {o : Json} (ho : o ≠ .null) :
    (Format.optional format).decode path o = (format.decode path o >>= fun a => .ok (some a)) := by
  cases o with
  | null => exact absurd rfl ho
  | _ => rfl

/-- **A field that is read** comes from its member or is its default. -/
theorem Fields.decode_read_eq_ok_iff {β : Type} {name : String} {format : Format α}
    {default : Option α} {rest : Fields β} {path : Path} {members : List (List Char × Json)}
    {a : α} {b : β} :
    (Fields.read name format default rest).decode path members = .ok (a, b) ↔
      ((∃ j, members.lookup name.toList = some j ∧ format.decode (path.field name) j = .ok a) ∨
        (members.lookup name.toList = none ∧ default = some a)) ∧
      rest.decode path members = .ok b := by
  simp only [Fields.decode]
  cases members.lookup name.toList with
  | some j => simp [bind_eq_ok_iff, pure, Except.pure]
  | none =>
      cases default with
      | some d => simp [bind_eq_ok_iff, pure, Except.pure, and_comm]
      | none => simp [bind_eq_ok_iff]

mutual

/-- **Variations of the written form** of a value are decoded to it, with the given values in
their places. -/
theorem Format.decode_of_alike {α : Type} (format : Format α) (hwf : format.WellFormed)
    (path : Path) (a : α) {o : Json} (h : format.Alike (format.encode a) o) :
    format.decode path o = .ok (format.withGiven a) := by
  match format, a with
  | .int, i => exact decodeInt_eq_ok_iff.mpr h
  | .bool, b => exact decodeBool_eq_ok_iff.mpr h
  | .bytes, bytes => exact decodeBytes_eq_ok_iff.mpr h
  | .buffer n, b => exact decodeBuffer_eq_ok_iff.mpr h
  | .address, a => exact decodeAddress_eq_ok_iff.mpr h
  | .optional format, none =>
      have ho : o = .null := by
        rcases h with ⟨-, ho⟩ | h
        · exact ho
        · exact format.eq_null_of_alike hwf.2 h
      rw [ho]
      rfl
  | .optional format, some a =>
      -- a value written as null would be taken for none, but nothing is optional twice
      have hself := format.decode_of_alike hwf.1 path a (format.alike_encode a)
      rcases h with ⟨hnull, -⟩ | h
      · have hencode : format.encode a = .null := hnull
        rw [hencode] at hself
        exact absurd hself (format.decode_null_ne_ok hwf.2 path _)
      · have hdecode := format.decode_of_alike hwf.1 path a h
        have ho : o ≠ .null := by
          rintro rfl
          exact format.decode_null_ne_ok hwf.2 path _ hdecode
        rw [format.decode_optional path ho, hdecode]
        rfl
  | .variant e, a =>
      obtain ⟨c, d, cs, hencode, rfl, hcase⟩ := h
      obtain ⟨c', cs', hlabel, hcap⟩ := e.exists_label a
      rw [e.encode_variant hlabel, Json.string.injEq, Text.ofChars_inj, List.cons.injEq] at hencode
      obtain ⟨rfl, rfl⟩ := hencode
      refine decodeVariant_eq_ok_iff.mpr ⟨d, cs', rfl, ?_⟩
      change (e.label a).toList = _
      rw [hlabel, ← hcase, capital_small hcap]
  | .record fields shape, a =>
      obtain ⟨ms, os, os', hencode, rfl, hperm, halike⟩ := h
      obtain rfl : fields.encode (shape.unpack a) = ms := Json.object.inj hencode
      have hkeys' := fields.sublist_keys_of_alike _ halike
      have hnodup' : (Json.keys os').Nodup := (fields.nodup_keys hwf.1 hwf.2).sublist hkeys'
      have hnames := fields.isSnakeCase_of_mem_names hwf.1
      have hkeys : ∀ k ∈ Json.keys os, ∃ n ∈ fields.names, k = fieldKey n := by
        intro k hk
        have hmem := hkeys'.subset ((hperm.map Prod.fst).mem_iff.mpr hk)
        obtain ⟨n, hn, rfl⟩ := List.mem_map.mp hmem
        exact ⟨n, hn, rfl⟩
      have hvalues := fields.decode_of_alike hwf.1 hwf.2 path (shape.unpack a) halike
        fun n hn => (lookup_snakeForm hnames hkeys hn).trans (lookup_perm hnodup' hperm _).symm
      refine bind_eq_ok_iff.mpr ⟨snakeForm os, ?_, bind_eq_ok_iff.mpr ⟨_, hvalues, rfl⟩⟩
      exact (fieldMembers_eq_ok_iff hnames).mpr ⟨os, rfl, hkeys, rfl⟩

theorem Fields.decode_of_alike {α : Type} (fields : Fields α) (hwf : fields.WellFormed)
    (hnodup : fields.names.Nodup) (path : Path) (a : α) {os : List (Text × Json)}
    (h : fields.Alike (fields.encode a) os) {members : List (List Char × Json)}
    (hlookup : ∀ n ∈ fields.names, members.lookup n.toList = os.lookup (fieldKey n)) :
    fields.decode path members = .ok (fields.withGiven a) := by
  match fields, a with
  | .nil, () => rfl
  | .read name format default rest, (a, b) =>
      obtain ⟨hname, hformat, hdefault, hrestwf⟩ := hwf
      obtain ⟨hfresh, hrestnodup⟩ := List.nodup_cons.mp hnodup
      obtain ⟨hlookupname, hlookuprest⟩ := List.forall_mem_cons.mp hlookup
      -- the fields to come are looked up in the members without this one
      have hkey : ∀ n ∈ rest.names, fieldKey n ≠ fieldKey name := by
        intro n hn heq
        obtain rfl := fieldKey_injective (rest.isSnakeCase_of_mem_names hrestwf n hn) hname heq
        exact hfresh hn
      obtain ⟨k, v, ms', hms, h⟩ := h
      cases hms
      rcases h with ⟨o, os', rfl, hvalue, hrest⟩ | ⟨habsent, hrest⟩
      · rw [List.lookup_cons_self] at hlookupname
        have hvalues := rest.decode_of_alike hrestwf hrestnodup path b hrest fun n hn => by
          rw [hlookuprest n hn, List.lookup_cons, beq_false_of_ne (hkey n hn)]
        have hdecode := format.decode_of_alike hformat (path.field name) a hvalue
        exact Fields.decode_read_eq_ok_iff.mpr ⟨.inl ⟨o, hlookupname, hdecode⟩, hvalues⟩
      · have hvalues := rest.decode_of_alike hrestwf hrestnodup path b hrest hlookuprest
        have hnone : os.lookup (fieldKey name) = none := by
          refine lookup_eq_none_iff_keys.mpr fun hmem => ?_
          obtain ⟨n, hn, hn'⟩ := List.mem_map.mp ((rest.sublist_keys_of_alike b hrest).subset hmem)
          exact hkey n hn hn'
        obtain ⟨d, rfl, hencode⟩ := Option.map_eq_some_iff.mp habsent
        have hd := format.decode_of_alike hformat path d (format.alike_encode d)
        have ha := format.decode_of_alike hformat path a (format.alike_encode a)
        rw [hencode, ha] at hd
        have hgiven : some (format.withGiven a) = some d := by
          rw [Except.ok.inj hd]
          exact hdefault
        exact Fields.decode_read_eq_ok_iff.mpr
          ⟨.inr ⟨hlookupname.trans hnone, hgiven.symm⟩, hvalues⟩
  | .given name value rest, (a, b) =>
      have hrest := rest.decode_of_alike hwf hnodup path b h hlookup
      exact bind_eq_ok_iff.mpr ⟨_, hrest, rfl⟩

end

/-! ### Nothing else is decoded -/

/-- The members of an object under the keys of fields, in the order of the fields. -/
def pick (names : List String) (members : List (List Char × Json)) : List (Text × Json) :=
  names.filterMap fun n => (members.lookup n.toList).map fun v => (fieldKey n, v)

theorem mem_pick_iff {members : List (List Char × Json)} {k : Text} {v : Json} :
    (k, v) ∈ pick names members ↔
      ∃ n ∈ names, k = fieldKey n ∧ members.lookup n.toList = some v := by
  simp only [pick, List.mem_filterMap, Option.map_eq_some_iff, Prod.mk.injEq]
  constructor
  · rintro ⟨n, hn, v', hv', rfl, rfl⟩
    exact ⟨n, hn, rfl, hv'⟩
  · rintro ⟨n, hn, rfl, hv⟩
    exact ⟨n, hn, v, hv, rfl, rfl⟩

/-- An object with distinct keys, all of fields, has just the members that are picked. -/
theorem perm_pick (hnames : ∀ n ∈ names, isSnakeCase n.toList) (hms : (Json.keys ms).Nodup)
    (hkeys : ∀ k ∈ Json.keys ms, ∃ n ∈ names, k = fieldKey n)
    (hpick : (Json.keys (pick names (snakeForm ms))).Nodup) :
    (pick names (snakeForm ms)).Perm ms := by
  refine (List.perm_ext_iff_of_nodup (hpick.of_map _) (hms.of_map _)).mpr fun ⟨k, v⟩ => ?_
  rw [mem_pick_iff, ← lookup_eq_some_iff_mem hms]
  constructor
  · rintro ⟨n, hn, rfl, hv⟩
    rw [← hv, lookup_snakeForm hnames hkeys hn]
  · intro hv
    obtain ⟨n, hn, rfl⟩ := hkeys k (List.mem_map_of_mem (mem_of_lookup hv))
    exact ⟨n, hn, rfl, by rw [lookup_snakeForm hnames hkeys hn, hv]⟩

theorem distinct_of_mem_snakeForm (h : Json.DistinctMembers ms) :
    ∀ m ∈ snakeForm ms, m.2.Distinct := by
  intro m hm
  obtain ⟨⟨k, v⟩, hkv, hm⟩ := List.mem_filterMap.mp hm
  obtain ⟨cs, -, rfl⟩ := Option.map_eq_some_iff.mp hm
  exact Json.distinctMembers_iff.mp h (k, v) hkv

mutual

/-- **What a value is decoded from** is a variation of its written form, and the value has the
given values in their places. -/
theorem Format.alike_of_decode {α : Type} (format : Format α) (hwf : format.WellFormed)
    {path : Path} {a : α} {o : Json} (ho : o.Distinct) (h : format.decode path o = .ok a) :
    format.Alike (format.encode a) o ∧ format.withGiven a = a := by
  match format, a with
  | .int, i => exact ⟨decodeInt_eq_ok_iff.mp h, rfl⟩
  | .bool, b => exact ⟨decodeBool_eq_ok_iff.mp h, rfl⟩
  | .bytes, bytes => exact ⟨decodeBytes_eq_ok_iff.mp h, rfl⟩
  | .buffer n, b => exact ⟨decodeBuffer_eq_ok_iff.mp h, rfl⟩
  | .address, a => exact ⟨decodeAddress_eq_ok_iff.mp h, rfl⟩
  | .optional format, a =>
      by_cases hnull : o = .null
      · subst hnull
        obtain rfl : none = a := Except.ok.inj h
        exact ⟨.inl ⟨rfl, rfl⟩, rfl⟩
      · rw [format.decode_optional path hnull, bind_eq_ok_iff] at h
        obtain ⟨a', h, ha⟩ := h
        obtain rfl : some a' = a := Except.ok.inj ha
        obtain ⟨halike, hgiven⟩ := format.alike_of_decode hwf.1 ho h
        exact ⟨.inr halike, congrArg some hgiven⟩
  | .variant e, a =>
      obtain ⟨c, cs, rfl, hlabel⟩ := decodeVariant_eq_ok_iff.mp h
      obtain ⟨c', cs', hlabel', hcap⟩ := e.exists_label a
      rw [hlabel, List.cons.injEq] at hlabel'
      obtain ⟨rfl, rfl⟩ := hlabel'
      exact ⟨⟨small (capital c), c, cs, e.encode_variant hlabel, rfl, capital_small hcap⟩, rfl⟩
  | .record fields shape, a =>
      obtain ⟨members, hmembers, h⟩ := bind_eq_ok_iff.mp h
      obtain ⟨b, hb, ha⟩ := bind_eq_ok_iff.mp h
      obtain rfl : shape.pack b = a := Except.ok.inj ha
      have hnames := fields.isSnakeCase_of_mem_names hwf.1
      obtain ⟨ms, rfl, hkeys, rfl⟩ := (fieldMembers_eq_ok_iff hnames).mp hmembers
      obtain ⟨halike, hgiven⟩ := fields.alike_of_decode hwf.1
        (distinct_of_mem_snakeForm ho.2) hb
      -- the members that the fields pick are all there are
      have hpick : (Json.keys (pick fields.names (snakeForm ms))).Nodup :=
        (fields.nodup_keys hwf.1 hwf.2).sublist (fields.sublist_keys_of_alike b halike)
      refine ⟨⟨fields.encode b, ms, _, ?_, rfl, perm_pick hnames ho.1 hkeys hpick, halike⟩, ?_⟩
      · rw [Format.encode, shape.unpack_pack]
      · rw [Format.withGiven, shape.unpack_pack, hgiven]

theorem Fields.alike_of_decode {α : Type} (fields : Fields α) (hwf : fields.WellFormed)
    {path : Path} {a : α} {members : List (List Char × Json)}
    (hmembers : ∀ m ∈ members, m.2.Distinct) (h : fields.decode path members = .ok a) :
    fields.Alike (fields.encode a) (pick fields.names members) ∧ fields.withGiven a = a := by
  match fields, a with
  | .nil, () => exact ⟨⟨rfl, rfl⟩, rfl⟩
  | .read name format default rest, (a, b) =>
      obtain ⟨-, hformat, hdefault, hrestwf⟩ := hwf
      obtain ⟨hvalue, hrest⟩ := Fields.decode_read_eq_ok_iff.mp h
      obtain ⟨hrestalike, hrestgiven⟩ := rest.alike_of_decode hrestwf hmembers hrest
      have hpick : pick (name :: rest.names) members =
          ((members.lookup name.toList).map fun v => (fieldKey name, v)).toList ++
            pick rest.names members := by
        rw [pick, List.filterMap_cons]
        cases members.lookup name.toList <;> rfl
      rcases hvalue with ⟨j, hj, hdecode⟩ | ⟨hnone, rfl⟩
      · obtain ⟨halike, hgiven⟩ := format.alike_of_decode hformat
          (hmembers _ (mem_of_lookup hj)) hdecode
        refine ⟨⟨_, _, _, rfl, .inl ⟨j, _, ?_, halike, hrestalike⟩⟩, Prod.ext hgiven hrestgiven⟩
        rw [Fields.names, hpick, hj]
        rfl
      · refine ⟨⟨_, _, _, rfl, .inr ⟨rfl, ?_⟩⟩, Prod.ext (Option.some.inj hdefault) hrestgiven⟩
        rw [Fields.names, hpick, hnone]
        exact hrestalike
  | .given name value rest, (a, b) =>
      obtain ⟨b', hb', hb⟩ := bind_eq_ok_iff.mp h
      obtain ⟨rfl, rfl⟩ := Prod.mk.inj (Except.ok.inj hb)
      obtain ⟨halike, hgiven⟩ := rest.alike_of_decode hwf hmembers hb'
      exact ⟨halike, congrArg (Prod.mk value) hgiven⟩

end

/-! ### Exact formats -/

/-- A format is **exact** when it accepts the written forms of its values and their variations,
and nothing else; what it accepts is decoded to the value that is written, with the given values
in their places. -/
structure Format.Exact (format : Format α) (given : α → α) : Prop where
  decode_encode : ∀ path a, format.decode path (format.encode a) = .ok (given a)
  decode_eq_ok_iff : ∀ path a (o : Json), o.Distinct →
    (format.decode path o = .ok a ↔ format.Alike (format.encode a) o ∧ given a = a)

/-- **Well-formed formats** are exact. -/
theorem Format.exact_of_wellFormed (format : Format α) (hwf : format.WellFormed) :
    format.Exact format.withGiven where
  decode_encode path a := format.decode_of_alike hwf path a (format.alike_encode a)
  decode_eq_ok_iff path a o ho := by
    refine ⟨format.alike_of_decode hwf ho, fun ⟨halike, hgiven⟩ => ?_⟩
    rw [format.decode_of_alike hwf path a halike, hgiven]

end MarketRegistry
