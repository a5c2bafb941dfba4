import MarketRegistry.Proofs.Dump.Rewriting
import MarketRegistry.Proofs.Market.Exact

/-!
# Written keys and the fields that they fill

Between a key as it is written in a dump and the field that it fills stand three renamings: the
casing fixes, the rule that the last of several equal keys wins, and the snake case. Only the
first of them brings different keys together. So two keys of the object of a record fill the
same field exactly when the casing fixes make them equal. Then the later of the two members is
decoded, and the earlier one is lost without a fault.

## Main definitions

* `writtenName?` — the name of the field that a written key fills.
* `Json.LastFor` — the value that is written last for a field.
* `Format.Part` — the parts of a decoded value, and what they are written as.
* `Fields.ReadFrom` — a record and the members of the object that it is read from.

## Main results

* `Format.Part.decode_eq` — every part of a decoded value is decoded from what it is written as.
* `Format.readFrom_of_decode` — a decoded record is read from the members of its object.
* `written_keys_fill_fields` — both together, for the text of a dump.
* `lost_member_twiceWritten` — a dump with two keys for one field.
-/

namespace MarketRegistry

variable {k k' : Text} {n : List Char} {v : Json} {ms : List (Text × Json)} {path : Path}

/-! ### Written keys -/

/-- The **name of the field** that a key of a dump stands for. The casing fixes come first. -/
def writtenName? (k : Text) : Option (List Char) :=
  fieldName? k.fixedCasing

/-- The value that is **written last** for a field. -/
def Json.LastFor (ms : List (Text × Json)) (n : List Char) (v : Json) : Prop :=
  ∃ before k after, ms = before ++ (k, v) :: after ∧ writtenName? k = some n ∧
    ∀ m ∈ after, writtenName? m.1 ≠ some n

/-- **Two written keys** stand for the same field exactly when the casing fixes make them
equal. -/
theorem writtenName?_eq_iff (h : writtenName? k = some n) :
    writtenName? k = writtenName? k' ↔ k.fixedCasing = k'.fixedCasing := by
  constructor
  · exact fun heq => fieldName?_inj h (heq.symm.trans h)
  · exact congrArg fieldName?

/-! ### What a tree is decoded from -/

/-- The value that the tree of a dump is decoded from: it is normalized, and then repeated keys
are resolved. -/
def Json.normalValue (j : Json) : Json :=
  j.normalized.lastWins

/-- The members of an object that are put in one after another, under their new keys. -/
def normalMembers (ms : List (Text × Json)) : List (Text × Json) :=
  ms.map fun m => (m.1.fixedCasing, m.2.normalValue)

theorem lastWinsMembers_normalizedMembers (ms : List (Text × Json)) :
    Json.lastWinsMembers (Json.normalizedMembers ms) = normalMembers ms := by
  induction ms with
  | nil => rfl
  | cons m ms ih =>
      obtain ⟨k, v⟩ := m
      rw [Json.normalizedMembers, Json.lastWinsMembers, ih]
      rfl

/-- What a literal stands for is no object. -/
theorem normalValue_ne_object {j : Json} (hj : ∀ ms, j = .object ms → (Json.unitVariant? ms).isSome)
    (os : List (Text × Json)) : j.normalValue ≠ .object os := by
  have hliteral : ∀ t : Text, t.literalJson.lastWins ≠ .object os := by
    intro t
    by_cases ht : t.isConverted
    · rcases Text.literalJson_of_isConverted ht with ⟨i, hi⟩ | ⟨js, hjs⟩
      · exact hi ▸ nofun
      · exact hjs ▸ nofun
    · exact Text.literalJson_eq_string ht ▸ nofun
  cases j with
  | string t => exact hliteral t
  | object ms =>
      obtain ⟨t, ht⟩ := Option.isSome_iff_exists.mp (hj ms rfl)
      rw [Json.normalValue, Json.normalized, ht]
      exact hliteral t
  | _ => exact nofun

/-- **An object comes from an object** with the same members under their new keys, of which
repeated ones are resolved. -/
theorem normalValue_eq_object_iff {j : Json} {os : List (Text × Json)} :
    j.normalValue = .object os ↔ ∃ ms, j = .object ms ∧ Json.unitVariant? ms = none ∧
      os = Json.resolve (normalMembers ms) := by
  constructor
  · intro h
    have hj : ∃ ms, j = .object ms ∧ Json.unitVariant? ms = none := by
      by_contra hnot
      refine normalValue_ne_object (fun ms hms => ?_) os h
      exact Option.isSome_iff_ne_none.mpr fun hnone => hnot ⟨ms, hms, hnone⟩
    obtain ⟨ms, rfl, hms⟩ := hj
    refine ⟨ms, rfl, hms, ?_⟩
    rw [Json.normalValue, Json.normalized, hms, Option.elim_none, Json.lastWins,
      lastWinsMembers_normalizedMembers] at h
    exact (Json.object.inj h).symm
  · rintro ⟨ms, rfl, hms, rfl⟩
    rw [Json.normalValue, Json.normalized, hms, Option.elim_none, Json.lastWins,
      lastWinsMembers_normalizedMembers]

/-- **A field is filled** by the value that is written last for it. -/
theorem fills_resolve_iff : Json.Fills (Json.resolve (normalMembers ms)) n v ↔
    ∃ w, Json.LastFor ms n w ∧ v = w.normalValue := by
  have hmem : ∀ k, (k, v) ∈ Json.resolve (normalMembers ms) ↔
      (normalMembers ms).reverse.lookup k = some v := by
    intro k
    rw [← Json.lookup_resolve, lookup_eq_some_iff_mem (Json.nodup_keys_resolve _)]
  simp only [Json.Fills, hmem, List.lookup_eq_some_iff]
  -- the last member with a key is the first of the reversed list, so `before` and `after` change
  -- places
  constructor
  · rintro ⟨k, ⟨after, before, hsplit, hafter⟩, hname⟩
    rw [List.reverse_eq_iff, List.reverse_append, List.reverse_cons, List.append_assoc,
      List.singleton_append, normalMembers, List.map_eq_append_iff] at hsplit
    obtain ⟨before', rest, rfl, -, hrest⟩ := hsplit
    obtain ⟨⟨k', w⟩, after', rfl, hkw, hafter'⟩ := List.map_eq_cons_iff.mp hrest
    obtain ⟨rfl, rfl⟩ := Prod.mk.inj hkw
    refine ⟨w, ⟨before', k', after', rfl, hname, fun m hm hm' => ?_⟩, rfl⟩
    have hkey : (m.1.fixedCasing, m.2.normalValue) ∈ after := by
      rw [← List.mem_reverse, ← hafter']
      exact List.mem_map_of_mem hm
    exact absurd (fieldName?_inj hname hm') (by simpa using hafter _ hkey)
  · rintro ⟨w, ⟨before, k, after, rfl, hname, hafter⟩, rfl⟩
    refine ⟨k.fixedCasing, ⟨(normalMembers after).reverse, (normalMembers before).reverse, ?_, ?_⟩,
      hname⟩
    · simp [normalMembers]
    · rintro m hm
      obtain ⟨m', hm', rfl⟩ := List.mem_map.mp (List.mem_reverse.mp hm)
      refine bne_iff_ne.mpr fun heq => hafter m' hm' ?_
      rw [← (writtenName?_eq_iff hname).mpr heq, hname]

/-! ### Parts of a decoded value -/

/-- A **part** of a decoded value, with its format and its place, and what it is written as in
the tree of the dump. What is not written last for its field is no part. -/
inductive Format.Part {α' : Type} (format' : Format α') (path' : Path) (j' : Json) (a' : α') :
    {α : Type} → Format α → Path → Json → α → Prop where
  | whole : Part format' path' j' a' format' path' j' a'
  | optional {α : Type} {format : Format α} {path : Path} {j : Json} {a : α}
      (h : Part format' path' j' a' format path j a) :
      Part format' path' j' a' (.optional format) path j (some a)
  | field {α β : Type} {fields : Fields β} {shape : Shape α β} {path : Path}
      {ms : List (Text × Json)} {a : α} {f : Field} {c : f.Value} {v : Json}
      (hc : fields.Component (shape.unpack a) f c) (hv : Json.LastFor ms f.name.toList v)
      (h : Part format' path' j' a' f.format (path.field f.name) v c) :
      Part format' path' j' a' (.record fields shape) path (.object ms) a

/-! ### Records -/

/-- A record that is **read from the members** of an object as they are written. -/
structure Fields.ReadFrom {β : Type} (fields : Fields β) (path : Path) (ms : List (Text × Json))
    (b : β) : Prop where
  /-- Every key stands for a field that is read. -/
  stands : ∀ k ∈ Json.keys ms, ∃ f ∈ fields.toList, writtenName? k = some f.name.toList
  /-- Two keys stand for the same field exactly when the casing fixes make them equal. -/
  same_field_iff : ∀ k ∈ Json.keys ms, ∀ k' ∈ Json.keys ms,
    writtenName? k = writtenName? k' ↔ k.fixedCasing = k'.fixedCasing
  /-- A field is decoded from the value that is written last for it. -/
  value : ∀ f ∈ fields.toList, ∃ c, fields.Component b f c ∧
    ((∃ v, Json.LastFor ms f.name.toList v ∧
        f.format.decode (path.field f.name) v.normalValue = .ok c) ∨
      ((∀ v, ¬Json.LastFor ms f.name.toList v) ∧ f.default = some c))
  /-- Nothing that is written is lost if the casing fixes keep the keys apart. -/
  kept : (ms.map fun m => m.1.fixedCasing).Nodup →
    ∀ m ∈ ms, ∃ f ∈ fields.toList, Json.LastFor ms f.name.toList m.2

section Record

variable {α β : Type} {fields : Fields β} {shape : Shape α β} {a : α} {j : Json} {f : Field}

/-- **What is decoded** for a field that is written is the value that is written last for it. -/
theorem Field.decode_of_lastFor (h : Json.LastFor ms f.name.toList v) :
    f.decode path (snakeForm (Json.resolve (normalMembers ms))) =
      f.format.decode (path.field f.name) v.normalValue := by
  have hfills := fills_resolve_iff.mpr ⟨v, h, rfl⟩
  rw [decode, (lookup_snakeForm_eq_some_iff (Json.nodup_keys_resolve _)).mpr hfills]

/-- **A field that is decoded** is written, or it has a default. -/
theorem Field.exists_lastFor_of_decode {c : f.Value}
    (h : f.decode path (snakeForm (Json.resolve (normalMembers ms))) = .ok c) :
    (∃ v, Json.LastFor ms f.name.toList v ∧
        f.format.decode (path.field f.name) v.normalValue = .ok c) ∨
      ((∀ v, ¬Json.LastFor ms f.name.toList v) ∧ f.default = some c) := by
  rcases (decode_eq_ok_iff (Json.nodup_keys_resolve _)).mp h with ⟨o, hfills, ho⟩ | ⟨hno, hdefault⟩
  · obtain ⟨v, hv, rfl⟩ := fills_resolve_iff.mp hfills
    exact .inl ⟨v, hv, ho⟩
  · exact .inr ⟨fun v hv => hno _ (fills_resolve_iff.mpr ⟨v, hv, rfl⟩), hdefault⟩

/-- **A record that is decoded** is written as an object, each key of which stands for a field. -/
theorem Format.exists_members_of_decode
    (h : (Format.record fields shape).decode path j.normalValue = .ok a) :
    ∃ ms, j = .object ms ∧
      (∀ k ∈ Json.keys ms, ∃ f ∈ fields.toList, writtenName? k = some f.name.toList) ∧
      fields.decode path (snakeForm (Json.resolve (normalMembers ms))) = .ok (shape.unpack a) := by
  obtain ⟨members, hmembers, h⟩ := bind_eq_ok_iff.mp h
  obtain ⟨b, hb, ha⟩ := bind_eq_ok_iff.mp h
  obtain rfl : shape.pack b = a := Except.ok.inj ha
  obtain ⟨os, hos, hkeys, rfl⟩ := fieldMembers_eq_ok_iff_fieldName?.mp hmembers
  obtain ⟨ms, rfl, -, rfl⟩ := normalValue_eq_object_iff.mp hos
  refine ⟨ms, rfl, fun k hk => ?_, by rw [shape.unpack_pack, hb]⟩
  have hk' : k.fixedCasing ∈ Json.keys (normalMembers ms) := by
    obtain ⟨m, hm, rfl⟩ := List.mem_map.mp hk
    exact List.mem_map_of_mem (List.mem_map_of_mem hm)
  obtain ⟨n, hn, hname⟩ := hkeys _ (Json.mem_keys_resolve_iff.mpr hk')
  rw [fields.names_eq_map] at hn
  obtain ⟨f, hf, rfl⟩ := List.mem_map.mp hn
  exact ⟨f, hf, hname⟩

/-- A member is written last for its field if the casing fixes keep all keys apart. -/
theorem Json.lastFor_of_nodup (h : (ms.map fun m => m.1.fixedCasing).Nodup) (hm : (k, v) ∈ ms)
    (hk : writtenName? k = some n) : Json.LastFor ms n v := by
  obtain ⟨before, after, rfl⟩ := List.append_of_mem hm
  refine ⟨before, k, after, rfl, hk, fun m hm' heq => ?_⟩
  rw [List.map_append, List.map_cons] at h
  refine (List.nodup_cons.mp h.of_append_right).1 (List.mem_map.mpr ⟨m, hm', ?_⟩)
  exact (writtenName?_eq_iff heq).mp (heq.trans hk.symm)

/-- **A record that is decoded** is read from the members of the object that it is written as. -/
theorem Format.readFrom_of_decode
    (h : (Format.record fields shape).decode path j.normalValue = .ok a) :
    ∃ ms, j = .object ms ∧ fields.ReadFrom path ms (shape.unpack a) := by
  obtain ⟨ms, rfl, hkeys, hfields⟩ := exists_members_of_decode h
  refine ⟨ms, rfl, hkeys, fun k hk k' _ => ?_, fun f hf => ?_, fun hnodup m hm => ?_⟩
  · obtain ⟨f, -, hname⟩ := hkeys k hk
    exact writtenName?_eq_iff hname
  · obtain ⟨c, hc⟩ := fields.exists_component (shape.unpack a) f hf
    exact ⟨c, hc, Field.exists_lastFor_of_decode (hc.decode_eq hfields)⟩
  · obtain ⟨f, hf, hname⟩ := hkeys m.1 (List.mem_map_of_mem hm)
    exact ⟨f, hf, Json.lastFor_of_nodup hnodup hm hname⟩

end Record

/-- **Every part** of a decoded value is decoded from what it is written as. -/
theorem Format.Part.decode_eq {α α' : Type} {format : Format α} {format' : Format α'}
    {path path' : Path} {j j' : Json} {a : α} {a' : α'}
    (h : Part format' path' j' a' format path j a)
    (hdecode : format.decode path j.normalValue = .ok a) :
    format'.decode path' j'.normalValue = .ok a' := by
  induction h with
  | whole => exact hdecode
  | @optional _ format path j a _ ih =>
      by_cases hnull : j.normalValue = .null
      · rw [hnull] at hdecode
        cases hdecode
      · rw [format.decode_optional path hnull] at hdecode
        obtain ⟨b, hb, hsome⟩ := bind_eq_ok_iff.mp hdecode
        cases hsome
        exact ih hb
  | field hc hv _ ih =>
      -- what is written last for a field is what the field is decoded from, by `hv`
      obtain ⟨ms, hms, -, hfields⟩ := exists_members_of_decode hdecode
      cases hms
      have hvalue := hc.decode_eq hfields
      rw [Field.decode_of_lastFor hv] at hvalue
      exact ih hvalue

/-! ### Dumps -/

/-- **Written keys and the fields that they fill.** Where the text of a dump is json without
backslashes, is normalized and is decoded, every record in it, at whatever depth, is read from
the object that it is written as: each key fills a field, two keys fill the same field only when
the casing fixes make them equal, a field has the value that is written last for it, and if no
two keys are made equal, nothing that is written is lost. -/
theorem written_keys_fill_fields {α α' β' : Type} {format : Format α} {path path' : Path}
    {dump out : List Char} {tree o j' : Json} {a : α} {a' : α'} {fields : Fields β'}
    {shape : Shape α' β'} (hread : Json.read dump = .ok tree) (hslash : '\\' ∉ dump)
    (hnormalize : (normalize dump).outcome = .ok out) (hparse : Json.parse out = .ok o)
    (hdecode : format.decode path o = .ok a)
    (hpart : Format.Part (.record fields shape) path' j' a' format path tree a) :
    ∃ ms, j' = .object ms ∧ fields.ReadFrom path' ms (shape.unpack a') := by
  obtain ⟨out', hout', hlexemes⟩ := exists_normalize_of_read hread hslash
  rw [hout'] at hnormalize
  cases hnormalize
  have ho : o = tree.normalValue := by
    cases hout : Json.read out with
    | error e =>
        rw [Json.parse, hout] at hparse
        cases hparse
    | ok t =>
        have hnormal := read_of_lexemes hlexemes (not_isConverted_of_lexemes hlexemes hout)
        rw [Json.parse, hnormal] at hparse
        exact (Except.ok.inj hparse).symm
  subst ho
  exact Format.readFrom_of_decode (hpart.decode_eq hdecode)

/-! ### A lost member -/

/-- The text of oracle data with two keys for one field, in short pieces. -/
def twiceWritten : List Char :=
  ["\x7b\"lastOraclePrice\":1,", "\"lastOracleConf\":2,", "\"lastOracleDelay\":3,",
    "\"lastOraclePriceTwap\":4,", "\"lastOraclePriceTwap5Min\":5,",
    "\"lastOraclePriceTwap5min\":6,", "\"lastOraclePriceTwapTs\":7\x7d"].flatMap String.toList

/-- The members of the object that the text writes. -/
def twiceWrittenMembers : List (Text × Json) :=
  [(.ofString "lastOraclePrice", .number (.int 1)), (.ofString "lastOracleConf", .number (.int 2)),
    (.ofString "lastOracleDelay", .number (.int 3)),
    (.ofString "lastOraclePriceTwap", .number (.int 4)),
    (.ofString "lastOraclePriceTwap5Min", .number (.int 5)),
    (.ofString "lastOraclePriceTwap5min", .number (.int 6)),
    (.ofString "lastOraclePriceTwapTs", .number (.int 7))]

/-- What the text is decoded to. The number 5 is nowhere in it. -/
def lossyData : HistoricalOracleData :=
  ⟨1, 2, 3, 4, 6, 7⟩

/-- The later of the two members takes the place of the earlier one. -/
theorem normalValue_twiceWrittenMembers : (Json.object twiceWrittenMembers).normalValue =
    HistoricalOracleData.format.encode lossyData := by
  -- trees have no decidable equality, but their lexemes do and determine them
  have hlexemes : (HistoricalOracleData.format.encode lossyData).toLexemes =
      (Json.object twiceWrittenMembers).normalValue.toLexemes := by
    decide +kernel
  have hencode := Json.ofLexemes_eq_ok_iff.mpr hlexemes
  exact Except.ok.inj (hencode.symm.trans (Json.ofLexemes_eq_ok_iff.mpr rfl))

theorem decode_twiceWritten : Json.read twiceWritten = .ok (.object twiceWrittenMembers) ∧
    '\\' ∉ twiceWritten ∧ ∃ out o, (normalize twiceWritten).outcome = .ok out ∧
      Json.parse out = .ok o ∧
      HistoricalOracleData.format.decode (.root "data") o = .ok lossyData := by
  have hread : Json.read twiceWritten = .ok (.object twiceWrittenMembers) := by
    rw [Json.read, Json.ofLexemes_eq_ok_iff]
    decide +kernel
  have hslash : '\\' ∉ twiceWritten := by decide +kernel
  have hkeys : ∀ k ∈ (Json.object twiceWrittenMembers).objectKeys, ¬k.isConverted := by
    decide +kernel
  obtain ⟨out, hout, hlexemes⟩ := exists_normalize_of_read hread hslash
  have hparse : Json.parse out = .ok (Json.object twiceWrittenMembers).normalValue := by
    rw [Json.parse, read_of_lexemes hlexemes hkeys]
    rfl
  refine ⟨hread, hslash, out, _, by rw [hout], hparse, ?_⟩
  rw [normalValue_twiceWrittenMembers]
  exact (Format.exact_of_wellFormed _ HistoricalOracleData.wellFormed_format).decode_encode _ _

/-- **A member is lost.** Two keys that differ as they are written stand for one field, and the
text is decoded all the same. -/
theorem lost_member_twiceWritten : Json.read twiceWritten = .ok (.object twiceWrittenMembers) ∧
    '\\' ∉ twiceWritten ∧
    (∃ out o, (normalize twiceWritten).outcome = .ok out ∧ Json.parse out = .ok o ∧
      HistoricalOracleData.format.decode (.root "data") o = .ok lossyData) ∧
    ∃ k k', (k, .number (.int 5)) ∈ twiceWrittenMembers ∧
      (k', .number (.int 6)) ∈ twiceWrittenMembers ∧ k ≠ k' ∧
      writtenName? k = some "last_oracle_price_twap5min".toList ∧
      writtenName? k' = some "last_oracle_price_twap5min".toList := by
  obtain ⟨hread, hslash, hdecode⟩ := decode_twiceWritten
  refine ⟨hread, hslash, hdecode, .ofString "lastOraclePriceTwap5Min",
    .ofString "lastOraclePriceTwap5min", ?_, ?_, by decide, by decide +kernel, by decide +kernel⟩
  · simp [twiceWrittenMembers]
  · simp [twiceWrittenMembers]

theorem readFrom_twiceWritten : HistoricalOracleData.fields.ReadFrom (.root "data")
    twiceWrittenMembers (HistoricalOracleData.shape.unpack lossyData) := by
  obtain ⟨hread, hslash, out, o, hnormalize, hparse, hdecode⟩ := decode_twiceWritten
  obtain ⟨ms, hms, h⟩ := written_keys_fill_fields hread hslash hnormalize hparse hdecode .whole
  cases hms
  exact h

end MarketRegistry
