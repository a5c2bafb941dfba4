import MarketRegistry.Proofs.Format.Fields

/-!
# Keys can be told from names

The name that a key stands for marks the capitals of the key and keeps everything else. Letters
and digits are no underscores, so each underscore of the name tells of a capital, and the key can
be read off the name again. Therefore the members of an object stay apart when they are put into
a dictionary under their names: none takes the place of another one.

## Main definitions

* `MarksCapitals` — a key and the name that marks its capitals.
* `nameDict` — the dictionary of the members of an object under their names.
* `KeptUnderNames` — what it is for a dictionary to keep all members.

## Main results

* `flatMap_snakeStep_eq_append_iff` — the underscores of a name and the capitals of its key.
* `marksCapitals_snakeCase`, `keptUnderNames` — one key, and the keys of one object.
* `keys_told_from_names` — both together.
-/

namespace MarketRegistry

variable {c : Char} {cs key key' before after : List Char} {ms : List (Text × Json)}

/-! ### Underscores -/

theorem small_ne_underscore (h : isCapital c) : small c ≠ '_' :=
  ne_underscore_of_isLetterOrDigit (isLetterOrDigit_of_isSmall (isSmall_small h))

/-- The key of a name that is cut **at an underscore** is cut at a capital. -/
theorem exists_of_flatMap_snakeStep_eq (h : cs.all isLetterOrDigit)
    (heq : cs.flatMap snakeStep = before ++ '_' :: after) : ∃ keyBefore c keyAfter,
      cs = keyBefore ++ c :: keyAfter ∧ isCapital c ∧ before = keyBefore.flatMap snakeStep ∧
        after = small c :: keyAfter.flatMap snakeStep := by
  induction cs generalizing before with
  | nil => simp at heq
  | cons c cs ih =>
      rw [List.all_cons, Bool.and_eq_true] at h
      obtain ⟨hc, hcs⟩ := h
      by_cases hcap : isCapital c
      · rw [flatMap_snakeStep_of_isCapital hcap] at heq
        obtain ⟨rfl, hend⟩ | ⟨rest, rfl, hrest⟩ := List.cons_eq_append_iff.mp heq
        · exact ⟨[], c, cs, rfl, hcap, rfl, (List.cons.inj hend).2⟩
        obtain ⟨rfl, hend⟩ | ⟨rest', rfl, htail⟩ := List.cons_eq_append_iff.mp hrest
        · exact absurd (List.cons.inj hend).1.symm (small_ne_underscore hcap)
        obtain ⟨keyBefore, d, keyAfter, rfl, hd, rfl, rfl⟩ := ih hcs htail
        exact ⟨c :: keyBefore, d, keyAfter, rfl, hd,
          (flatMap_snakeStep_of_isCapital hcap keyBefore).symm, rfl⟩
      · rw [flatMap_snakeStep_of_not_isCapital hcap] at heq
        obtain ⟨rfl, hend⟩ | ⟨rest, rfl, hrest⟩ := List.cons_eq_append_iff.mp heq
        · exact absurd (List.cons.inj hend).1.symm (ne_underscore_of_isLetterOrDigit hc)
        obtain ⟨keyBefore, d, keyAfter, rfl, hd, rfl, rfl⟩ := ih hcs hrest
        exact ⟨c :: keyBefore, d, keyAfter, rfl, hd,
          (flatMap_snakeStep_of_not_isCapital hcap keyBefore).symm, rfl⟩

/-- **An underscore** stands before each capital and nowhere else. -/
theorem flatMap_snakeStep_eq_append_iff (h : cs.all isLetterOrDigit) :
    cs.flatMap snakeStep = before ++ '_' :: after ↔ ∃ keyBefore c keyAfter,
      cs = keyBefore ++ c :: keyAfter ∧ isCapital c ∧ before = keyBefore.flatMap snakeStep ∧
        after = small c :: keyAfter.flatMap snakeStep := by
  refine ⟨exists_of_flatMap_snakeStep_eq h, ?_⟩
  rintro ⟨keyBefore, c, keyAfter, rfl, hcap, rfl, rfl⟩
  rw [List.flatMap_append, flatMap_snakeStep_of_isCapital hcap]

/-- There are as many underscores in a name as capitals in its key. -/
theorem count_underscore_flatMap (h : cs.all isLetterOrDigit) :
    (cs.flatMap snakeStep).count '_' = cs.countP isCapital := by
  induction cs with
  | nil => rfl
  | cons c cs ih =>
      rw [List.all_cons, Bool.and_eq_true] at h
      obtain ⟨hc, hcs⟩ := h
      by_cases hcap : isCapital c
      · rw [flatMap_snakeStep_of_isCapital hcap, List.count_cons_self,
          List.count_cons_of_ne (small_ne_underscore hcap), ih hcs,
          List.countP_cons_of_pos hcap]
      · rw [flatMap_snakeStep_of_not_isCapital hcap,
          List.count_cons_of_ne (ne_underscore_of_isLetterOrDigit hc), ih hcs,
          List.countP_cons_of_neg hcap]

/-- The characters of a name. -/
theorem of_mem_flatMap_snakeStep (h : cs.all isLetterOrDigit) (hc : c ∈ cs.flatMap snakeStep) :
    ¬isCapital c ∧ (isLetterOrDigit c ∨ c = '_') := by
  obtain ⟨d, hd, hcd⟩ := List.mem_flatMap.mp hc
  by_cases hcap : isCapital d
  · rw [snakeStep, if_pos hcap] at hcd
    simp only [List.mem_cons, List.not_mem_nil, or_false] at hcd
    rcases hcd with rfl | rfl
    · exact ⟨by decide, .inr rfl⟩
    · have hsmall := isSmall_small hcap
      exact ⟨not_isCapital_of_isSmall hsmall, .inl (isLetterOrDigit_of_isSmall hsmall)⟩
  · rw [snakeStep, if_neg hcap, List.mem_singleton] at hcd
    subst hcd
    exact ⟨hcap, .inl (List.all_eq_true.mp h c hd)⟩

/-! ### Keys and their names -/

/-- A key and a name that **marks its capitals**. -/
structure MarksCapitals (key name : List Char) : Prop where
  /-- A capital becomes a small letter behind an underscore, and everything else stays. -/
  spelled : name = key.flatMap snakeStep
  /-- An underscore stands before each former capital, and there is no other. -/
  underscore_iff : ∀ before after, name = before ++ '_' :: after ↔ ∃ keyBefore c keyAfter,
    key = keyBefore ++ c :: keyAfter ∧ isCapital c ∧ before = keyBefore.flatMap snakeStep ∧
      after = small c :: keyAfter.flatMap snakeStep
  count : name.count '_' = key.countP isCapital
  /-- No capital is left. -/
  letters : ∀ c ∈ name, ¬isCapital c ∧ (isLetterOrDigit c ∨ c = '_')
  /-- With a capital for each underscore and the letter behind it, the name is the key again. -/
  inverse : camelCase name = key

/-- **The name of a key** marks its capitals. -/
theorem marksCapitals_snakeCase (h : isCamelCase key) : MarksCapitals key (snakeCase key) := by
  have hall := all_isLetterOrDigit_of_isCamelCase h
  have hname := snakeCase_eq_flatMap h
  refine ⟨hname, fun before after => ?_, ?_, fun c hc => ?_, camelCase_snakeCase h⟩
  · rw [hname, flatMap_snakeStep_eq_append_iff hall]
  · rw [hname, count_underscore_flatMap hall]
  · exact of_mem_flatMap_snakeStep hall (hname ▸ hc)

/-! ### The members of an object -/

/-- The **dictionary of members** under the names of fields. They are put in one after another, so
that a member would take the place of an earlier one with the same name. -/
def nameDict (ms : List (Text × Json)) : List (Text × Json) :=
  Json.resolve ((snakeForm ms).map fun m => (Text.ofChars m.1, m.2))

/-- An object whose members are all **kept under the names** of fields. -/
structure KeptUnderNames (ms : List (Text × Json)) : Prop where
  /-- Its keys are let through. -/
  accepted : snakeMembers ms = .ok (snakeForm ms)
  /-- Different keys stand for different names. -/
  distinct : ∀ k ∈ Json.keys ms, ∀ k' ∈ Json.keys ms, k ≠ k' → fieldName? k ≠ fieldName? k'
  /-- The dictionary has as many entries as the object. -/
  length : (nameDict ms).length = ms.length
  /-- Each member is in the dictionary, and under its name nothing else. -/
  lookup : ∀ cs v, (Text.ofChars cs, v) ∈ ms →
    (nameDict ms).lookup (Text.ofChars (snakeCase cs)) = some v

/-- Where names are distinct, nothing takes the place of anything. -/
theorem nameDict_eq (h : (Json.keys ms).Nodup) :
    nameDict ms = (snakeForm ms).map fun m => (Text.ofChars m.1, m.2) := by
  have hnodup : (Json.keys ((snakeForm ms).map fun m => (Text.ofChars m.1, m.2))).Nodup := by
    rw [Json.keys, List.map_map]
    have hnames := (nodup_snakeForm h).map fun _ _ => Text.ofChars_inj.mp
    rwa [List.map_map] at hnames
  rw [nameDict, Json.resolve, Json.foldl_put_of_nodup _ [] hnodup, List.nil_append]

theorem length_snakeForm (h : ∀ k ∈ Json.keys ms, (camelKey? k).isSome) :
    (snakeForm ms).length = ms.length := by
  have hkeys : ((Json.keys ms).filterMap fieldName?).length = (Json.keys ms).length := by
    rw [List.length_filterMap_eq_countP, List.countP_eq_length]
    intro k hk
    rw [fieldName?, Option.isSome_map]
    exact h k hk
  rwa [← map_fst_snakeForm, List.length_map, Json.keys, List.length_map] at hkeys

/-- **Keys that are let through** keep their members apart. -/
theorem keptUnderNames (hnodup : (Json.keys ms).Nodup)
    (h : ∀ k ∈ Json.keys ms, (camelKey? k).isSome) : KeptUnderNames ms where
  accepted := by
    rw [snakeMembers_eq, if_pos]
    rw [notCamelKeys_eq_nil_iff]
    rintro k ⟨hk, hnone⟩
    simpa [hnone] using h k hk
  distinct := by
    intro k hk k' _ hne heq
    obtain ⟨cs, hcs⟩ := Option.isSome_iff_exists.mp (h k hk)
    have hname : fieldName? k = some (snakeCase cs) := by rw [fieldName?, hcs, Option.map_some]
    exact hne (fieldName?_inj hname (heq ▸ hname))
  length := by rw [nameDict_eq hnodup, List.length_map, length_snakeForm h]
  lookup := by
    intro cs v hmem
    obtain ⟨cs', hcs'⟩ := Option.isSome_iff_exists.mp (h _ (List.mem_map_of_mem hmem))
    obtain rfl := Text.ofChars_inj.mp (camelKey?_eq_some_iff.mp hcs').1
    have hfills : (snakeCase cs, v) ∈ snakeForm ms := by
      rw [mem_snakeForm_iff]
      exact ⟨_, hmem, by rw [fieldName?, hcs', Option.map_some]⟩
    have hdict := Json.nodup_keys_resolve ((snakeForm ms).map fun m => (Text.ofChars m.1, m.2))
    rw [nameDict, lookup_eq_some_iff_mem hdict, ← nameDict, nameDict_eq hnodup]
    exact List.mem_map_of_mem hfills

/-- **Keys can be told from names.** The name of a key in camel case has an underscore before each
former capital and no other, has no capital, and is turned back into the key. So two keys never
stand for one name, and an object whose keys are let through has as many entries under their
names as it has members. -/
theorem keys_told_from_names :
    (∀ key, isCamelCase key → MarksCapitals key (snakeCase key)) ∧
      (∀ key key', isCamelCase key → isCamelCase key' → snakeCase key = snakeCase key' →
        key = key') ∧
      ∀ ms, (Json.keys ms).Nodup → (∀ k ∈ Json.keys ms, (camelKey? k).isSome) →
        KeptUnderNames ms :=
  ⟨fun _ h => marksCapitals_snakeCase h, fun _ _ h h' => snakeCase_inj h h',
    fun _ hnodup h => keptUnderNames hnodup h⟩

/-- Capitals in a row and at the end are marked one by one. -/
example : snakeCase "sqrtK24HAvg".toList = "sqrt_k24_h_avg".toList := by decide +kernel

end MarketRegistry
