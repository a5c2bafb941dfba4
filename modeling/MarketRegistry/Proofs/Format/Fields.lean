import MarketRegistry.Proofs.Format.Plain
import MarketRegistry.Proofs.Json.Distinct

/-!
# Keys and fields

A key in camel case is the name of at most one field, and no two keys are names of the same one.
So the members of an object with distinct keys are distinct under the names of fields, and each
field is decoded from the member that fills it, or it is absent. The fields of a record are
decoded one after another, and fail as the first of them does.

## Main definitions

* `fieldName?` — the name of the field that a key stands for.
* `snakeForm`, `Json.Fills` — members under the names of fields.
* `Field`, `Fields.toList`, `Field.decode` — the fields that are read, one by one.
* `Fields.Component` — the values of these fields in the tuple of a record.

## Main results

* `fieldName?_inj` — two keys that stand for one field are equal.
* `fieldMembers_eq_ok_iff_fieldName?` — when the keys of an object all stand for fields.
* `Field.decode_eq_ok_iff`, `Field.decode_eq_error_iff` — one field.
* `Fields.decode_eq_error_iff` — the first field that fails decides.
* `Fields.Component.decode_eq` — a component is what its field is decoded to.
-/

namespace MarketRegistry

variable {k k' : Text} {n cs : List Char} {v : Json} {ms : List (Text × Json)}
  {names : List String} {path : Path}

/-! ### Keys -/

/-- The **name of the field** that a key stands for. Only keys in camel case stand for one. -/
def fieldName? (k : Text) : Option (List Char) :=
  (camelKey? k).map snakeCase

theorem camelKey?_eq_some_iff : camelKey? k = some cs ↔ k = Text.ofChars cs ∧ isCamelCase cs := by
  rw [camelKey?, Option.filter_eq_some_iff, Text.toChars?_eq_some_iff]

/-- **Two keys** that stand for one field are equal. -/
theorem fieldName?_inj (h : fieldName? k = some n) (h' : fieldName? k' = some n) : k = k' := by
  obtain ⟨cs, hcs, rfl⟩ := Option.map_eq_some_iff.mp h
  obtain ⟨cs', hcs', hsnake⟩ := Option.map_eq_some_iff.mp h'
  obtain ⟨rfl, hcamel⟩ := camelKey?_eq_some_iff.mp hcs
  obtain ⟨rfl, hcamel'⟩ := camelKey?_eq_some_iff.mp hcs'
  rw [snakeCase_inj hcamel' hcamel hsnake]

theorem fieldName?_eq_none_iff : fieldName? k = none ↔ camelKey? k = none :=
  Option.map_eq_none_iff

/-! ### Members -/

/-- The members of an object under the snake case form of their keys. -/
def snakeForm (ms : List (Text × Json)) : List (List Char × Json) :=
  ms.filterMap fun m => (camelKey? m.1).map fun cs => (snakeCase cs, m.2)

/-- Members that **fill a field** with a value. -/
def Json.Fills (ms : List (Text × Json)) (n : List Char) (v : Json) : Prop :=
  ∃ k, (k, v) ∈ ms ∧ fieldName? k = some n

theorem mem_snakeForm_iff : (n, v) ∈ snakeForm ms ↔ Json.Fills ms n v := by
  simp only [snakeForm, List.mem_filterMap, Option.map_eq_some_iff, Prod.mk.injEq, Prod.exists,
    Json.Fills, fieldName?]
  constructor
  · rintro ⟨k, v', hmem, cs, hcs, hn, rfl⟩
    exact ⟨k, hmem, cs, hcs, hn⟩
  · rintro ⟨k, hmem, cs, hcs, hn⟩
    exact ⟨k, v, hmem, cs, hcs, hn, rfl⟩

theorem map_fst_snakeForm (ms : List (Text × Json)) :
    (snakeForm ms).map Prod.fst = (Json.keys ms).filterMap fieldName? := by
  rw [snakeForm, Json.keys, List.map_filterMap, List.filterMap_map]
  refine List.filterMap_congr fun m _ => ?_
  rw [Option.map_map]
  rfl

/-- **Distinct keys** stand for distinct fields. -/
theorem nodup_snakeForm (h : (Json.keys ms).Nodup) : ((snakeForm ms).map Prod.fst).Nodup := by
  rw [map_fst_snakeForm]
  exact h.filterMap fun k k' n hn hn' => fieldName?_inj hn hn'

theorem lookup_snakeForm_eq_some_iff (h : (Json.keys ms).Nodup) :
    (snakeForm ms).lookup n = some v ↔ Json.Fills ms n v := by
  rw [lookup_eq_some_iff_mem (nodup_snakeForm h), mem_snakeForm_iff]

/-! ### Objects whose keys stand for fields -/

/-- A key of an object that is **not in camel case**. -/
def Json.NotCamelKey (ms : List (Text × Json)) (k : Text) : Prop :=
  k ∈ Json.keys ms ∧ camelKey? k = none

/-- The **unknown name** of a field: one that a key stands for, and that is none of these. -/
def Json.UnknownName (names : List String) (ms : List (Text × Json)) (t : Text) : Prop :=
  ∃ n, t = Text.ofChars n ∧ (∃ k ∈ Json.keys ms, fieldName? k = some n) ∧
    ∀ m ∈ names, m.toList ≠ n

/-- The keys of an object that are not in camel case, in order. -/
def notCamelKeys (ms : List (Text × Json)) : List Text :=
  (Json.keys ms).filter fun k => (camelKey? k).isNone

/-- The unknown names of fields, in the order of their keys. -/
def unknownNames (names : List String) (ms : List (Text × Json)) : List Text :=
  (((snakeForm ms).map Prod.fst).filter fun n => !(names.any fun m => m.toList == n)).map
    Text.ofChars

theorem mem_notCamelKeys_iff : k ∈ notCamelKeys ms ↔ Json.NotCamelKey ms k := by
  rw [notCamelKeys, List.mem_filter, Option.isNone_iff_eq_none, Json.NotCamelKey]

theorem mem_unknownNames_iff : k ∈ unknownNames names ms ↔ Json.UnknownName names ms k := by
  simp only [unknownNames, map_fst_snakeForm, List.mem_map, List.mem_filter, List.mem_filterMap,
    Bool.not_eq_true', List.any_eq_false, beq_iff_eq]
  exact exists_congr fun n => ⟨fun h => ⟨h.2.symm, h.1⟩, fun h => ⟨h.2, h.1.symm⟩⟩

theorem notCamelKeys_eq_nil_iff : notCamelKeys ms = [] ↔ ∀ k, ¬Json.NotCamelKey ms k := by
  simp only [List.eq_nil_iff_forall_not_mem, mem_notCamelKeys_iff]

theorem unknownNames_eq_nil_iff :
    unknownNames names ms = [] ↔ ∀ t, ¬Json.UnknownName names ms t := by
  simp only [List.eq_nil_iff_forall_not_mem, mem_unknownNames_iff]

theorem snakeMembers_eq (ms : List (Text × Json)) : snakeMembers ms =
    if notCamelKeys ms = [] then .ok (snakeForm ms)
    else .error (Text.sorted (notCamelKeys ms)) := by
  unfold snakeMembers
  split
  · rename_i h
    exact (if_pos h).symm
  · rename_i k ks h
    have hkeys : notCamelKeys ms = k :: ks := h
    rw [hkeys, if_neg (List.cons_ne_nil k ks)]

/-- **The members of an object** under the names of fields, or the fault in its keys. -/
theorem fieldMembers_object (names : List String) (path : Path) (ms : List (Text × Json)) :
    fieldMembers names path (.object ms) =
      if notCamelKeys ms = [] then
        if unknownNames names ms = [] then .ok (snakeForm ms)
        else .error ⟨path, .unknownFields (Text.sorted (unknownNames names ms))⟩
      else .error ⟨path, .notCamelCase (Text.sorted (notCamelKeys ms))⟩ := by
  by_cases hcamel : notCamelKeys ms = []
  · rw [fieldMembers, snakeMembers_eq, if_pos hcamel, if_pos hcamel]
    simp only
    split
    · rename_i h
      rw [unknownNames, h, List.map_nil, if_pos rfl]
    · rename_i n ns h
      rw [unknownNames, h, List.map_cons, if_neg (List.cons_ne_nil _ _)]
  · rw [fieldMembers, snakeMembers_eq, if_neg hcamel, if_neg hcamel]

/-- All keys stand for fields when none of them is out of camel case or unknown. -/
theorem forall_fieldName?_iff : (∀ k ∈ Json.keys ms, ∃ n ∈ names, fieldName? k = some n.toList) ↔
    notCamelKeys ms = [] ∧ unknownNames names ms = [] := by
  rw [notCamelKeys_eq_nil_iff, unknownNames_eq_nil_iff]
  constructor
  · intro h
    refine ⟨?_, ?_⟩
    · rintro k ⟨hk, hnone⟩
      obtain ⟨n, -, hn⟩ := h k hk
      rw [fieldName?_eq_none_iff.mpr hnone] at hn
      cases hn
    · rintro t ⟨n, -, ⟨k, hk, hname⟩, hunknown⟩
      obtain ⟨m, hm, hm'⟩ := h k hk
      exact hunknown m hm (Option.some.inj (hm'.symm.trans hname))
  · rintro ⟨hcamel, hunknown⟩ k hk
    cases hname : fieldName? k with
    | none => exact absurd ⟨hk, fieldName?_eq_none_iff.mp hname⟩ (hcamel k)
    | some n =>
        by_contra hnot
        refine hunknown _ ⟨n, rfl, ⟨k, hk, hname⟩, fun m hm heq => hnot ⟨m, hm, ?_⟩⟩
        rw [heq]

/-- **Members under the names of fields** are those of an object all of whose keys stand for
fields. -/
theorem fieldMembers_eq_ok_iff_fieldName? {o : Json} {members : List (List Char × Json)} :
    fieldMembers names path o = .ok members ↔ ∃ ms, o = .object ms ∧
      (∀ k ∈ Json.keys ms, ∃ n ∈ names, fieldName? k = some n.toList) ∧
      members = snakeForm ms := by
  simp only [forall_fieldName?_iff]
  cases o with
  | object ms =>
      rw [fieldMembers_object]
      simp only [Json.object.injEq, exists_eq_left']
      split
      · split
        · simp [*, eq_comm]
        · simp [*]
      · simp [*]
  | _ => exact iff_of_false nofun fun ⟨_, h, _⟩ => nomatch h

/-! ### Fields one by one -/

/-- A **field that is read**: its name, the format of its value, and the value that it has when
it is absent, if it may be. -/
structure Field where
  name : String
  {Value : Type}
  format : Format Value
  default : Option Value

/-- The fields of a record that are read, in the order of their declaration. -/
def Fields.toList : {α : Type} → Fields α → List Field
  | _, .nil => []
  | _, .read name format default rest => ⟨name, format, default⟩ :: rest.toList
  | _, .given _ _ rest => rest.toList

theorem Fields.names_eq_map {α : Type} (fields : Fields α) :
    fields.names = fields.toList.map Field.name := by
  match fields with
  | .nil => rfl
  | .read name format default rest => rw [names, rest.names_eq_map, toList, List.map_cons]
  | .given name value rest => exact rest.names_eq_map

namespace Field

/-- The value of one field: that of its member, or the default. -/
def decode (f : Field) (path : Path) (members : List (List Char × Json)) :
    Except DecodeError f.Value :=
  match members.lookup f.name.toList with
  | some j => f.format.decode (path.field f.name) j
  | none =>
    match f.default with
    | some a => .ok a
    | none => .error ⟨path, .missingField f.name⟩

variable {f : Field}

/-- **One field is decoded** from the member that fills it, or is absent and has a default. -/
theorem decode_eq_ok_iff (h : (Json.keys ms).Nodup) {a : f.Value} :
    f.decode path (snakeForm ms) = .ok a ↔
      (∃ v, Json.Fills ms f.name.toList v ∧ f.format.decode (path.field f.name) v = .ok a) ∨
      ((∀ v, ¬Json.Fills ms f.name.toList v) ∧ f.default = some a) := by
  simp only [← lookup_snakeForm_eq_some_iff h, decode]
  cases (snakeForm ms).lookup f.name.toList with
  | some v => simp
  | none => cases f.default <;> simp

/-- **One field fails** when the member that fills it does, or when it is absent without a
default. -/
theorem decode_eq_error_iff (h : (Json.keys ms).Nodup) {e : DecodeError} :
    f.decode path (snakeForm ms) = .error e ↔
      (∃ v, Json.Fills ms f.name.toList v ∧ f.format.decode (path.field f.name) v = .error e) ∨
      ((∀ v, ¬Json.Fills ms f.name.toList v) ∧ f.default = none ∧
        e = ⟨path, .missingField f.name⟩) := by
  simp only [← lookup_snakeForm_eq_some_iff h, decode]
  cases (snakeForm ms).lookup f.name.toList with
  | some v => simp
  | none => cases f.default <;> simp [eq_comm]

end Field

/-- A field that is read comes before the others. -/
theorem Fields.decode_read {α β : Type} (name : String) (format : Format α) (default : Option α)
    (rest : Fields β) (path : Path) (members : List (List Char × Json)) :
    (Fields.read name format default rest).decode path members =
      (Field.decode ⟨name, format, default⟩ path members >>= fun a =>
        rest.decode path members >>= fun b => .ok (a, b)) := by
  simp only [Fields.decode, Field.decode]
  cases members.lookup name.toList with
  | some v => rfl
  | none => cases default <;> rfl

/-- **The fields of a record fail** as the first of them does that is not decoded. -/
theorem Fields.decode_eq_error_iff {α : Type} (fields : Fields α)
    {members : List (List Char × Json)} {e : DecodeError} :
    fields.decode path members = .error e ↔ ∃ before f after,
      fields.toList = before ++ f :: after ∧ (∀ g ∈ before, ∃ a, g.decode path members = .ok a) ∧
      f.decode path members = .error e := by
  match fields with
  | .nil =>
      refine iff_of_false nofun ?_
      rintro ⟨before, f, after, h, -⟩
      exact absurd h.symm (List.append_ne_nil_of_right_ne_nil before (List.cons_ne_nil f after))
  | .read name format default rest =>
      simp only [Fields.decode_read, bind_eq_error_iff, rest.decode_eq_error_iff, Fields.toList,
        List.cons_eq_append_iff]
      constructor
      · rintro (hfirst | ⟨a, ha, ⟨before, f, after, hrest, hbefore, hf⟩ | ⟨b, -, hreturn⟩⟩)
        · exact ⟨[], _, _, .inl ⟨rfl, rfl⟩, nofun, hfirst⟩
        · exact ⟨_ :: before, f, after, .inr ⟨before, rfl, hrest⟩,
            List.forall_mem_cons.mpr ⟨⟨a, ha⟩, hbefore⟩, hf⟩
        · cases hreturn
      · rintro ⟨before, f, after, ⟨rfl, hcons⟩ | ⟨before', rfl, hrest⟩, hbefore, hf⟩
        · cases hcons
          exact .inl hf
        · obtain ⟨⟨a, ha⟩, hbefore'⟩ := List.forall_mem_cons.mp hbefore
          exact .inr ⟨a, ha, .inl ⟨before', f, after, hrest, hbefore', hf⟩⟩
  | .given name value rest =>
      have hgiven : (Fields.given name value rest).decode path members =
        (rest.decode path members >>= fun b => .ok (value, b)) := rfl
      rw [hgiven, bind_eq_error_iff, rest.decode_eq_error_iff]
      refine or_iff_left ?_
      rintro ⟨b, -, hreturn⟩
      cases hreturn

/-! ### Components -/

/-- The **components** of a tuple of fields: each field that is read, and its value. -/
inductive Fields.Component : {β : Type} → Fields β → β → (f : Field) → f.Value → Prop where
  | first {α β : Type} {name : String} {format : Format α} {default : Option α} {rest : Fields β}
      {a : α} {b : β} : Component (.read name format default rest) (a, b) ⟨name, format, default⟩ a
  | read {α β : Type} {name : String} {format : Format α} {default : Option α} {rest : Fields β}
      {a : α} {b : β} {f : Field} {c : f.Value} (h : Component rest b f c) :
      Component (.read name format default rest) (a, b) f c
  | given {α β : Type} {name : String} {value : α} {rest : Fields β} {a : α} {b : β} {f : Field}
      {c : f.Value} (h : Component rest b f c) : Component (.given name value rest) (a, b) f c

/-- Every field that is read has a component. -/
theorem Fields.exists_component {β : Type} (fields : Fields β) :
    ∀ b, ∀ f ∈ fields.toList, ∃ c, fields.Component b f c := by
  match fields with
  | .nil => exact fun _ => List.forall_mem_nil _
  | .read name format default rest =>
      rintro ⟨a, b⟩
      refine List.forall_mem_cons.mpr ⟨⟨a, .first⟩, fun f hf => ?_⟩
      obtain ⟨c, hc⟩ := rest.exists_component b f hf
      exact ⟨c, .read hc⟩
  | .given name value rest =>
      rintro ⟨a, b⟩ f hf
      obtain ⟨c, hc⟩ := rest.exists_component b f hf
      exact ⟨c, .given hc⟩

/-- **A component** is what its field is decoded to. -/
theorem Fields.Component.decode_eq {β : Type} {fields : Fields β} {b : β} {f : Field} {c : f.Value}
    (h : fields.Component b f c) {members : List (List Char × Json)}
    (hdecode : fields.decode path members = .ok b) : f.decode path members = .ok c := by
  induction h with
  | first =>
      rw [decode_read] at hdecode
      obtain ⟨a, ha, hdecode⟩ := bind_eq_ok_iff.mp hdecode
      obtain ⟨b, -, hpair⟩ := bind_eq_ok_iff.mp hdecode
      cases hpair
      exact ha
  | read _ ih =>
      rw [decode_read] at hdecode
      obtain ⟨a, -, hdecode⟩ := bind_eq_ok_iff.mp hdecode
      obtain ⟨b, hb, hpair⟩ := bind_eq_ok_iff.mp hdecode
      cases hpair
      exact ih hb
  | given _ ih =>
      obtain ⟨b, hb, hpair⟩ := bind_eq_ok_iff.mp hdecode
      cases hpair
      exact ih hb

end MarketRegistry
