import MarketRegistry.Proofs.Format.Exact
import MarketRegistry.Proofs.Text.Sorted

/-!
# The order of members

Decoding does not depend on the order in which the members of an object are written: neither
what is decoded, nor which of several faults is reported, nor the lists in its message. This
holds for the object of a record and for the objects at its fields that are records themselves.
It does not hold for an object where there should be none, because a message shows it as it is.

## Main definitions

* `Format.Reordered` — values that differ in the order of members.

## Main results

* `Format.decode_record_congr` — what decoding a record depends on.
* `Format.Reordered.decode_eq` — the order of members is not among it.
-/

namespace MarketRegistry

variable {α β : Type} {fields : Fields β} {shape : Shape α β} {path : Path} {names : List String}
  {ms os before after : List (Text × Json)} {k : Text} {v w j j' : Json} {n : List Char}

/-! ### Keys -/

theorem eq_nil_iff_of_perm {γ : Type} {l l' : List γ} (h : l.Perm l') : l = [] ↔ l' = [] := by
  rw [← List.perm_nil, h.congr_left, List.perm_nil]

theorem perm_notCamelKeys (h : (Json.keys ms).Perm (Json.keys os)) :
    (notCamelKeys ms).Perm (notCamelKeys os) :=
  h.filter _

theorem perm_unknownNames (h : (Json.keys ms).Perm (Json.keys os)) :
    (unknownNames names ms).Perm (unknownNames names os) := by
  rw [unknownNames, unknownNames, map_fst_snakeForm, map_fst_snakeForm]
  exact ((h.filterMap _).filter _).map _

/-! ### Records -/

/-- The fields of a record are decoded alike if each of them is. -/
theorem Fields.decode_congr {α : Type} (fields : Fields α)
    {members members' : List (List Char × Json)}
    (h : ∀ f ∈ fields.toList, f.decode path members = f.decode path members') :
    fields.decode path members = fields.decode path members' := by
  match fields with
  | .nil => rfl
  | .read name format default rest =>
      obtain ⟨hfirst, hrest⟩ := List.forall_mem_cons.mp h
      rw [decode_read, decode_read, hfirst, rest.decode_congr hrest]
  | .given name value rest =>
      have hrest := rest.decode_congr h
      rw [decode, decode, hrest]

/-- **A record is decoded alike** from objects that have the same keys, in any order, and in
which each field is decoded alike. -/
theorem Format.decode_record_congr (hkeys : (Json.keys ms).Perm (Json.keys os))
    (hfields : ∀ f ∈ fields.toList, f.decode path (snakeForm ms) = f.decode path (snakeForm os)) :
    (Format.record fields shape).decode path (.object ms) =
      (Format.record fields shape).decode path (.object os) := by
  have hcamel := perm_notCamelKeys hkeys
  have hunknown : (unknownNames fields.names ms).Perm (unknownNames fields.names os) :=
    perm_unknownNames hkeys
  simp only [decode, fieldMembers_object, Text.sorted_eq_of_perm hcamel,
    Text.sorted_eq_of_perm hunknown, eq_nil_iff_of_perm hcamel, eq_nil_iff_of_perm hunknown]
  split
  · split
    · change (fields.decode path (snakeForm ms) >>= _) = (fields.decode path (snakeForm os) >>= _)
      rw [fields.decode_congr hfields]
    · rfl
  · rfl

/-! ### One field -/

/-- A field is decoded alike from members in any order. -/
theorem Field.decode_perm (f : Field) (hkeys : (Json.keys ms).Nodup) (h : ms.Perm os) :
    f.decode path (snakeForm ms) = f.decode path (snakeForm os) := by
  have hsnake : (snakeForm ms).Perm (snakeForm os) := h.filterMap _
  rw [decode, decode, lookup_perm (nodup_snakeForm hkeys) hsnake]

theorem lookup_snakeForm_append (before after : List (Text × Json)) (k : Text) (v : Json)
    (n : List Char) : (snakeForm (before ++ (k, v) :: after)).lookup n =
      ((snakeForm before).lookup n).or
        (if fieldName? k = some n then some v else (snakeForm after).lookup n) := by
  rw [snakeForm, List.filterMap_append, List.lookup_append]
  refine congrArg (((snakeForm before).lookup n).or) ?_
  rw [List.filterMap_cons, fieldName?]
  cases camelKey? k with
  | none => rfl
  | some cs =>
      simp only [Option.map_some, Option.some.injEq, lookup_cons_eq_ite, eq_comm]
      rfl

/-- A field is decoded alike when the value of one member is another that is decoded alike, if
the key stands for the field at all. -/
theorem Field.decode_member (f : Field) (h : fieldName? k = some f.name.toList →
      f.format.decode (path.field f.name) v = f.format.decode (path.field f.name) w) :
    f.decode path (snakeForm (before ++ (k, v) :: after)) =
      f.decode path (snakeForm (before ++ (k, w) :: after)) := by
  rw [decode, decode, lookup_snakeForm_append, lookup_snakeForm_append]
  cases (snakeForm before).lookup f.name.toList with
  | some j => rfl
  | none =>
      by_cases hk : fieldName? k = some f.name.toList
      · rw [if_pos hk, if_pos hk]
        exact h hk
      · rw [if_neg hk, if_neg hk]

/-! ### Values of any format -/

/-- Two values that differ only in the **order of members**, in the object of a record and in
those that stand at its fields for records. A key that stands for no field that is read is
unknown whatever its value, so any other may take its place. -/
inductive Format.Reordered : {α : Type} → Format α → Json → Json → Prop where
  | refl {α : Type} {format : Format α} {j : Json} : Reordered format j j
  | trans {α : Type} {format : Format α} {j j' j'' : Json} (h : Reordered format j j')
      (h' : Reordered format j' j'') : Reordered format j j''
  /-- The members of the object of a record are put in another order. -/
  | perm {α β : Type} {fields : Fields β} {shape : Shape α β} {ms os : List (Text × Json)}
      (hkeys : (Json.keys ms).Nodup) (h : ms.Perm os) :
      Reordered (.record fields shape) (.object ms) (.object os)
  /-- The value of a member is put in another order, for the field that its key stands for. -/
  | member {α β : Type} {fields : Fields β} {shape : Shape α β}
      {before after : List (Text × Json)} {k : Text} {v w : Json}
      (h : ∀ f ∈ fields.toList, fieldName? k = some f.name.toList → Reordered f.format v w) :
      Reordered (.record fields shape) (.object (before ++ (k, v) :: after))
        (.object (before ++ (k, w) :: after))
  | optional {α : Type} {format : Format α} {j j' : Json} (h : Reordered format j j') :
      Reordered (.optional format) j j'

namespace Format.Reordered

variable {format : Format α}

/-- Null has no members to put in order. -/
theorem eq_null_iff (h : format.Reordered j j') : j = .null ↔ j' = .null := by
  induction h with
  | refl => rfl
  | trans _ _ ih ih' => exact ih.trans ih'
  | perm | member => exact iff_of_false nofun nofun
  | optional _ ih => exact ih

/-- **The order of members never matters**: the same value is decoded, or the same fault is
reported at the same place. -/
theorem decode_eq (h : format.Reordered j j') (path : Path) :
    format.decode path j = format.decode path j' := by
  induction h generalizing path with
  | refl => rfl
  | trans _ _ ih ih' => exact (ih path).trans (ih' path)
  | perm hkeys h =>
      exact decode_record_congr (h.map Prod.fst) fun f _ => f.decode_perm hkeys h
  | member _ ih =>
      -- the keys are in their places, so a field can only differ if this member fills it
      refine decode_record_congr ?_ fun f hf => f.decode_member fun hk => ih f hf hk _
      simp only [Json.keys, List.map_append, List.map_cons, List.Perm.refl]
  | @optional _ format j j' h ih =>
      by_cases hj : j = .null
      · rw [hj, h.eq_null_iff.mp hj]
      · rw [format.decode_optional path hj, format.decode_optional path (mt h.eq_null_iff.mpr hj),
          ih path]

end Format.Reordered

end MarketRegistry
