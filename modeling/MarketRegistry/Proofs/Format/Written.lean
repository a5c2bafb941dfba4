import MarketRegistry.Proofs.Format.Plain
import MarketRegistry.Proofs.Json.Distinct

/-!
# Written values

The written form of a value in a format, and the variations of it that mean the same: members
in another order, the first letter of a variant in the other case, and a member left out whose
value is the default. Fields whose value is given are not written; decoding puts the given value
in their place.

## Main definitions

* `Format.encode` — the written form of a value.
* `Format.withGiven` — a value with the given ones in their places.
* `Format.Alike` — two written forms, one a variation of the other.
* `Format.WellFormed` — formats whose fields have names of their own in snake case.
-/

namespace MarketRegistry

/-- The key of a field. -/
def fieldKey (name : String) : Text :=
  Text.ofChars (camelCase name.toList)

/-- A label with a small first letter. -/
def uncapitalized : List Char → List Char
  | [] => []
  | c :: cs => small c :: cs

mutual

/-- The **written form** of a value. -/
def Format.encode : {α : Type} → Format α → α → Json
  | _, .int, i => .number (.int i)
  | _, .bool, b => .bool b
  | _, .bytes, bytes => .array (Json.ofBytes bytes)
  | _, .buffer _, b => .array (Json.ofBytes b.bytes)
  | _, .address, a => .array (Json.ofBytes a.bytes)
  | _, .optional _, none => .null
  | _, .optional format, some a => format.encode a
  | _, .variant e, a => .string (Text.ofChars (uncapitalized (e.label a).toList))
  | _, .record fields shape, a => .object (fields.encode (shape.unpack a))
  | _, .unsupported _, a => nomatch a

/-- The members of a record that are written. -/
def Fields.encode : {α : Type} → Fields α → α → List (Text × Json)
  | _, .nil, _ => []
  | _, .read name format _ rest, (a, b) => (fieldKey name, format.encode a) :: rest.encode b
  | _, .given _ _ rest, (_, b) => rest.encode b

end

mutual

/-- A value with the **given values** in their places. -/
def Format.withGiven : {α : Type} → Format α → α → α
  | _, .optional _, none => none
  | _, .optional format, some a => some (format.withGiven a)
  | _, .record fields shape, a => shape.pack (fields.withGiven (shape.unpack a))
  | _, .int, a | _, .bool, a | _, .bytes, a | _, .buffer _, a | _, .address, a
  | _, .variant _, a | _, .unsupported _, a => a

/-- A tuple of fields with the given values in their places. -/
def Fields.withGiven : {α : Type} → Fields α → α → α
  | _, .nil, u => u
  | _, .read _ format _ rest, (a, b) => (format.withGiven a, rest.withGiven b)
  | _, .given _ value rest, (_, b) => (value, rest.withGiven b)

end

mutual

/-- Two written forms of a format, the second a **variation** of the first: equal up to the
order of members, the case of the first letter of variants, and members left out. -/
def Format.Alike : {α : Type} → Format α → Json → Json → Prop
  | _, .optional format, j, o => (j = .null ∧ o = .null) ∨ format.Alike j o
  | _, .variant _, j, o => ∃ c d cs, j = .string (Text.ofChars (c :: cs)) ∧
      o = .string (Text.ofChars (d :: cs)) ∧ capital c = capital d
  | _, .record fields _, j, o => ∃ ms os os', j = .object ms ∧ o = .object os ∧ os'.Perm os ∧
      fields.Alike ms os'
  | _, .int, j, o | _, .bool, j, o | _, .bytes, j, o | _, .buffer _, j, o | _, .address, j, o
  | _, .unsupported _, j, o => o = j

/-- The members of two records, in the order of their fields: a member may be left out when its
value is the default. -/
def Fields.Alike : {α : Type} → Fields α → List (Text × Json) → List (Text × Json) → Prop
  | _, .nil, ms, os => ms = [] ∧ os = []
  | _, .read _ format default rest, ms, os => ∃ k v ms', ms = (k, v) :: ms' ∧
      ((∃ o os', os = (k, o) :: os' ∧ format.Alike v o ∧ rest.Alike ms' os') ∨
        (default.map format.encode = some v ∧ rest.Alike ms' os))
  | _, .given _ _ rest, ms, os => rest.Alike ms os

end

/-- Whether the values of a format may be null. -/
def Format.isOptional : {α : Type} → Format α → Bool
  | _, .optional _ => true
  | _, _ => false

mutual

/-- A format is **well-formed** when the fields of its records have names of their own in snake
case, when nothing is optional twice, and when defaults hold no other value than the given one. -/
def Format.WellFormed : {α : Type} → Format α → Prop
  | _, .optional format => format.WellFormed ∧ format.isOptional = false
  | _, .record fields _ => fields.WellFormed ∧ fields.names.Nodup
  | _, .int | _, .bool | _, .bytes | _, .buffer _ | _, .address | _, .variant _
  | _, .unsupported _ => True

/-- Fields are well-formed when each of them is. -/
def Fields.WellFormed : {α : Type} → Fields α → Prop
  | _, .nil => True
  | _, .read name format default rest => isSnakeCase name.toList ∧ format.WellFormed ∧
      default.map format.withGiven = default ∧ rest.WellFormed
  | _, .given _ _ rest => rest.WellFormed

end

/-! ### Fields that are given or read -/

section ReadUnless

variable {α β : Type} {name : String} {value : Option α} {format : Format α}
  {default : Option α} {rest : Fields β}

/-- Giving a field leaves the others well-formed. -/
theorem Fields.WellFormed.readUnless (h : (Fields.read name format default rest).WellFormed) :
    (Fields.readUnless name value format default rest).WellFormed := by
  obtain ⟨-, -, -, hrest⟩ := id h
  cases value with
  | none => exact h
  | some v => exact hrest

theorem Fields.names_readUnless_sublist :
    (Fields.readUnless name value format default rest).names.Sublist (name :: rest.names) := by
  cases value with
  | none => exact .refl _
  | some v => exact List.sublist_cons_self _ _

theorem Fields.withGiven_readUnless (a : α) (b : β) :
    (Fields.readUnless name value format default rest).withGiven (a, b) =
      (value.getD (format.withGiven a), rest.withGiven b) := by
  cases value <;> rfl

end ReadUnless

end MarketRegistry
