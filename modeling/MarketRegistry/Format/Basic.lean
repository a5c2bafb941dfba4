import MarketRegistry.Address.Basic
import MarketRegistry.Text.SnakeCase

/-!
# Formats of records

A format describes how values of a type are written in json. Formats are data, so that one
decoder serves all records and what it does can be proved for all of them at once. The type
that a format describes is its index: `Format α` describes the values of `α`.

## Main definitions

* `Enumeration` — a type of named variants.
* `Buffer` — bytes of a fixed number.
* `Shape` — a type that is a tuple of fields under another name.
* `Format`, `Fields` — the formats, and the fields of a record in order.
-/

namespace MarketRegistry

/-- A label of a variant: an ASCII capital, then ASCII letters and digits. -/
def isLabel (s : String) : Bool :=
  match s.toList with
  | [] => false
  | c :: cs => isCapital c && cs.all isLetterOrDigit

/-- An **enumeration**: all variants of a type, each with a label of its own. -/
structure Enumeration (α : Type) where
  name : String
  variants : List α
  label : α → String
  complete : ∀ a, a ∈ variants
  nodup_labels : (variants.map label).Nodup
  isLabel_label : ∀ a, isLabel (label a)

/-- The variant with a label. -/
def Enumeration.find? {α : Type} (e : Enumeration α) (label : List Char) : Option α :=
  e.variants.find? fun a => (e.label a).toList == label

/-- Bytes of a **fixed number**. -/
structure Buffer (n : Nat) where
  bytes : List UInt8
  length_bytes : bytes.length = n
  deriving DecidableEq

/-- A type `α` that is the tuple `β` under another name. -/
structure Shape (α β : Type) where
  pack : β → α
  unpack : α → β
  pack_unpack : ∀ a, pack (unpack a) = a
  unpack_pack : ∀ b, unpack (pack b) = b

mutual

/-- How the values of a type are **written in json**. -/
inductive Format : Type → Type 1 where
  /-- An integer. -/
  | int : Format Int
  /-- A truth value. -/
  | bool : Format Bool
  /-- An array of bytes, of any length. -/
  | bytes : Format (List UInt8)
  /-- An array of a fixed number of bytes. -/
  | buffer (n : Nat) : Format (Buffer n)
  /-- An array of 32 bytes. -/
  | address : Format Address
  /-- A value that may be null. -/
  | optional {α : Type} (format : Format α) : Format (Option α)
  /-- The label of a variant, its first letter in either case. -/
  | variant {α : Type} (enumeration : Enumeration α) : Format α
  /-- An object with one member for each field. -/
  | record {α β : Type} (fields : Fields β) (shape : Shape α β) : Format α
  /-- A type that has no written form. -/
  | unsupported (name : String) : Format Empty

/-- The **fields of a record** in order, as a format of their tuple. -/
inductive Fields : Type → Type 1 where
  /-- No more fields. -/
  | nil : Fields Unit
  /-- A field that is read, with the value it has when absent, if it may be. -/
  | read {α β : Type} (name : String) (format : Format α) (default : Option α)
      (rest : Fields β) : Fields (α × β)
  /-- A field whose value is given, so that it must not be written. -/
  | given {α β : Type} (name : String) (value : α) (rest : Fields β) : Fields (α × β)

end

/-- The names of the fields that are read. -/
def Fields.names : {α : Type} → Fields α → List String
  | _, .nil => []
  | _, .read name _ _ rest => name :: rest.names
  | _, .given _ _ rest => rest.names

/-- A field that is given if there is a value for it, and read otherwise. -/
def Fields.readUnless {α β : Type} (name : String) (value : Option α) (format : Format α)
    (default : Option α) (rest : Fields β) : Fields (α × β) :=
  match value with
  | some v => .given name v rest
  | none => .read name format default rest

end MarketRegistry
