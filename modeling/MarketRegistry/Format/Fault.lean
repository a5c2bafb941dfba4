import MarketRegistry.Json.Display

/-!
# Faults in a json value

What can be wrong with a json value that should be a record, and where it stands.

## Main definitions

* `Path` — the way to a part of a value.
* `Fault` — what is wrong with it.
* `DecodeError` — a fault at a path, with its message.
-/

namespace MarketRegistry

/-- The **way to a part** of a value: from a named root through fields and indexes. -/
inductive Path where
  | root (name : String)
  | field (parent : Path) (name : String)
  | index (parent : Path) (i : Nat)
  deriving DecidableEq, Repr

/-- The text of a path: fields after a point, indexes in brackets. -/
def Path.text : Path → String
  | root name => name
  | field p name => p.text ++ "." ++ name
  | index p i => p.text ++ "[" ++ String.ofList (Numeral.decimal i) ++ "]"

/-- **What is wrong** with a value. -/
inductive Fault where
  | notInteger (got : Json)
  | notBool (got : Json)
  | notBytes (got : Json)
  | byteOutOfRange
  | wrongLength (expected got : Nat)
  | wrongAddressLength (got : Nat)
  | notVariant (enumeration : String) (got : Json)
  | unknownVariant (enumeration : String) (got : Text)
  | notObject (got : Json)
  | notCamelCase (keys : List Text)
  | unknownFields (names : List Text)
  | missingField (name : String)
  | notWrapper
  | unknownWrapperFields (keys : List Text)
  | unsupported (type : String)

namespace Fault

/-- The text of a value in a message. -/
def shown (j : Json) : String :=
  String.ofList j.display

/-- The text of a list of names in a message. -/
def shownList (ts : List Text) : String :=
  String.ofList (Text.quotedList ts)

/-- The text of a number in a message. -/
def count (n : Nat) : String :=
  String.ofList (Numeral.decimal n)

/-- The wording of a fault. -/
def message : Fault → String
  | notInteger got => "expected an integer, got " ++ shown got
  | notBool got => "expected a bool, got " ++ shown got
  | notBytes got => "expected a byte array, got " ++ shown got
  | byteOutOfRange => "byte out of range"
  | wrongLength expected got => "expected " ++ count expected ++ " bytes, got " ++ count got
  | wrongAddressLength got => "expected 32 bytes for an address, got " ++ count got
  | notVariant enumeration got => "expected a " ++ enumeration ++ " variant, got " ++ shown got
  | unknownVariant enumeration got =>
    "unknown " ++ enumeration ++ " variant " ++ shown (.string got)
  | notObject got => "expected an object, got " ++ got.kindName
  | notCamelCase keys => "field names must be camelCase, got " ++ shownList keys
  | unknownFields names => "unknown fields " ++ shownList names
  | missingField name => "missing field " ++ name
  | notWrapper => "expected a wrapper with an 'account' field"
  | unknownWrapperFields keys => "unknown wrapper fields " ++ shownList keys
  | unsupported type => "unsupported field type " ++ type

end Fault

/-- A **fault at a path**. -/
structure DecodeError where
  path : Path
  fault : Fault

/-- The wording of a fault with its place in front. -/
def DecodeError.message (e : DecodeError) : String :=
  e.path.text ++ ": " ++ e.fault.message

end MarketRegistry
