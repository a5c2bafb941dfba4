import MarketRegistry.Format.Basic
import MarketRegistry.Format.Fault

/-!
# Decoding

A json value is decoded against a format, strictly: nothing is converted, nothing is ignored.
The first fault ends the decoding. For a record the order is: the value is an object, its keys
are names in camel case, each names a field, and then the fields one by one in the order of
their declaration.

## Main definitions

* `decodeInt`, `decodeBool`, `decodeBytes`, `decodeAddress`, `decodeVariant` — the plain values.
* `Format.decode`, `Fields.decode` — any format.
-/

namespace MarketRegistry

/-- An integer. Truth values and decimal numbers are none. -/
def decodeInt (path : Path) : Json → Except DecodeError Int
  | .number (.int i) => .ok i
  | j => .error ⟨path, .notInteger j⟩

/-- A truth value. -/
def decodeBool (path : Path) : Json → Except DecodeError Bool
  | .bool b => .ok b
  | j => .error ⟨path, .notBool j⟩

/-- The elements of an array from an index on, all of them integers. -/
def decodeInts (path : Path) : Nat → List Json → Except DecodeError (List Int)
  | _, [] => .ok []
  | i, j :: js => do
    let n ← decodeInt (path.index i) j
    let ns ← decodeInts path (i + 1) js
    return n :: ns

/-- The byte of an integer between 0 and 255. -/
def byte? (i : Int) : Option UInt8 :=
  if 0 ≤ i ∧ i ≤ 255 then some (UInt8.ofNat i.toNat) else none

/-- An array of bytes: every element is an integer first, and in range second. -/
def decodeBytes (path : Path) : Json → Except DecodeError (List UInt8)
  | .array items => do
    let ns ← decodeInts path 0 items
    match ns.mapM byte? with
    | some bytes => .ok bytes
    | none => .error ⟨path, .byteOutOfRange⟩
  | j => .error ⟨path, .notBytes j⟩

/-- An array of `n` bytes. -/
def decodeBuffer (n : Nat) (path : Path) (j : Json) : Except DecodeError (Buffer n) := do
  let bytes ← decodeBytes path j
  if h : bytes.length = n then .ok ⟨bytes, h⟩
  else .error ⟨path, .wrongLength n bytes.length⟩

/-- An array of 32 bytes. -/
def decodeAddress (path : Path) (j : Json) : Except DecodeError Address := do
  let bytes ← decodeBytes path j
  match Address.ofBytes? bytes with
  | some a => .ok a
  | none => .error ⟨path, .wrongAddressLength bytes.length⟩

/-- A text that may be a label: an ASCII letter, then ASCII letters and digits. -/
def isVariantName : List Char → Bool
  | [] => false
  | c :: cs => (isCapital c || isSmall c) && cs.all isLetterOrDigit

/-- An ASCII letter as a capital. -/
def capital (c : Char) : Char :=
  if isSmall c then Char.ofNat (c.toNat - 32) else c

/-- The first letter as a capital. -/
def capitalized : List Char → List Char
  | [] => []
  | c :: cs => capital c :: cs

/-- A variant by its label, the first letter in either case. -/
def decodeVariant {α : Type} (e : Enumeration α) (path : Path) : Json → Except DecodeError α
  | .string t =>
    match t.toChars?.filter isVariantName with
    | none => .error ⟨path, .notVariant e.name (.string t)⟩
    | some name =>
      match e.find? (capitalized name) with
      | some a => .ok a
      | none => .error ⟨path, .unknownVariant e.name t⟩
  | j => .error ⟨path, .notVariant e.name j⟩

/-! ### Records -/

/-- The members of an object under the snake case form of their keys, or the keys that are not
names in camel case. -/
def snakeMembers (ms : List (Text × Json)) : Except (List Text) (List (List Char × Json)) :=
  match (Json.keys ms).filter fun k => (camelKey? k).isNone with
  | [] => .ok (ms.filterMap fun m => (camelKey? m.1).map fun cs => (snakeCase cs, m.2))
  | k :: ks => .error (Text.sorted (k :: ks))

/-- The members of an object under the names of fields, when each key names one of them. -/
def fieldMembers (names : List String) (path : Path) :
    Json → Except DecodeError (List (List Char × Json))
  | .object ms =>
    match snakeMembers ms with
    | .error keys => .error ⟨path, .notCamelCase keys⟩
    | .ok members =>
      match (members.map Prod.fst).filter fun n => !(names.any fun m => m.toList == n) with
      | [] => .ok members
      | n :: ns => .error ⟨path, .unknownFields (Text.sorted ((n :: ns).map Text.ofChars))⟩
  | j => .error ⟨path, .notObject j⟩

mutual

/-- A value of a format. -/
def Format.decode : {α : Type} → Format α → Path → Json → Except DecodeError α
  | _, .int, path, j => decodeInt path j
  | _, .bool, path, j => decodeBool path j
  | _, .bytes, path, j => decodeBytes path j
  | _, .buffer n, path, j => decodeBuffer n path j
  | _, .address, path, j => decodeAddress path j
  | _, .optional _, _, .null => .ok none
  | _, .optional format, path, j => do
    let a ← format.decode path j
    return some a
  | _, .variant e, path, j => decodeVariant e path j
  | _, .record fields shape, path, j => do
    let members ← fieldMembers fields.names path j
    let values ← fields.decode path members
    return shape.pack values
  | _, .unsupported name, path, _ => .error ⟨path, .unsupported name⟩

/-- The fields of a record, in order. -/
def Fields.decode : {α : Type} → Fields α → Path → List (List Char × Json) → Except DecodeError α
  | _, .nil, _, _ => .ok ()
  | _, .read name format default rest, path, members => do
    let value ←
      match members.lookup name.toList with
      | some j => format.decode (path.field name) j
      | none =>
        match default with
        | some a => .ok a
        | none => .error ⟨path, .missingField name⟩
    let values ← rest.decode path members
    return (value, values)
  | _, .given _ value rest, path, members => do
    let values ← rest.decode path members
    return (value, values)

end

end MarketRegistry
