import MarketRegistry.Failure
import MarketRegistry.Format.Decode
import MarketRegistry.Text.Blank

/-!
# Market names

A market carries its name in a buffer of 32 bytes: the UTF-8 form of the name, filled up with
spaces. Reading drops all white space at the end, not only the filling.

## Main definitions

* `Name.encode` — the buffer of a name.
* `Name.decode`, `Name.ofInts` — the name in bytes, and in integers that should be bytes.
-/

namespace MarketRegistry.Name

/-- The number of bytes of a name. -/
def capacity : Nat := 32

/-- The UTF-8 form of a text. -/
def utf8 (cs : List Char) : List UInt8 :=
  cs.flatMap String.utf8EncodeChar

/-- The text of a UTF-8 form. -/
def ofUtf8? (bytes : List UInt8) : Option (List Char) :=
  bytes.toByteArray.utf8Decode?.map Array.toList

/-- The **buffer of a name**, if it is not too long. -/
def encode (name : List Char) : Except Failure (Buffer capacity) :=
  let bytes := utf8 name
  if h : bytes.length ≤ capacity then
    .ok ⟨bytes ++ List.replicate (capacity - bytes.length) 32, by
      rw [List.length_append, List.length_replicate, Nat.add_sub_cancel' h]⟩
  else .error .nameTooLong

/-- The **name in bytes**, without white space at its end. -/
def decode (bytes : List UInt8) : Except ConfigError (List Char) :=
  match ofUtf8? bytes with
  | some cs => .ok (trimEnd cs)
  | none => .error .nameNotUtf8

/-- The name in integers: one that is no byte makes it ill-formed. -/
def ofInts (ns : List Int) : Except ConfigError (List Char) :=
  match ns.mapM byte? with
  | some bytes => decode bytes
  | none => .error .nameNotUtf8

end MarketRegistry.Name
