import MarketRegistry.Decimal.Display
import MarketRegistry.Json.Basic
import MarketRegistry.Text.Quoted

/-!
# Json values in messages

How a message shows a json value that is not what was expected, and what it calls the kind of
a value.

## Main definitions

* `Json.display` — a value in full.
* `Json.kindName` — the name of a value's kind.
-/

namespace MarketRegistry

/-- A number in a message. -/
def Number.display : Number → List Char
  | int i => Numeral.signedDecimal i
  | real d => d.display

namespace Json

mutual

/-- A **value in full**: containers show their parts in order. -/
def display : Json → List Char
  | .null => "None".toList
  | .bool true => "True".toList
  | .bool false => "False".toList
  | .number n => n.display
  | .string t => t.quoted
  | .array items => '[' :: [',', ' '].intercalate (displayItems items) ++ [']']
  | .object ms => '\x7b' :: [',', ' '].intercalate (displayMembers ms) ++ ['\x7d']

/-- The elements of an array, each in full. -/
def displayItems : List Json → List (List Char)
  | [] => []
  | j :: js => j.display :: displayItems js

/-- The members of an object, each key quoted and each value in full. -/
def displayMembers : List (Text × Json) → List (List Char)
  | [] => []
  | (k, v) :: ms => (k.quoted ++ ':' :: ' ' :: v.display) :: displayMembers ms

end

/-- The **name of a value's kind**. -/
def kindName : Json → String
  | .null => "NoneType"
  | .bool _ => "bool"
  | .number (.int _) => "int"
  | .number (.real _) => "float"
  | .string _ => "str"
  | .array _ => "list"
  | .object _ => "dict"

end Json

end MarketRegistry
