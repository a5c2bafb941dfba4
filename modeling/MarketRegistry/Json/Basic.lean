import MarketRegistry.Decimal.Basic
import MarketRegistry.Text.CodePoint

/-!
# Json values

A json document as a syntax tree: members of an object keep their order, and a key may be
repeated. The value of a document is its tree with repeated keys resolved: a key keeps the
place of its first member and takes the value of its last (`Json.lastWins`).

## Main definitions

* `Json` — syntax trees. Integers and decimal numbers are kept apart.
* `Json.lastWins` — repeated keys resolved at every level.
* `Json.member?` — the value of a key.
-/

namespace MarketRegistry

/-- A json **number**: an integer, or a decimal number when it is written with a point or an
exponent. -/
inductive Number where
  | int (value : Int)
  | real (value : Decimal)
  deriving DecidableEq, Repr

/-- A json **syntax tree**. -/
inductive Json where
  | null
  | bool (b : Bool)
  | number (n : Number)
  | string (t : Text)
  | array (items : List Json)
  | object (members : List (Text × Json))

namespace Json

/-- The keys of members, in order. -/
def keys (ms : List (Text × Json)) : List Text :=
  ms.map Prod.fst

/-- The value of the first member with a key. -/
def member? (key : Text) : List (Text × Json) → Option Json
  | [] => none
  | (k, v) :: ms => if k = key then some v else member? key ms

/-- Members with one more put in at the end: a present key keeps its place and takes the new
value. -/
def put (key : Text) (value : Json) : List (Text × Json) → List (Text × Json)
  | [] => [(key, value)]
  | (k, v) :: ms => if k = key then (k, value) :: ms else (k, v) :: put key value ms

/-- Members with repeated keys resolved, one after another. -/
def resolve (ms : List (Text × Json)) : List (Text × Json) :=
  ms.foldl (fun acc m => put m.1 m.2 acc) []

mutual

/-- A tree with **repeated keys resolved** at every level: the last value wins. -/
def lastWins : Json → Json
  | .array items => .array (lastWinsItems items)
  | .object ms => .object (resolve (lastWinsMembers ms))
  | .null => .null
  | .bool b => .bool b
  | .number n => .number n
  | .string t => .string t

/-- Repeated keys resolved inside the elements of an array. -/
def lastWinsItems : List Json → List Json
  | [] => []
  | j :: js => j.lastWins :: lastWinsItems js

/-- Repeated keys resolved inside the values of an object. -/
def lastWinsMembers : List (Text × Json) → List (Text × Json)
  | [] => []
  | (k, v) :: ms => (k, v.lastWins) :: lastWinsMembers ms

end

end Json

end MarketRegistry
