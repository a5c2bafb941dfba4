import MarketRegistry.Text.CodePoint
import MarketRegistry.Text.LowerCase

/-!
# Field names in two cases

Json names the fields of a record in camel case, the records themselves in snake case.

## Main definitions

* `snakeCase` — a name in snake case.
* `camelKey?` — the characters of a json key that is a proper camel case name.
-/

namespace MarketRegistry

/-- An ASCII capital letter. -/
def isCapital (c : Char) : Bool :=
  'A' ≤ c && c ≤ 'Z'

/-- An ASCII small letter. -/
def isSmall (c : Char) : Bool :=
  'a' ≤ c && c ≤ 'z'

/-- An ASCII letter or digit. -/
def isLetterOrDigit (c : Char) : Bool :=
  isCapital c || isSmall c || ('0' ≤ c && c ≤ '9')

/-- A text with an underscore before each ASCII capital but at the start. -/
def markCapitals : List Char → List Char
  | [] => []
  | c :: cs => c :: cs.flatMap fun c => if isCapital c then ['_', c] else [c]

/-- A name in **snake case**: an underscore before each ASCII capital but at the start, then
lower case throughout. -/
def snakeCase (cs : List Char) : List Char :=
  lowerCase (markCapitals cs)

/-- A name in camel case: an ASCII small letter, then ASCII letters and digits. -/
def isCamelCase : List Char → Bool
  | [] => false
  | c :: cs => isSmall c && cs.all isLetterOrDigit

/-- The characters of a json key that is a name in camel case. -/
def camelKey? (key : Text) : Option (List Char) :=
  key.toChars?.filter isCamelCase

end MarketRegistry
