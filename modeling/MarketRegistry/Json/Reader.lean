import MarketRegistry.Json.Lexeme

/-!
# Reading json

Lexemes are read from the left with a stack of the arrays and objects that are still open. The
first lexeme that cannot stand where it does ends the reading: there is one error for a
constant that stands in place of a value, and one for everything else.

## Main definitions

* `ReadError` — why a text is no json.
* `Frame`, `Reading` — the open containers, and what may come next.
* `Reading.step` — one lexeme more.
* `Json.read` — the syntax tree of a text.
* `Json.parse` — its value, with repeated keys resolved.
-/

namespace MarketRegistry

/-- Why a text is no json. -/
inductive ReadError where
  | malformed
  | constant (c : Constant)
  deriving DecidableEq, Repr

/-- An open container: what it holds so far, newest first, and for an object the key of the
value to come. -/
inductive Frame where
  | array (items : List Json)
  | object (members : List (Text × Json)) (key : Text)

/-- What may come next, with the open containers, innermost first. -/
inductive Reading where
  /-- A value. -/
  | value (frames : List Frame)
  /-- The first element of an array or its end. -/
  | firstItem (frames : List Frame)
  /-- The first key of an object or its end. -/
  | firstKey (frames : List Frame)
  /-- A further key of an object. -/
  | key (frames : List Frame) (members : List (Text × Json))
  /-- The colon after a key. -/
  | colon (frames : List Frame) (members : List (Text × Json)) (key : Text)
  /-- What follows a value: a comma or the end of the innermost container. -/
  | after (frames : List Frame) (j : Json)

namespace Reading

/-- The lexeme at which a value starts. -/
def startValue (frames : List Frame) : Lexeme → Except ReadError Reading
  | .bracketOpen => .ok (.firstItem frames)
  | .braceOpen => .ok (.firstKey frames)
  | .string t => .ok (.after frames (.string t))
  | .number n => .ok (.after frames (.number n))
  | .bool b => .ok (.after frames (.bool b))
  | .null => .ok (.after frames .null)
  | .constant c => .error (.constant c)
  | _ => .error .malformed

/-- The lexeme that follows a value. -/
def afterValue (j : Json) : List Frame → Lexeme → Except ReadError Reading
  | .array items :: frames, .comma => .ok (.value (.array (j :: items) :: frames))
  | .array items :: frames, .bracketClose => .ok (.after frames (.array (j :: items).reverse))
  | .object ms k :: frames, .comma => .ok (.key frames ((k, j) :: ms))
  | .object ms k :: frames, .braceClose => .ok (.after frames (.object ((k, j) :: ms).reverse))
  | _, _ => .error .malformed

/-- One lexeme more. -/
def step : Reading → Lexeme → Except ReadError Reading
  | value frames, l => startValue frames l
  | firstItem frames, .bracketClose => .ok (.after frames (.array []))
  | firstItem frames, l => startValue (.array [] :: frames) l
  | firstKey frames, .braceClose => .ok (.after frames (.object []))
  | firstKey frames, .string k => .ok (.colon frames [] k)
  | key frames ms, .string k => .ok (.colon frames ms k)
  | colon frames ms k, .colon => .ok (.value (.object ms k :: frames))
  | after frames j, l => afterValue j frames l
  | _, _ => .error .malformed

/-- The syntax tree when the text ends here. -/
def result : Reading → Except ReadError Json
  | after [] j => .ok j
  | _ => .error .malformed

/-- Several lexemes more. -/
def run (r : Reading) (ls : List Lexeme) : Except ReadError Reading :=
  ls.foldlM step r

end Reading

namespace Json

/-- The syntax tree that lexemes write. -/
def ofLexemes (ls : List Lexeme) : Except ReadError Json := do
  (← Reading.run (.value []) ls).result

/-- The **syntax tree** of a text. -/
def read (cs : List Char) : Except ReadError Json :=
  ofLexemes (lexemes cs)

/-- The **value** of a text: its syntax tree with repeated keys resolved. -/
def parse (cs : List Char) : Except ReadError Json :=
  (read cs).map lastWins

end Json

end MarketRegistry
