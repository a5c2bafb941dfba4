import MarketRegistry.Json.Reader

/-!
# Reading json on a limited stack

Every open container takes up room on the stack of calls until it is closed. How many may be open
at once depends on how deep the call of the reader stands itself, so that the limit is a parameter.
The container that opens inside `limit` others ends the reading, whatever follows it: the text is
not ill-formed for that, and the error is one of its own. Up to there a text is read as without a
limit, so that a fault that stands before it comes first.

Only open containers are counted. The calls that report a fault are not, though they come on top
of the containers that are open then.

## Main definitions

* `Reading.depth` — how many containers are open.
* `Container`, `LimitedError` — what opens too deep, and why a text is not read within a limit.
* `Reading.stepWithin`, `Reading.runWithin` — lexemes taken within a limit.
* `Json.parseWithin` — the value of a text, read within a limit.
* `Json.nestingLimit` — the limit of a call from the outermost level.
-/

namespace MarketRegistry

/-- The kinds of containers. -/
inductive Container where
  | array
  | object
  deriving DecidableEq, Repr

/-- The name of a kind of containers. -/
def Container.name : Container → String
  | array => "array"
  | object => "object"

/-- The container that a lexeme opens. -/
def Lexeme.opens? : Lexeme → Option Container
  | .bracketOpen => some .array
  | .braceOpen => some .object
  | _ => none

/-- Why a text is not read within a limit. -/
inductive LimitedError where
  | unreadable (error : ReadError)
  | tooDeep (container : Container)
  deriving DecidableEq, Repr

namespace Reading

/-- How many containers are **open**. -/
def depth : Reading → Nat
  | value frames | after frames _ => frames.length
  | firstItem frames | firstKey frames | key frames _ | colon frames _ _ => frames.length + 1

/-- One lexeme more, with at most `limit` containers open. -/
def stepWithin (limit : Nat) (r : Reading) (l : Lexeme) : Except LimitedError Reading := do
  let next ← (r.step l).mapError .unreadable
  match l.opens? with
  | some container => if next.depth ≤ limit then return next else .error (.tooDeep container)
  | none => return next

/-- Several lexemes more, with at most `limit` containers open. -/
def runWithin (limit : Nat) (r : Reading) (ls : List Lexeme) : Except LimitedError Reading :=
  ls.foldlM (stepWithin limit) r

end Reading

namespace Json

/-- The **value** of a text, read with at most `limit` containers open at once. -/
def parseWithin (limit : Nat) (cs : List Char) : Except LimitedError Json := do
  let r ← Reading.runWithin limit (.value []) (lexemes cs)
  let j ← r.result.mapError .unreadable
  return j.lastWins

/-- How many containers may be open at once when the markets of a bundle are decoded at the
**outermost level** of a program. A thousand calls may stand on the stack, and seven do when the
first container opens. A call from further in leaves less. -/
def nestingLimit : Nat :=
  993

end Json

end MarketRegistry
