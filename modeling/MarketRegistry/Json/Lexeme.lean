import MarketRegistry.Json.Number

/-!
# Json lexemes

A json text is cut into lexemes in one pass from the left: punctuation, strings with their
escapes resolved, and words, which are runs of anything else that is not json white space. A
word is a name, a number or ill-formed. Between two characters all that matters is the lexemes
so far and the phase of the reading (`Lexing`).

An ill-formed string ends the reading with the lexeme `bad`, so that what stands before it is
still there to be read.

## Main definitions

* `Lexeme`, `Constant` — the lexemes, among them the number-like constants that json lacks.
* `Lexeme.ofWord` — the lexeme of a word.
* `Lexing`, `Lexing.step` — the reading up to some character, and one character more.
* `lexemes` — the lexemes of a text.
-/

namespace MarketRegistry

/-- The constants that stand where a number might, but are no json. -/
inductive Constant where
  | nan
  | infinity
  | negativeInfinity
  deriving DecidableEq, Repr

/-- The text of a constant. -/
def Constant.text : Constant → String
  | nan => "NaN"
  | infinity => "Infinity"
  | negativeInfinity => "-Infinity"

/-- A **lexeme** of json. -/
inductive Lexeme where
  | braceOpen
  | braceClose
  | bracketOpen
  | bracketClose
  | colon
  | comma
  | string (t : Text)
  | number (n : Number)
  | bool (b : Bool)
  | null
  | constant (c : Constant)
  | bad
  deriving DecidableEq, Repr

/-- The white space of json. -/
def isJsonSpace (c : Char) : Bool :=
  c == ' ' || c == '\t' || c == '\n' || c == '\r'

namespace Lexeme

/-- The lexeme of a punctuation character. -/
def ofMark? (c : Char) : Option Lexeme :=
  if c == '\x7b' then some braceOpen
  else if c == '\x7d' then some braceClose
  else if c == '[' then some bracketOpen
  else if c == ']' then some bracketClose
  else if c == ':' then some colon
  else if c == ',' then some comma
  else none

/-- The constant at the start of a word. What follows it in the word is of no account, since
the constant itself is already refused. -/
def constant? (cs : List Char) : Option Constant :=
  [Constant.nan, .infinity, .negativeInfinity].find? fun c => c.text.toList.isPrefixOf cs

/-- The **lexeme of a word**: a name, a constant, a number or ill-formed. -/
def ofWord (cs : List Char) : Lexeme :=
  if cs = "null".toList then null
  else if cs = "true".toList then bool true
  else if cs = "false".toList then bool false
  else
    match constant? cs with
    | some c => constant c
    | none =>
      match Number.ofChars? cs with
      | some n => number n
      | none => bad

end Lexeme

/-! ### Strings -/

/-- The character that an escape of one letter stands for. -/
def escaped? (c : Char) : Option Char :=
  if c == '"' || c == '\\' || c == '/' then some c
  else if c == 'b' then some '\x08'
  else if c == 'f' then some '\x0c'
  else if c == 'n' then some '\n'
  else if c == 'r' then some '\r'
  else if c == 't' then some '\t'
  else none

/-- A code point put after the newest of a text, which is given newest first: a low half after
a high half makes one character. -/
def pushCodePoint (t : Text) (p : CodePoint) : Text :=
  match t, p with
  | .high h :: t, .low l => .scalar (CodePoint.join h l) :: t
  | t, p => p :: t

/-! ### Reading from the left -/

/-- What is being read. Texts are newest first; `unit` is inside an escaped code unit, with the
value of its digits so far and the number of digits to come. -/
inductive Phase where
  | between
  | word (cs : List Char)
  | string (t : Text)
  | escape (t : Text)
  | unit (t : Text) (value left : Nat)
  | broken
  deriving DecidableEq, Repr

/-- How far a text has been read: the finished lexemes, newest first, and the phase. -/
structure Lexing where
  done : List Lexeme
  phase : Phase
  deriving DecidableEq, Repr

namespace Lexing

/-- Nothing read yet. -/
def start : Lexing :=
  ⟨[], .between⟩

/-- An ill-formed string: nothing after it is read. -/
def fail (done : List Lexeme) : Lexing :=
  ⟨.bad :: done, .broken⟩

/-- The lexemes so far, newest first, with a word taken as finished and a string as
ill-formed. -/
def finished (s : Lexing) : List Lexeme :=
  match s.phase with
  | .between | .broken => s.done
  | .word cs => .ofWord cs.reverse :: s.done
  | .string _ | .escape _ | .unit .. => .bad :: s.done

/-- One character more, between lexemes or after a word. -/
def stepOutside (s : Lexing) (c : Char) : Lexing :=
  if c == '"' then ⟨s.finished, .string []⟩
  else if isJsonSpace c then ⟨s.finished, .between⟩
  else
    match Lexeme.ofMark? c with
    | some mark => ⟨mark :: s.finished, .between⟩
    | none =>
      match s.phase with
      | .word cs => ⟨s.done, .word (c :: cs)⟩
      | _ => ⟨s.finished, .word [c]⟩

/-- One character more in a string. Control characters must be escaped. -/
def stepString (done : List Lexeme) (t : Text) (c : Char) : Lexing :=
  if c == '"' then ⟨.string t.reverse :: done, .between⟩
  else if c == '\\' then ⟨done, .escape t⟩
  else if c.toNat < 32 then fail done
  else ⟨done, .string (.scalar c :: t)⟩

/-- The character after a backslash. -/
def stepEscape (done : List Lexeme) (t : Text) (c : Char) : Lexing :=
  if c == 'u' then ⟨done, .unit t 0 4⟩
  else
    match escaped? c with
    | some e => ⟨done, .string (.scalar e :: t)⟩
    | none => fail done

/-- One digit more of an escaped code unit. -/
def stepUnit (done : List Lexeme) (t : Text) (value left : Nat) (c : Char) : Lexing :=
  match Numeral.hexDigit? c with
  | none => fail done
  | some d =>
    let value := value * 16 + d
    if left ≤ 1 then ⟨done, .string (pushCodePoint t (.ofUnit value))⟩
    else ⟨done, .unit t value (left - 1)⟩

/-- One character more. -/
def step (s : Lexing) (c : Char) : Lexing :=
  match s.phase with
  | .between | .word _ => stepOutside s c
  | .string t => stepString s.done t c
  | .escape t => stepEscape s.done t c
  | .unit t value left => stepUnit s.done t value left c
  | .broken => s

end Lexing

/-- The **lexemes** of a text. -/
def lexemes (cs : List Char) : List Lexeme :=
  (cs.foldl Lexing.step Lexing.start).finished.reverse

end MarketRegistry
