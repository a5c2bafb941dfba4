import MarketRegistry.Text.Blank

/-!
# Tokens of a dump

A dump is cut into four kinds of tokens: quoted strings, white space, punctuation and bare
runs of anything else. There are no escapes: a string reaches to the next quote. The cut loses
nothing, so the texts of the tokens concatenate to the dump, and it fails only on a quote
without a partner, which is then the last quote of the dump.

The dump is read in one pass from the left; between two characters all that matters is the
tokens so far and the token in the making (`Scan`).

## Main definitions

* `Token`, `TokenKind` — a piece of a dump.
* `Scan`, `Scan.step` — the reading of a dump up to some character, and one character more.
* `tokenize` — the tokens of a dump.
* `plainText` — the text that tokens stand for.
-/

namespace MarketRegistry

/-- The kinds of tokens. -/
inductive TokenKind where
  | string
  | whitespace
  | punctuation
  | bare
  deriving DecidableEq, Repr

/-- A **token**: a kind and the characters it covers, quotes included. -/
structure Token where
  kind : TokenKind
  text : List Char
  deriving DecidableEq, Repr

/-- The text that tokens stand for. -/
def plainText (ts : List Token) : List Char :=
  ts.flatMap Token.text

namespace Token

/-- The characters that are tokens on their own. -/
def isPunctuation (c : Char) : Bool :=
  c == '\x7b' || c == '\x7d' || c == '[' || c == ']' || c == ':' || c == ','

/-- The token of a punctuation character. -/
def mark (c : Char) : Token :=
  ⟨.punctuation, [c]⟩

/-- Whether a token is white space. -/
def isWhitespace (t : Token) : Bool :=
  t.kind == .whitespace

/-- What the quotes of a string token enclose. -/
def content (t : Token) : List Char :=
  (t.text.drop 1).dropLast

end Token

/-! ### Reading from the left -/

/-- The token in the making, its characters newest first. A string holds its opening quote. -/
inductive Pending where
  | nothing
  | string (cs : List Char)
  | whitespace (cs : List Char)
  | bare (cs : List Char)
  deriving DecidableEq, Repr

/-- How far a dump has been read: the finished tokens, newest first, and the pending one. -/
structure Scan where
  done : List Token
  pending : Pending
  deriving DecidableEq, Repr

namespace Scan

/-- Nothing read yet. -/
def start : Scan :=
  ⟨[], .nothing⟩

/-- The tokens so far, newest first, with a pending run taken as finished. -/
def finished (s : Scan) : List Token :=
  match s.pending with
  | .whitespace cs => ⟨.whitespace, cs.reverse⟩ :: s.done
  | .bare cs => ⟨.bare, cs.reverse⟩ :: s.done
  | _ => s.done

/-- One character more. -/
def step (s : Scan) (c : Char) : Scan :=
  match s.pending with
  | .string cs =>
    if c == '"' then ⟨⟨.string, (c :: cs).reverse⟩ :: s.done, .nothing⟩
    else ⟨s.done, .string (c :: cs)⟩
  | pending =>
    if c == '"' then ⟨s.finished, .string [c]⟩
    else if Token.isPunctuation c then ⟨.mark c :: s.finished, .nothing⟩
    else if isBlank c then
      match pending with
      | .whitespace cs => ⟨s.done, .whitespace (c :: cs)⟩
      | _ => ⟨s.finished, .whitespace [c]⟩
    else
      match pending with
      | .bare cs => ⟨s.done, .bare (c :: cs)⟩
      | _ => ⟨s.finished, .bare [c]⟩

end Scan

/-- A quote without a partner, with its offset in characters. -/
structure UnterminatedString where
  offset : Nat
  deriving DecidableEq, Repr

/-- The **tokens** of a dump, or its last quote when that has no partner. -/
def tokenize (cs : List Char) : Except UnterminatedString (List Token) :=
  let s := cs.foldl Scan.step Scan.start
  match s.pending with
  | .string pending => .error ⟨cs.length - pending.length⟩
  | _ => .ok s.finished.reverse

end MarketRegistry
