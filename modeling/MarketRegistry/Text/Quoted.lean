import MarketRegistry.Numeral
import MarketRegistry.Text.CodePoint
import MarketRegistry.Text.Printable

/-!
# Quoted texts

A message shows a text between quotes, with everything that would not be legible escaped. The
quotes are single, unless the text holds a single quote and no double one.

## Main definitions

* `Text.quoted` — the quoted form of a text.
-/

namespace MarketRegistry.Text

/-- The lower-case hexadecimal digits of a number, filled up with zeros to a width. -/
def hexDigits (width n : Nat) : List Char :=
  let ds := Nat.toDigits 16 n
  List.replicate (width - ds.length) '0' ++ ds

/-- The numbered escape of a code point, in the shortest of the three widths. -/
def numbered (n : Nat) : List Char :=
  if n < 0x100 then '\\' :: 'x' :: hexDigits 2 n
  else if n < 0x10000 then '\\' :: 'u' :: hexDigits 4 n
  else '\\' :: 'U' :: hexDigits 8 n

/-- One code point between the quotes `mark`. -/
def quotedPoint (mark : Char) : CodePoint → List Char
  | .scalar c =>
    if c == mark || c == '\\' then ['\\', c]
    else if c == '\n' then ['\\', 'n']
    else if c == '\r' then ['\\', 'r']
    else if c == '\t' then ['\\', 't']
    else if isPrintable c.toNat then [c]
    else numbered c.toNat
  | p => numbered p.value

/-- The quotes for a text. -/
def quoteMark (t : Text) : Char :=
  if t.contains (.scalar '\'') && !t.contains (.scalar '"') then '"' else '\''

/-- The **quoted form** of a text. -/
def quoted (t : Text) : List Char :=
  let mark := quoteMark t
  mark :: t.flatMap (quotedPoint mark) ++ [mark]

/-- The quoted forms of several texts, in brackets. -/
def quotedList (ts : List Text) : List Char :=
  '[' :: [',', ' '].intercalate (ts.map quoted) ++ [']']

end MarketRegistry.Text
