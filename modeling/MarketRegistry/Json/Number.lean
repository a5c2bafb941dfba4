import MarketRegistry.Json.Basic
import MarketRegistry.Numeral

/-!
# Json numbers

The grammar of json numbers: an optional minus, digits without a superfluous leading zero, an
optional part of decimal places and an optional exponent.

## Main definitions

* `Number.ofChars?` — the number that a text writes.
-/

namespace MarketRegistry.Number

/-- An integer may have at most this many digits. -/
def maxIntegerDigits : Nat := 4300

/-- The number of digits all of which are decimal digits. -/
def digitsValue (ds : List Char) : Nat :=
  Numeral.value 10 (ds.filterMap Numeral.decimalDigit?)

/-- The digits at the start of a text, of which there is at least one, and what follows. -/
def digits? (cs : List Char) : Option (List Char × List Char) :=
  match cs.takeWhile Numeral.isDecimalDigit with
  | [] => none
  | ds => some (ds, cs.dropWhile Numeral.isDecimalDigit)

/-- The digits before the point: a zero stands alone. -/
def whole? (cs : List Char) : Option (List Char × List Char) := do
  let (ds, rest) ← digits? cs
  if ds.head? = some '0' ∧ ds.length ≠ 1 then none else some (ds, rest)

/-- The decimal places, if there is a point. -/
def places? : List Char → Option (Option (List Char) × List Char)
  | '.' :: cs => (digits? cs).map fun (ds, rest) => (some ds, rest)
  | cs => some (none, cs)

/-- An exponent after its letter: an optional sign and digits. -/
def signedExponent? : List Char → Option (Int × List Char)
  | '-' :: cs => (digits? cs).map fun (ds, rest) => (-(digitsValue ds : Int), rest)
  | '+' :: cs => (digits? cs).map fun (ds, rest) => ((digitsValue ds : Int), rest)
  | cs => (digits? cs).map fun (ds, rest) => ((digitsValue ds : Int), rest)

/-- The exponent, if there is its letter. -/
def exponent? : List Char → Option (Option Int × List Char)
  | 'e' :: cs => (signedExponent? cs).map fun (e, rest) => (some e, rest)
  | 'E' :: cs => (signedExponent? cs).map fun (e, rest) => (some e, rest)
  | cs => some (none, cs)

/-- A text without its minus, and whether it had one. -/
def unsigned : List Char → Bool × List Char
  | '-' :: cs => (true, cs)
  | cs => (false, cs)

/-- The integer of some digits, unless there are too many. -/
def integer? (negative : Bool) (ds : List Char) : Option Number :=
  if maxIntegerDigits < ds.length then none
  else some (.int (if negative then -(digitsValue ds : Int) else digitsValue ds))

/-- The **number** that a text writes, all of it. Minus zero is the integer zero. -/
def ofChars? (cs : List Char) : Option Number := do
  let (negative, cs) := unsigned cs
  let (whole, cs) ← whole? cs
  let (places, cs) ← places? cs
  let (exponent, cs) ← exponent? cs
  if cs ≠ [] then none
  else
    match places, exponent with
    | none, none => integer? negative whole
    | _, _ =>
      let places := places.getD []
      some (.real ⟨negative, digitsValue (whole ++ places), exponent.getD 0 - places.length⟩)

end MarketRegistry.Number
