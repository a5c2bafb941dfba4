import MarketRegistry.Decimal.Shortest

/-!
# Decimal numbers in messages

A message shows a decimal number as the shortest decimal that reads back as the same binary
number: positionally with at least one decimal place when its leading digit stands between
`10 ^ -4` and `10 ^ 15`, and otherwise with an exponent of at least two digits.

## Main definitions

* `Decimal.layout` — digits and a power of ten laid out.
* `Decimal.display` — the text of a decimal number.
-/

namespace MarketRegistry.Decimal

/-- The powers of ten of the leading digit that are written positionally. -/
def isPositional (e : Int) : Bool :=
  -4 ≤ e && e < 16

/-- The text of an exponent: a sign and at least two digits. -/
def exponentText (e : Int) : List Char :=
  let ds := Numeral.decimal e.natAbs
  (if e < 0 then '-' else '+') :: (if ds.length < 2 then '0' :: ds else ds)

/-- Digits with a point: `whole`, and `places` or a zero if there are none. -/
def withPoint (whole places : List Char) : List Char :=
  whole ++ '.' :: if places.isEmpty then ['0'] else places

/-- Digits laid out for the power of ten `e` of the first one. -/
def layout (digits : List Char) (e : Int) : List Char :=
  if isPositional e then
    if e < 0 then withPoint ['0'] (List.replicate (-e - 1).toNat '0' ++ digits)
    else
      let n := e.toNat + 1
      withPoint (digits.take n ++ List.replicate (n - digits.length) '0') (digits.drop n)
  else
    let (lead, rest) := (digits.take 1, digits.drop 1)
    (if rest.isEmpty then lead else lead ++ '.' :: rest) ++ 'e' :: exponentText e

/-- The sign of a negative number. -/
def signText (negative : Bool) : List Char :=
  if negative then ['-'] else []

/-- The **text of a decimal number** in a message. -/
def display (d : Decimal) : List Char :=
  match Binary64.ofDecimal d with
  | .infinite negative => signText negative ++ ['i', 'n', 'f']
  | .finite negative m q =>
    signText negative ++
      if m = 0 then withPoint ['0'] []
      else
        let (digits, e) := Binary64.shortest m q
        layout digits e

end MarketRegistry.Decimal
