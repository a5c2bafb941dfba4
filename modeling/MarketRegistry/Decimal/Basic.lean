/-!
# Decimal numbers

A decimal number as it is written: a sign, digits and a power of ten. The sign is kept for
zero as well.
-/

namespace MarketRegistry

/-- A **decimal number**: `digits` times ten to the `exponent`, negated if so marked. -/
structure Decimal where
  negative : Bool
  digits : Nat
  exponent : Int
  deriving DecidableEq, Repr

end MarketRegistry
