import MarketRegistry.Decimal.Basic
import MarketRegistry.Numeral

/-!
# Binary numbers of 64 bits

The nearest binary number of 53 significant bits to a decimal number, with the exponent range
of the 64-bit format. All arithmetic is exact, on natural numbers.

## Main definitions

* `Binary64` — zero, subnormal and normal numbers as `m * 2 ^ q`, and the infinities.
* `roundQuotient` — a quotient rounded to nearest, ties to even.
* `Binary64.ofDecimal` — the nearest binary number.
-/

namespace MarketRegistry

/-- A **binary number**: `m * 2 ^ q` with `m` below `2 ^ 53` and `q` at least `-1074`, or an
infinity. A normal number has `m` at least `2 ^ 52`; smaller ones have `q = -1074`. -/
inductive Binary64 where
  | finite (negative : Bool) (m : Nat) (q : Int)
  | infinite (negative : Bool)
  deriving DecidableEq, Repr

/-- A quotient rounded to the nearest natural number, ties to even. -/
def roundQuotient (num den : Nat) : Nat :=
  let quotient := num / den
  let rest := num % den
  if 2 * rest < den ∨ (2 * rest = den ∧ quotient % 2 = 0) then quotient else quotient + 1

namespace Binary64

/-- The exponent of the last place of `num / den`, which leaves 53 bits before the point
unless the number is too small for that. -/
def lastPlace (num den : Nat) : Int :=
  let e := (num.log2 : Int) - den.log2
  let reached := den * Nat.pow 2 e.toNat ≤ num * Nat.pow 2 (-e).toNat
  max (-1074) (if reached then e - 52 else e - 53)

/-- The nearest binary number to a positive quotient. Rounding up to `2 ^ 53` moves to the next
exponent, and an exponent above 971 leaves the format. -/
def ofQuotient (negative : Bool) (num den : Nat) : Binary64 :=
  let q := lastPlace num den
  let m := roundQuotient (num * Nat.pow 2 (-q).toNat) (den * Nat.pow 2 q.toNat)
  let (m, q) := if m = Nat.pow 2 53 then (Nat.pow 2 52, q + 1) else (m, q)
  if 971 < q then infinite negative else finite negative m q

/-- The **nearest binary number** to a decimal number. Numbers from `10 ^ 310` up are infinite
and those below `10 ^ -330` zero; in between, the quotient is formed. -/
def ofDecimal (d : Decimal) : Binary64 :=
  let size : Int := (Numeral.decimal d.digits).length + d.exponent
  if d.digits = 0 ∨ size < -330 then finite d.negative 0 (-1074)
  else if 310 < size then infinite d.negative
  else
    ofQuotient d.negative (d.digits * Nat.pow 10 d.exponent.toNat)
      (Nat.pow 10 (-d.exponent).toNat)

end Binary64

end MarketRegistry
