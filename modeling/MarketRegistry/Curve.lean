import MarketRegistry.Numeral

/-!
# Points of the curve ed25519

A program-derived address must have no private key, so it must not be the compressed form of
a point of the twisted Edwards curve `-x² + y² = 1 + d x² y²` over the integers modulo
`2^255 - 19`. Compressed points store `y` and the sign of `x`. An `x` exists exactly when
`(y² - 1) / (d y² + 1)` is a square, and since `d y² + 1` is never zero, exactly when the
product `(y² - 1) (d y² + 1)` is one.

## Main definitions

* `Curve.isSquare` — Euler's criterion modulo the field's prime.
* `Curve.isPoint` — whether 32 bytes are the compressed form of a point.
-/

namespace MarketRegistry.Curve

/-- The prime of the field. -/
def prime : Nat := Nat.pow 2 255 - 19

/-- The coefficient `d = -121665 / 121666` of the curve. -/
def coefficient : Nat :=
  37095705934669439343138083508754565189542113879843219016388785533085940283555

/-- The defining equation of the coefficient. -/
example : (coefficient * 121666 + 121665) % prime = 0 := by decide

/-- A power modulo `m`, by squaring. -/
def powMod (m base exponent : Nat) : Nat :=
  if exponent = 0 then 1 % m
  else
    let half := powMod m (base * base % m) (exponent / 2)
    if exponent % 2 = 0 then half else half * base % m
termination_by exponent
decreasing_by omega

/-- Whether a number is zero or a square modulo the prime, by Euler's criterion. -/
def isSquare (n : Nat) : Bool :=
  n % prime == 0 || powMod prime (n % prime) ((prime - 1) / 2) == 1

/-- The number that bytes write, least significant byte first. -/
def littleEndian (bytes : List UInt8) : Nat :=
  Numeral.value 256 (bytes.reverse.map UInt8.toNat)

/-- Whether 32 bytes are the compressed form of a point: `y` in the low 255 bits, the sign of
`x` in the last. -/
def isPoint (bytes : List UInt8) : Bool :=
  let y := littleEndian bytes % Nat.pow 2 255 % prime
  let y2 := y * y % prime
  isSquare ((y2 + prime - 1) * (coefficient * y2 + 1))

end MarketRegistry.Curve
