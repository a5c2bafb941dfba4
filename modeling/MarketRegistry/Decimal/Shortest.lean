import MarketRegistry.Decimal.Binary64

/-!
# Shortest decimals

The decimal with the fewest digits that reads back as a given binary number. The numbers that
round to `m * 2 ^ q` form an interval around it, which reaches halfway to its neighbours and
holds its ends exactly when `m` is even. For one digit, two digits and so on, the number's two
neighbours on the decimal grid are tested; the first grid with a neighbour in the interval
wins, of two the nearer, and of two equally near the even one.

## Main definitions

* `Binary64.readsBack` — membership in the interval.
* `Binary64.magnitude` — the power of ten of the leading digit.
* `Binary64.shortest` — the digits and the power of ten of the first one.
-/

namespace MarketRegistry.Binary64

/-- The order of `a * 10 ^ i` and `b * 2 ^ j`. -/
def compareScaled (a : Nat) (i : Int) (b : Nat) (j : Int) : Ordering :=
  compare (a * Nat.pow 10 i.toNat * Nat.pow 2 (-j).toNat)
    (b * Nat.pow 2 j.toNat * Nat.pow 10 (-i).toNat)

/-- Whether `d * 10 ^ j` rounds to `m * 2 ^ q`. The ends are counted in quarters of the last
place: the neighbour below a power of two is half as far away as the one above. -/
def readsBack (m : Nat) (q : Int) (d : Nat) (j : Int) : Bool :=
  let narrow := m == Nat.pow 2 52 && q != -1074
  let below := compareScaled d j (4 * m - if narrow then 1 else 2) (q - 2)
  let above := compareScaled d j (4 * m + 2) (q - 2)
  let ends := m % 2 == 0
  (below == .gt || (ends && below == .eq)) && (above == .lt || (ends && above == .eq))

/-- The power of ten of the leading digit of `num / den`, which is positive. -/
def magnitude (num den : Nat) : Int :=
  if den ≤ num then ((Numeral.decimal (num / den)).length : Int) - 1
  else
    let k := (Numeral.decimal (den / num)).length
    if den ≤ num * Nat.pow 10 (k - 1) then 1 - k else -k

/-- The neighbours of `num / den` on the grid of `10 ^ j` that read back, or the nearer of
them when both do. -/
def onGrid? (m : Nat) (q : Int) (num den : Nat) (j : Int) : Option Nat :=
  let num := num * Nat.pow 10 (-j).toNat
  let den := den * Nat.pow 10 j.toNat
  let low := num / den
  match readsBack m q low j, readsBack m q (low + 1) j with
  | true, true => some (roundQuotient num den)
  | true, false => some low
  | false, true => some (low + 1)
  | false, false => none

/-- The **shortest digits** of `m * 2 ^ q`, which is positive, and the power of ten of the first
digit. Seventeen digits always suffice. -/
def shortest (m : Nat) (q : Int) : List Char × Int :=
  let num := m * Nat.pow 2 q.toNat
  let den := Nat.pow 2 (-q).toNat
  let e := magnitude num den
  let found := (List.range 17).findSome? fun (n : Nat) =>
    (onGrid? m q num den (e - n)).map fun d => (d, e - n)
  let (d, j) := found.getD (m * Nat.pow 2 q.toNat * Nat.pow 5 (-q).toNat, min q 0)
  let digits := Numeral.decimal d
  ((digits.reverse.dropWhile (· == '0')).reverse, digits.length - 1 + j)

end MarketRegistry.Binary64
