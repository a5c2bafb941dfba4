/-!
# Precisions

Amounts, prices and ratios are integers that count small units. Each kind of quantity has a
precision: the number of units in one whole.

## Main definitions

* `Precision.table` — all precisions under their public names.
-/

namespace MarketRegistry.Precision

/-- Four decimal places. -/
def tenThousand : Nat := 10000

/-- Six decimal places. -/
def oneMillion : Nat := 1000000

/-- Nine decimal places. -/
def oneBillion : Nat := 1000000000

/-- Units in one of a price. -/
def price : Nat := oneMillion

/-- Units in one of the quote asset. -/
def quote : Nat := oneMillion

/-- Units in one of a base asset. -/
def base : Nat := oneBillion

/-- Units in one of a spot balance. -/
def spotBalance : Nat := oneBillion

/-- Units in one of the cumulative interest of a spot market. -/
def spotCumulativeInterest : Nat := 10000000000

/-- Units in one of a spot weight. -/
def spotWeight : Nat := tenThousand

/-- Units in one of a spot rate. -/
def spotRate : Nat := oneMillion

/-- Units in one of a spot market's utilization. -/
def spotUtilization : Nat := oneMillion

/-- Units in one of a margin ratio. -/
def margin : Nat := tenThousand

/-- Units in one of the peg. -/
def peg : Nat := oneMillion

/-- Units in one of a market maker's reserves. -/
def ammReserve : Nat := oneBillion

/-- Units in one of a liquidation fee. -/
def liquidationFee : Nat := oneMillion

/-- All **precisions** under their public names. -/
def table : List (String × Nat) :=
  [ ("ONE_MILLION", oneMillion),
    ("ONE_BILLION", oneBillion),
    ("TEN_THOUSAND", tenThousand),
    ("PRICE_PRECISION", price),
    ("QUOTE_PRECISION", quote),
    ("BASE_PRECISION", base),
    ("SPOT_BALANCE_PRECISION", spotBalance),
    ("SPOT_CUMULATIVE_INTEREST_PRECISION", spotCumulativeInterest),
    ("SPOT_WEIGHT_PRECISION", spotWeight),
    ("SPOT_RATE_PRECISION", spotRate),
    ("SPOT_UTILIZATION_PRECISION", spotUtilization),
    ("MARGIN_PRECISION", margin),
    ("PEG_PRECISION", peg),
    ("AMM_RESERVE_PRECISION", ammReserve),
    ("LIQUIDATION_FEE_PRECISION", liquidationFee) ]

end MarketRegistry.Precision
