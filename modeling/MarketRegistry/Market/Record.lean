import MarketRegistry.Market.Name
import MarketRegistry.Market.Variant

/-!
# Market accounts

The records of the exchange's markets. A market's index is its place in the bundle, and its
public key, if known, is the address of its account.

## Main definitions

* `SpotMarket`, `PerpMarket` — the two kinds of markets.
* `HistoricalOracleData`, `Amm` — records inside them.
-/

namespace MarketRegistry

/-- What an oracle reported in the past. -/
structure HistoricalOracleData where
  lastOraclePrice : Int
  lastOracleConf : Int
  lastOracleDelay : Int
  lastOraclePriceTwap : Int
  lastOraclePriceTwap5min : Int
  lastOraclePriceTwapTs : Int
  deriving DecidableEq

/-- The automated market maker of a perp market. -/
structure Amm where
  oracle : Address
  historicalOracleData : HistoricalOracleData
  baseAssetReserve : Int
  quoteAssetReserve : Int
  sqrtK : Int
  pegMultiplier : Int
  orderStepSize : Int
  orderTickSize : Int
  minOrderSize : Int
  fundingPeriod : Int
  lastFundingRate : Int
  last24hAvgFundingRate : Int
  lastMarkPriceTwap : Int
  lastMarkPriceTwap5min : Int
  volume24h : Int
  baseSpread : Int
  maxSpread : Int
  oracleSource : OracleSource
  deriving DecidableEq

/-- A spot market. -/
structure SpotMarket where
  oracle : Address
  mint : Address
  name : Buffer Name.capacity
  historicalOracleData : HistoricalOracleData
  depositBalance : Int
  borrowBalance : Int
  cumulativeDepositInterest : Int
  cumulativeBorrowInterest : Int
  orderStepSize : Int
  orderTickSize : Int
  minOrderSize : Int
  maxTokenDeposits : Int
  initialAssetWeight : Int
  maintenanceAssetWeight : Int
  initialLiabilityWeight : Int
  maintenanceLiabilityWeight : Int
  imfFactor : Int
  liquidatorFee : Int
  ifLiquidationFee : Int
  optimalUtilization : Int
  optimalBorrowRate : Int
  maxBorrowRate : Int
  decimals : Int
  ordersEnabled : Bool
  oracleSource : OracleSource
  status : MarketStatus
  assetTier : AssetTier
  marketIndex : Int
  pubkey : Option Address
  deriving DecidableEq

/-- The symbol of a market: its name as text. -/
def SpotMarket.symbol (m : SpotMarket) : Except ConfigError (List Char) :=
  Name.decode m.name.bytes

/-- The type of a market as a text, the same for all spot markets. -/
def SpotMarket.marketType (_ : SpotMarket) : String :=
  "spot"

/-- A perp market. -/
structure PerpMarket where
  amm : Amm
  name : Buffer Name.capacity
  expiryTs : Int
  expiryPrice : Int
  imfFactor : Int
  unrealizedPnlImfFactor : Int
  liquidatorFee : Int
  ifLiquidationFee : Int
  marginRatioInitial : Int
  marginRatioMaintenance : Int
  status : MarketStatus
  contractType : ContractType
  contractTier : ContractTier
  quoteSpotMarketIndex : Int
  highLeverageMarginRatioInitial : Int
  highLeverageMarginRatioMaintenance : Int
  marketIndex : Int
  pubkey : Option Address
  deriving DecidableEq

/-- The symbol of a market: its name as text. -/
def PerpMarket.symbol (m : PerpMarket) : Except ConfigError (List Char) :=
  Name.decode m.name.bytes

/-- The type of a market as a text, the same for all perp markets. -/
def PerpMarket.marketType (_ : PerpMarket) : String :=
  "perp"

end MarketRegistry
