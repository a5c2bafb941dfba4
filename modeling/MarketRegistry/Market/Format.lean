import MarketRegistry.Market.Record

/-!
# Formats of the market accounts

Each record as the tuple of its fields in the order of their declaration, with the names that
the fields have in snake case. A field for which a value is given must not be written: the
index and the address of a market in a bundle come from its place there.

## Main definitions

* `HistoricalOracleData.format`, `Amm.format` — the inner records.
* `SpotMarket.format`, `PerpMarket.format` — the markets, with what is given of them.
-/

namespace MarketRegistry

namespace HistoricalOracleData

/-- The fields of oracle data as a tuple. -/
abbrev Tuple : Type :=
  Int × Int × Int × Int × Int × Int × Unit

/-- Oracle data is the tuple of its fields. -/
def shape : Shape HistoricalOracleData Tuple where
  pack := fun (lastOraclePrice, lastOracleConf, lastOracleDelay, lastOraclePriceTwap,
    lastOraclePriceTwap5min, lastOraclePriceTwapTs, ()) =>
    ⟨lastOraclePrice, lastOracleConf, lastOracleDelay, lastOraclePriceTwap,
      lastOraclePriceTwap5min, lastOraclePriceTwapTs⟩
  unpack m :=
    (m.lastOraclePrice, m.lastOracleConf, m.lastOracleDelay, m.lastOraclePriceTwap,
      m.lastOraclePriceTwap5min, m.lastOraclePriceTwapTs, ())
  pack_unpack _ := rfl
  unpack_pack _ := rfl

/-- The fields of oracle data in json. -/
def fields : Fields Tuple :=
  .read "last_oracle_price" .int none <|
  .read "last_oracle_conf" .int none <|
  .read "last_oracle_delay" .int none <|
  .read "last_oracle_price_twap" .int none <|
  .read "last_oracle_price_twap5min" .int none <|
  .read "last_oracle_price_twap_ts" .int none <|
  .nil

/-- The format of oracle data. -/
def format : Format HistoricalOracleData :=
  .record fields shape

end HistoricalOracleData

namespace Amm

/-- The fields of a market maker as a tuple. -/
abbrev Tuple : Type :=
  Address × HistoricalOracleData × Int × Int × Int × Int × Int × Int × Int × Int × Int × Int ×
    Int × Int × Int × Int × Int × OracleSource × Unit

/-- A market maker is the tuple of its fields. -/
def shape : Shape Amm Tuple where
  pack := fun (oracle, historicalOracleData, baseAssetReserve, quoteAssetReserve, sqrtK,
    pegMultiplier, orderStepSize, orderTickSize, minOrderSize, fundingPeriod, lastFundingRate,
    last24hAvgFundingRate, lastMarkPriceTwap, lastMarkPriceTwap5min, volume24h, baseSpread,
    maxSpread, oracleSource, ()) =>
    ⟨oracle, historicalOracleData, baseAssetReserve, quoteAssetReserve, sqrtK, pegMultiplier,
      orderStepSize, orderTickSize, minOrderSize, fundingPeriod, lastFundingRate,
      last24hAvgFundingRate, lastMarkPriceTwap, lastMarkPriceTwap5min, volume24h, baseSpread,
      maxSpread, oracleSource⟩
  unpack m :=
    (m.oracle, m.historicalOracleData, m.baseAssetReserve, m.quoteAssetReserve, m.sqrtK,
      m.pegMultiplier, m.orderStepSize, m.orderTickSize, m.minOrderSize, m.fundingPeriod,
      m.lastFundingRate, m.last24hAvgFundingRate, m.lastMarkPriceTwap, m.lastMarkPriceTwap5min,
      m.volume24h, m.baseSpread, m.maxSpread, m.oracleSource, ())
  pack_unpack _ := rfl
  unpack_pack _ := rfl

/-- The fields of a market maker in json. -/
def fields : Fields Tuple :=
  .read "oracle" .address none <|
  .read "historical_oracle_data" HistoricalOracleData.format none <|
  .read "base_asset_reserve" .int none <|
  .read "quote_asset_reserve" .int none <|
  .read "sqrt_k" .int none <|
  .read "peg_multiplier" .int none <|
  .read "order_step_size" .int none <|
  .read "order_tick_size" .int none <|
  .read "min_order_size" .int none <|
  .read "funding_period" .int none <|
  .read "last_funding_rate" .int none <|
  .read "last24h_avg_funding_rate" .int none <|
  .read "last_mark_price_twap" .int none <|
  .read "last_mark_price_twap5min" .int none <|
  .read "volume24h" .int none <|
  .read "base_spread" .int none <|
  .read "max_spread" .int none <|
  .read "oracle_source" (.variant OracleSource.enumeration) none <|
  .nil

/-- The format of a market maker. -/
def format : Format Amm :=
  .record fields shape

end Amm

namespace SpotMarket

/-- The fields of a spot market as a tuple. -/
abbrev Tuple : Type :=
  Address × Address × Buffer Name.capacity × HistoricalOracleData × Int × Int × Int × Int × Int ×
    Int × Int × Int × Int × Int × Int × Int × Int × Int × Int × Int × Int × Int × Int × Bool ×
    OracleSource × MarketStatus × AssetTier × Int × Option Address × Unit

/-- A spot market is the tuple of its fields. -/
def shape : Shape SpotMarket Tuple where
  pack := fun (oracle, mint, name, historicalOracleData, depositBalance, borrowBalance,
    cumulativeDepositInterest, cumulativeBorrowInterest, orderStepSize, orderTickSize,
    minOrderSize, maxTokenDeposits, initialAssetWeight, maintenanceAssetWeight,
    initialLiabilityWeight, maintenanceLiabilityWeight, imfFactor, liquidatorFee,
    ifLiquidationFee, optimalUtilization, optimalBorrowRate, maxBorrowRate, decimals,
    ordersEnabled, oracleSource, status, assetTier, marketIndex, pubkey, ()) =>
    ⟨oracle, mint, name, historicalOracleData, depositBalance, borrowBalance,
      cumulativeDepositInterest, cumulativeBorrowInterest, orderStepSize, orderTickSize,
      minOrderSize, maxTokenDeposits, initialAssetWeight, maintenanceAssetWeight,
      initialLiabilityWeight, maintenanceLiabilityWeight, imfFactor, liquidatorFee,
      ifLiquidationFee, optimalUtilization, optimalBorrowRate, maxBorrowRate, decimals,
      ordersEnabled, oracleSource, status, assetTier, marketIndex, pubkey⟩
  unpack m :=
    (m.oracle, m.mint, m.name, m.historicalOracleData, m.depositBalance, m.borrowBalance,
      m.cumulativeDepositInterest, m.cumulativeBorrowInterest, m.orderStepSize, m.orderTickSize,
      m.minOrderSize, m.maxTokenDeposits, m.initialAssetWeight, m.maintenanceAssetWeight,
      m.initialLiabilityWeight, m.maintenanceLiabilityWeight, m.imfFactor, m.liquidatorFee,
      m.ifLiquidationFee, m.optimalUtilization, m.optimalBorrowRate, m.maxBorrowRate, m.decimals,
      m.ordersEnabled, m.oracleSource, m.status, m.assetTier, m.marketIndex, m.pubkey, ())
  pack_unpack _ := rfl
  unpack_pack _ := rfl

/-- The fields of a spot market in json. The index is required and the public key may be absent,
unless they are given. -/
def fields (index : Option Int) (pubkey : Option (Option Address)) : Fields Tuple :=
  .read "oracle" .address none <|
  .read "mint" .address none <|
  .read "name" (.buffer Name.capacity) none <|
  .read "historical_oracle_data" HistoricalOracleData.format none <|
  .read "deposit_balance" .int none <|
  .read "borrow_balance" .int none <|
  .read "cumulative_deposit_interest" .int none <|
  .read "cumulative_borrow_interest" .int none <|
  .read "order_step_size" .int none <|
  .read "order_tick_size" .int none <|
  .read "min_order_size" .int none <|
  .read "max_token_deposits" .int none <|
  .read "initial_asset_weight" .int none <|
  .read "maintenance_asset_weight" .int none <|
  .read "initial_liability_weight" .int none <|
  .read "maintenance_liability_weight" .int none <|
  .read "imf_factor" .int none <|
  .read "liquidator_fee" .int none <|
  .read "if_liquidation_fee" .int none <|
  .read "optimal_utilization" .int none <|
  .read "optimal_borrow_rate" .int none <|
  .read "max_borrow_rate" .int none <|
  .read "decimals" .int none <|
  .read "orders_enabled" .bool none <|
  .read "oracle_source" (.variant OracleSource.enumeration) none <|
  .read "status" (.variant MarketStatus.enumeration) none <|
  .read "asset_tier" (.variant AssetTier.enumeration) none <|
  .readUnless "market_index" index .int none <|
  .readUnless "pubkey" pubkey (.optional .address) (some none) <|
  .nil

/-- The format of a spot market, with what is given of it. -/
def format (index : Option Int) (pubkey : Option (Option Address)) : Format SpotMarket :=
  .record (fields index pubkey) shape

end SpotMarket

namespace PerpMarket

/-- The fields of a perp market as a tuple. -/
abbrev Tuple : Type :=
  Amm × Buffer Name.capacity × Int × Int × Int × Int × Int × Int × Int × Int × MarketStatus ×
    ContractType × ContractTier × Int × Int × Int × Int × Option Address × Unit

/-- A perp market is the tuple of its fields. -/
def shape : Shape PerpMarket Tuple where
  pack := fun (amm, name, expiryTs, expiryPrice, imfFactor, unrealizedPnlImfFactor, liquidatorFee,
    ifLiquidationFee, marginRatioInitial, marginRatioMaintenance, status, contractType,
    contractTier, quoteSpotMarketIndex, highLeverageMarginRatioInitial,
    highLeverageMarginRatioMaintenance, marketIndex, pubkey, ()) =>
    ⟨amm, name, expiryTs, expiryPrice, imfFactor, unrealizedPnlImfFactor, liquidatorFee,
      ifLiquidationFee, marginRatioInitial, marginRatioMaintenance, status, contractType,
      contractTier, quoteSpotMarketIndex, highLeverageMarginRatioInitial,
      highLeverageMarginRatioMaintenance, marketIndex, pubkey⟩
  unpack m :=
    (m.amm, m.name, m.expiryTs, m.expiryPrice, m.imfFactor, m.unrealizedPnlImfFactor,
      m.liquidatorFee, m.ifLiquidationFee, m.marginRatioInitial, m.marginRatioMaintenance,
      m.status, m.contractType, m.contractTier, m.quoteSpotMarketIndex,
      m.highLeverageMarginRatioInitial, m.highLeverageMarginRatioMaintenance, m.marketIndex,
      m.pubkey, ())
  pack_unpack _ := rfl
  unpack_pack _ := rfl

/-- The fields of a perp market in json. The index is required and the public key may be absent,
unless they are given. -/
def fields (index : Option Int) (pubkey : Option (Option Address)) : Fields Tuple :=
  .read "amm" Amm.format none <|
  .read "name" (.buffer Name.capacity) none <|
  .read "expiry_ts" .int none <|
  .read "expiry_price" .int none <|
  .read "imf_factor" .int none <|
  .read "unrealized_pnl_imf_factor" .int none <|
  .read "liquidator_fee" .int none <|
  .read "if_liquidation_fee" .int none <|
  .read "margin_ratio_initial" .int none <|
  .read "margin_ratio_maintenance" .int none <|
  .read "status" (.variant MarketStatus.enumeration) none <|
  .read "contract_type" (.variant ContractType.enumeration) none <|
  .read "contract_tier" (.variant ContractTier.enumeration) none <|
  .read "quote_spot_market_index" .int none <|
  .read "high_leverage_margin_ratio_initial" .int none <|
  .read "high_leverage_margin_ratio_maintenance" .int none <|
  .readUnless "market_index" index .int none <|
  .readUnless "pubkey" pubkey (.optional .address) (some none) <|
  .nil

/-- The format of a perp market, with what is given of it. -/
def format (index : Option Int) (pubkey : Option (Option Address)) : Format PerpMarket :=
  .record (fields index pubkey) shape

end PerpMarket

end MarketRegistry
