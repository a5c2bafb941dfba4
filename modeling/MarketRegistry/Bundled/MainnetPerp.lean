/-!
# The perp markets of the main network
-/

namespace MarketRegistry.Bundled

/-- The lines of the dump of the main network's perp markets. -/
def mainnetPerpLines : List String :=
  [
    "[",
    "  \x7b",
    "    \"account\": \x7b",
    "      \"amm\": \x7b",
    "        \"oracle\": \"3m6i4RFWEDw2Ft4tFHPJtYgmpPe21k56M3FHeWYrgGBz\",",
    "        \"historicalOracleData\": \x7b",
    "          \"lastOraclePrice\": \"08f0d180\",",
    "          \"lastOracleConf\": \"3d0900\",",
    "          \"lastOracleDelay\": \"-01\",",
    "          \"lastOraclePriceTwap\": \"08f0d180\",",
    "          \"lastOraclePriceTwap5Min\": \"08f0d180\",",
    "          \"lastOraclePriceTwapTs\": \"6553f100\"",
    "        \x7d,",
    "        \"baseAssetReserve\": \"0de0b6b3a7640000\",",
    "        \"quoteAssetReserve\": \"0de0b6b3a7640000\",",
    "        \"sqrtK\": \"0de0b6b3a7640000\",",
    "        \"pegMultiplier\": \"08f0d180\",",
    "        \"orderStepSize\": \"989680\",",
    "        \"orderTickSize\": \"64\",",
    "        \"minOrderSize\": \"989680\",",
    "        \"fundingPeriod\": \"0e10\",",
    "        \"lastFundingRate\": \"-03e8\",",
    "        \"last24HAvgFundingRate\": \"01f4\",",
    "        \"lastMarkPriceTwap\": \"08f0d180\",",
    "        \"lastMarkPriceTwap5Min\": \"08f0d180\",",
    "        \"volume24H\": \"2386f26fc10000\",",
    "        \"baseSpread\": 250,",
    "        \"maxSpread\": 20000,",
    "        \"oracleSource\": \x7b",
    "          \"pythLazer\": \x7b\x7d",
    "        \x7d",
    "      \x7d,",
    "      \"name\": [83, 79, 76, 45, 80, 69, 82, 80, 32, 32, 32, 32, 32, 32, 32, 32, 32, 32, 32, 32, 32, 32, 32, 32, 32, 32, 32, 32, 32, 32, 32, 32],",
    "      \"expiryTs\": \"00\",",
    "      \"expiryPrice\": \"00\",",
    "      \"imfFactor\": 0,",
    "      \"unrealizedPnlImfFactor\": 0,",
    "      \"liquidatorFee\": 10000,",
    "      \"ifLiquidationFee\": 10000,",
    "      \"marginRatioInitial\": 1000,",
    "      \"marginRatioMaintenance\": 500,",
    "      \"status\": \x7b",
    "        \"active\": \x7b\x7d",
    "      \x7d,",
    "      \"contractType\": \x7b",
    "        \"perpetual\": \x7b\x7d",
    "      \x7d,",
    "      \"contractTier\": \x7b",
    "        \"a\": \x7b\x7d",
    "      \x7d,",
    "      \"quoteSpotMarketIndex\": 0,",
    "      \"highLeverageMarginRatioInitial\": 0,",
    "      \"highLeverageMarginRatioMaintenance\": 0",
    "    \x7d",
    "  \x7d,",
    "  \x7b",
    "    \"account\": \x7b",
    "      \"amm\": \x7b",
    "        \"oracle\": \"35MbvS1Juz2wf7GsyHrkCw8yfKciRLxVpEhfZDZFrB4R\",",
    "        \"historicalOracleData\": \x7b",
    "          \"lastOraclePrice\": \"0df8475800\",",
    "          \"lastOracleConf\": \"3d0900\",",
    "          \"lastOracleDelay\": \"-01\",",
    "          \"lastOraclePriceTwap\": \"0df8475800\",",
    "          \"lastOraclePriceTwap5Min\": \"0df8475800\",",
    "          \"lastOraclePriceTwapTs\": \"6553f100\"",
    "        \x7d,",
    "        \"baseAssetReserve\": \"0de0b6b3a7640000\",",
    "        \"quoteAssetReserve\": \"0de0b6b3a7640000\",",
    "        \"sqrtK\": \"0de0b6b3a7640000\",",
    "        \"pegMultiplier\": \"0df8475800\",",
    "        \"orderStepSize\": \"0186a0\",",
    "        \"orderTickSize\": \"64\",",
    "        \"minOrderSize\": \"0186a0\",",
    "        \"fundingPeriod\": \"0e10\",",
    "        \"lastFundingRate\": \"03e8\",",
    "        \"last24HAvgFundingRate\": \"01f4\",",
    "        \"lastMarkPriceTwap\": \"0df8475800\",",
    "        \"lastMarkPriceTwap5Min\": \"0df8475800\",",
    "        \"volume24H\": \"2386f26fc10000\",",
    "        \"baseSpread\": 250,",
    "        \"maxSpread\": 20000,",
    "        \"oracleSource\": \x7b",
    "          \"pythLazer\": \x7b\x7d",
    "        \x7d",
    "      \x7d,",
    "      \"name\": [66, 84, 67, 45, 80, 69, 82, 80, 32, 32, 32, 32, 32, 32, 32, 32, 32, 32, 32, 32, 32, 32, 32, 32, 32, 32, 32, 32, 32, 32, 32, 32],",
    "      \"expiryTs\": \"00\",",
    "      \"expiryPrice\": \"00\",",
    "      \"imfFactor\": 0,",
    "      \"unrealizedPnlImfFactor\": 0,",
    "      \"liquidatorFee\": 10000,",
    "      \"ifLiquidationFee\": 10000,",
    "      \"marginRatioInitial\": 1000,",
    "      \"marginRatioMaintenance\": 500,",
    "      \"status\": \x7b",
    "        \"active\": \x7b\x7d",
    "      \x7d,",
    "      \"contractType\": \x7b",
    "        \"perpetual\": \x7b\x7d",
    "      \x7d,",
    "      \"contractTier\": \x7b",
    "        \"a\": \x7b\x7d",
    "      \x7d,",
    "      \"quoteSpotMarketIndex\": 0,",
    "      \"highLeverageMarginRatioInitial\": 0,",
    "      \"highLeverageMarginRatioMaintenance\": 0",
    "    \x7d",
    "  \x7d,",
    "  \x7b",
    "    \"account\": \x7b",
    "      \"amm\": \x7b",
    "        \"oracle\": \"93FG52TzNKCnMiasV14Ba34BYcHDb9p4zK4GjZnLwqWR\",",
    "        \"historicalOracleData\": \x7b",
    "          \"lastOraclePrice\": \"b2d05e00\",",
    "          \"lastOracleConf\": \"3d0900\",",
    "          \"lastOracleDelay\": \"-01\",",
    "          \"lastOraclePriceTwap\": \"b2d05e00\",",
    "          \"lastOraclePriceTwap5Min\": \"b2d05e00\",",
    "          \"lastOraclePriceTwapTs\": \"6553f100\"",
    "        \x7d,",
    "        \"baseAssetReserve\": \"0de0b6b3a7640000\",",
    "        \"quoteAssetReserve\": \"0de0b6b3a7640000\",",
    "        \"sqrtK\": \"0de0b6b3a7640000\",",
    "        \"pegMultiplier\": \"b2d05e00\",",
    "        \"orderStepSize\": \"0f4240\",",
    "        \"orderTickSize\": \"64\",",
    "        \"minOrderSize\": \"0f4240\",",
    "        \"fundingPeriod\": \"0e10\",",
    "        \"lastFundingRate\": \"00\",",
    "        \"last24HAvgFundingRate\": \"01f4\",",
    "        \"lastMarkPriceTwap\": \"b2d05e00\",",
    "        \"lastMarkPriceTwap5Min\": \"b2d05e00\",",
    "        \"volume24H\": \"2386f26fc10000\",",
    "        \"baseSpread\": 250,",
    "        \"maxSpread\": 20000,",
    "        \"oracleSource\": \x7b",
    "          \"pythLazer\": \x7b\x7d",
    "        \x7d",
    "      \x7d,",
    "      \"name\": [69, 84, 72, 45, 80, 69, 82, 80, 32, 32, 32, 32, 32, 32, 32, 32, 32, 32, 32, 32, 32, 32, 32, 32, 32, 32, 32, 32, 32, 32, 32, 32],",
    "      \"expiryTs\": \"00\",",
    "      \"expiryPrice\": \"00\",",
    "      \"imfFactor\": 0,",
    "      \"unrealizedPnlImfFactor\": 0,",
    "      \"liquidatorFee\": 10000,",
    "      \"ifLiquidationFee\": 10000,",
    "      \"marginRatioInitial\": 1000,",
    "      \"marginRatioMaintenance\": 500,",
    "      \"status\": \x7b",
    "        \"active\": \x7b\x7d",
    "      \x7d,",
    "      \"contractType\": \x7b",
    "        \"perpetual\": \x7b\x7d",
    "      \x7d,",
    "      \"contractTier\": \x7b",
    "        \"a\": \x7b\x7d",
    "      \x7d,",
    "      \"quoteSpotMarketIndex\": 0,",
    "      \"highLeverageMarginRatioInitial\": 0,",
    "      \"highLeverageMarginRatioMaintenance\": 0",
    "    \x7d",
    "  \x7d,",
    "  \x7b",
    "    \"account\": \x7b",
    "      \"amm\": \x7b",
    "        \"oracle\": \"CXZhzKePYajrZgZyrzgvHYFKK3c5tNgDrRobAgySo8Nb\",",
    "        \"historicalOracleData\": \x7b",
    "          \"lastOraclePrice\": \"7a1200\",",
    "          \"lastOracleConf\": \"2710\",",
    "          \"lastOracleDelay\": \"-01\",",
    "          \"lastOraclePriceTwap\": \"7a1200\",",
    "          \"lastOraclePriceTwap5Min\": \"7a1200\",",
    "          \"lastOraclePriceTwapTs\": \"6553f100\"",
    "        \x7d,",
    "        \"baseAssetReserve\": \"0de0b6b3a7640000\",",
    "        \"quoteAssetReserve\": \"0de0b6b3a7640000\",",
    "        \"sqrtK\": \"0de0b6b3a7640000\",",
    "        \"pegMultiplier\": \"7a1200\",",
    "        \"orderStepSize\": \"0f4240\",",
    "        \"orderTickSize\": \"64\",",
    "        \"minOrderSize\": \"0f4240\",",
    "        \"fundingPeriod\": \"0e10\",",
    "        \"lastFundingRate\": \"-01f4\",",
    "        \"last24HAvgFundingRate\": \"01f4\",",
    "        \"lastMarkPriceTwap\": \"7a1200\",",
    "        \"lastMarkPriceTwap5Min\": \"7a1200\",",
    "        \"volume24H\": \"2386f26fc10000\",",
    "        \"baseSpread\": 250,",
    "        \"maxSpread\": 20000,",
    "        \"oracleSource\": \x7b",
    "          \"pythPull\": \x7b\x7d",
    "        \x7d",
    "      \x7d,",
    "      \"name\": [65, 80, 84, 45, 80, 69, 82, 80, 32, 32, 32, 32, 32, 32, 32, 32, 32, 32, 32, 32, 32, 32, 32, 32, 32, 32, 32, 32, 32, 32, 32, 32],",
    "      \"expiryTs\": \"00\",",
    "      \"expiryPrice\": \"00\",",
    "      \"imfFactor\": 0,",
    "      \"unrealizedPnlImfFactor\": 0,",
    "      \"liquidatorFee\": 10000,",
    "      \"ifLiquidationFee\": 10000,",
    "      \"marginRatioInitial\": 1000,",
    "      \"marginRatioMaintenance\": 500,",
    "      \"status\": \x7b",
    "        \"active\": \x7b\x7d",
    "      \x7d,",
    "      \"contractType\": \x7b",
    "        \"perpetual\": \x7b\x7d",
    "      \x7d,",
    "      \"contractTier\": \x7b",
    "        \"c\": \x7b\x7d",
    "      \x7d,",
    "      \"quoteSpotMarketIndex\": 0,",
    "      \"highLeverageMarginRatioInitial\": 0,",
    "      \"highLeverageMarginRatioMaintenance\": 0",
    "    \x7d",
    "  \x7d",
    "]",
    ""
  ]

end MarketRegistry.Bundled
