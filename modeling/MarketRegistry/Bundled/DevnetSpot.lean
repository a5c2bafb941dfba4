/-!
# The spot markets of the development network
-/

namespace MarketRegistry.Bundled

/-- The lines of the dump of the development network's spot markets. -/
def devnetSpotLines : List String :=
  [
    "[",
    "  \x7b",
    "    \"account\": \x7b",
    "      \"oracle\": \"En8hkHLkRe9d9DraYmBTrus518BvmVH448YcvmrFM6Ce\",",
    "      \"mint\": \"8zGuJQqwhZafTah7Uc7Z4tXRnguqkn5KLFAP8oV6PHe2\",",
    "      \"name\": [85, 83, 68, 67, 32, 32, 32, 32, 32, 32, 32, 32, 32, 32, 32, 32, 32, 32, 32, 32, 32, 32, 32, 32, 32, 32, 32, 32, 32, 32, 32, 32],",
    "      \"historicalOracleData\": \x7b",
    "        \"lastOraclePrice\": \"0f4240\",",
    "        \"lastOracleConf\": \"64\",",
    "        \"lastOracleDelay\": \"00\",",
    "        \"lastOraclePriceTwap\": \"0f4240\",",
    "        \"lastOraclePriceTwap5Min\": \"0f4240\",",
    "        \"lastOraclePriceTwapTs\": \"6553f100\"",
    "      \x7d,",
    "      \"depositBalance\": \"2386f26fc10000\",",
    "      \"borrowBalance\": \"b1a2bc2ec50000\",",
    "      \"cumulativeDepositInterest\": \"02540be400\",",
    "      \"cumulativeBorrowInterest\": \"02540be400\",",
    "      \"orderStepSize\": \"01\",",
    "      \"orderTickSize\": \"01\",",
    "      \"minOrderSize\": \"01\",",
    "      \"maxTokenDeposits\": \"00\",",
    "      \"initialAssetWeight\": 10000,",
    "      \"maintenanceAssetWeight\": 10000,",
    "      \"initialLiabilityWeight\": 10000,",
    "      \"maintenanceLiabilityWeight\": 10000,",
    "      \"imfFactor\": 0,",
    "      \"liquidatorFee\": 0,",
    "      \"ifLiquidationFee\": 0,",
    "      \"optimalUtilization\": 800000,",
    "      \"optimalBorrowRate\": 50000,",
    "      \"maxBorrowRate\": 1000000,",
    "      \"decimals\": 6,",
    "      \"ordersEnabled\": true,",
    "      \"oracleSource\": \x7b",
    "        \"pythStableCoinPull\": \x7b\x7d",
    "      \x7d,",
    "      \"status\": \x7b",
    "        \"active\": \x7b\x7d",
    "      \x7d,",
    "      \"assetTier\": \x7b",
    "        \"collateral\": \x7b\x7d",
    "      \x7d",
    "    \x7d",
    "  \x7d,",
    "  \x7b",
    "    \"account\": \x7b",
    "      \"oracle\": \"BAtFj4kQttZRVep3UZS2aZRDixkGYgWsbqTBVDbnSsPF\",",
    "      \"mint\": \"So11111111111111111111111111111111111111112\",",
    "      \"name\": [83, 79, 76, 32, 32, 32, 32, 32, 32, 32, 32, 32, 32, 32, 32, 32, 32, 32, 32, 32, 32, 32, 32, 32, 32, 32, 32, 32, 32, 32, 32, 32],",
    "      \"historicalOracleData\": \x7b",
    "        \"lastOraclePrice\": \"08f0d180\",",
    "        \"lastOracleConf\": \"3d0900\",",
    "        \"lastOracleDelay\": \"-01\",",
    "        \"lastOraclePriceTwap\": \"08f0d180\",",
    "        \"lastOraclePriceTwap5Min\": \"08f0d180\",",
    "        \"lastOraclePriceTwapTs\": \"6553f100\"",
    "      \x7d,",
    "      \"depositBalance\": \"0de0b6b3a7640000\",",
    "      \"borrowBalance\": \"2386f26fc10000\",",
    "      \"cumulativeDepositInterest\": \"02540be400\",",
    "      \"cumulativeBorrowInterest\": \"02540be400\",",
    "      \"orderStepSize\": \"989680\",",
    "      \"orderTickSize\": \"64\",",
    "      \"minOrderSize\": \"989680\",",
    "      \"maxTokenDeposits\": \"00\",",
    "      \"initialAssetWeight\": 8000,",
    "      \"maintenanceAssetWeight\": 9000,",
    "      \"initialLiabilityWeight\": 12000,",
    "      \"maintenanceLiabilityWeight\": 11000,",
    "      \"imfFactor\": 0,",
    "      \"liquidatorFee\": 50000,",
    "      \"ifLiquidationFee\": 50000,",
    "      \"optimalUtilization\": 800000,",
    "      \"optimalBorrowRate\": 50000,",
    "      \"maxBorrowRate\": 1000000,",
    "      \"decimals\": 9,",
    "      \"ordersEnabled\": true,",
    "      \"oracleSource\": \x7b",
    "        \"pythPull\": \x7b\x7d",
    "      \x7d,",
    "      \"status\": \x7b",
    "        \"active\": \x7b\x7d",
    "      \x7d,",
    "      \"assetTier\": \x7b",
    "        \"protected\": \x7b\x7d",
    "      \x7d",
    "    \x7d",
    "  \x7d,",
    "  \x7b",
    "    \"account\": \x7b",
    "      \"oracle\": \"486kr3pmFPfTsS4aZgcsQ7kS4i9rjMsYYZup6HQNSTT4\",",
    "      \"mint\": \"3BZPwbcqB5kKScF3TEXxwNfx5ipV13kbRVDvfVp5c6fv\",",
    "      \"name\": [66, 84, 67, 32, 32, 32, 32, 32, 32, 32, 32, 32, 32, 32, 32, 32, 32, 32, 32, 32, 32, 32, 32, 32, 32, 32, 32, 32, 32, 32, 32, 32],",
    "      \"historicalOracleData\": \x7b",
    "        \"lastOraclePrice\": \"0df8475800\",",
    "        \"lastOracleConf\": \"3d0900\",",
    "        \"lastOracleDelay\": \"00\",",
    "        \"lastOraclePriceTwap\": \"0df8475800\",",
    "        \"lastOraclePriceTwap5Min\": \"0df8475800\",",
    "        \"lastOraclePriceTwapTs\": \"6553f100\"",
    "      \x7d,",
    "      \"depositBalance\": \"05f5e100\",",
    "      \"borrowBalance\": \"00\",",
    "      \"cumulativeDepositInterest\": \"02540be400\",",
    "      \"cumulativeBorrowInterest\": \"02540be400\",",
    "      \"orderStepSize\": \"2710\",",
    "      \"orderTickSize\": \"64\",",
    "      \"minOrderSize\": \"2710\",",
    "      \"maxTokenDeposits\": \"00\",",
    "      \"initialAssetWeight\": 8000,",
    "      \"maintenanceAssetWeight\": 8500,",
    "      \"initialLiabilityWeight\": 12000,",
    "      \"maintenanceLiabilityWeight\": 11500,",
    "      \"imfFactor\": 0,",
    "      \"liquidatorFee\": 50000,",
    "      \"ifLiquidationFee\": 50000,",
    "      \"optimalUtilization\": 800000,",
    "      \"optimalBorrowRate\": 50000,",
    "      \"maxBorrowRate\": 1000000,",
    "      \"decimals\": 6,",
    "      \"ordersEnabled\": true,",
    "      \"oracleSource\": \x7b",
    "        \"pythPull\": \x7b\x7d",
    "      \x7d,",
    "      \"status\": \x7b",
    "        \"active\": \x7b\x7d",
    "      \x7d,",
    "      \"assetTier\": \x7b",
    "        \"cross\": \x7b\x7d",
    "      \x7d",
    "    \x7d",
    "  \x7d",
    "]",
    ""
  ]

end MarketRegistry.Bundled
