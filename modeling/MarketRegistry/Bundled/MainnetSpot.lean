/-!
# The spot markets of the main network
-/

namespace MarketRegistry.Bundled

/-- The lines of the dump of the main network's spot markets. -/
def mainnetSpotLines : List String :=
  [
    "[",
    "  \x7b",
    "    \"account\": \x7b",
    "      \"oracle\": \"9VCioxmni2gDLv11qufWzT3RDERhQE4iY5Gf7NTfYyAV\",",
    "      \"mint\": \"EPjFWdd5AufqSSqeM2qN1xzybapC8G4wEGGkZwyTDt1v\",",
    "      \"name\": [85, 83, 68, 67, 32, 32, 32, 32, 32, 32, 32, 32, 32, 32, 32, 32, 32, 32, 32, 32, 32, 32, 32, 32, 32, 32, 32, 32, 32, 32, 32, 32],",
    "      \"historicalOracleData\": \x7b",
    "        \"lastOraclePrice\": \"0f4240\",",
    "        \"lastOracleConf\": \"64\",",
    "        \"lastOracleDelay\": \"00\",",
    "        \"lastOraclePriceTwap\": \"0f4240\",",
    "        \"lastOraclePriceTwap5Min\": \"0f4240\",",
    "        \"lastOraclePriceTwapTs\": \"6553f100\"",
    "      \x7d,",
    "      \"depositBalance\": \"2386f26fc10000\",",
    "      \"borrowBalance\": \"b1a2bc2ec50000\",",
    "      \"cumulativeDepositInterest\": \"02540be400\",",
    "      \"cumulativeBorrowInterest\": \"02540be400\",",
    "      \"orderStepSize\": \"01\",",
    "      \"orderTickSize\": \"01\",",
    "      \"minOrderSize\": \"01\",",
    "      \"maxTokenDeposits\": \"00\",",
    "      \"initialAssetWeight\": 10000,",
    "      \"maintenanceAssetWeight\": 10000,",
    "      \"initialLiabilityWeight\": 10000,",
    "      \"maintenanceLiabilityWeight\": 10000,",
    "      \"imfFactor\": 0,",
    "      \"liquidatorFee\": 0,",
    "      \"ifLiquidationFee\": 0,",
    "      \"optimalUtilization\": 800000,",
    "      \"optimalBorrowRate\": 50000,",
    "      \"maxBorrowRate\": 1000000,",
    "      \"decimals\": 6,",
    "      \"ordersEnabled\": true,",
    "      \"oracleSource\": \x7b",
    "        \"pythLazerStableCoin\": \x7b\x7d",
    "      \x7d,",
    "      \"status\": \x7b",
    "        \"active\": \x7b\x7d",
    "      \x7d,",
    "      \"assetTier\": \x7b",
    "        \"collateral\": \x7b\x7d",
    "      \x7d",
    "    \x7d",
    "  \x7d,",
    "  \x7b",
    "    \"account\": \x7b",
    "      \"oracle\": \"3m6i4RFWEDw2Ft4tFHPJtYgmpPe21k56M3FHeWYrgGBz\",",
    "      \"mint\": \"So11111111111111111111111111111111111111112\",",
    "      \"name\": [83, 79, 76, 32, 32, 32, 32, 32, 32, 32, 32, 32, 32, 32, 32, 32, 32, 32, 32, 32, 32, 32, 32, 32, 32, 32, 32, 32, 32, 32, 32, 32],",
    "      \"historicalOracleData\": \x7b",
    "        \"lastOraclePrice\": \"08f0d180\",",
    "        \"lastOracleConf\": \"3d0900\",",
    "        \"lastOracleDelay\": \"-01\",",
    "        \"lastOraclePriceTwap\": \"08f0d180\",",
    "        \"lastOraclePriceTwap5Min\": \"08f0d180\",",
    "        \"lastOraclePriceTwapTs\": \"6553f100\"",
    "      \x7d,",
    "      \"depositBalance\": \"0de0b6b3a7640000\",",
    "      \"borrowBalance\": \"2386f26fc10000\",",
    "      \"cumulativeDepositInterest\": \"02540be400\",",
    "      \"cumulativeBorrowInterest\": \"02540be400\",",
    "      \"orderStepSize\": \"989680\",",
    "      \"orderTickSize\": \"64\",",
    "      \"minOrderSize\": \"989680\",",
    "      \"maxTokenDeposits\": \"00\",",
    "      \"initialAssetWeight\": 8000,",
    "      \"maintenanceAssetWeight\": 9000,",
    "      \"initialLiabilityWeight\": 12000,",
    "      \"maintenanceLiabilityWeight\": 11000,",
    "      \"imfFactor\": 0,",
    "      \"liquidatorFee\": 50000,",
    "      \"ifLiquidationFee\": 50000,",
    "      \"optimalUtilization\": 800000,",
    "      \"optimalBorrowRate\": 50000,",
    "      \"maxBorrowRate\": 1000000,",
    "      \"decimals\": 9,",
    "      \"ordersEnabled\": true,",
    "      \"oracleSource\": \x7b",
    "        \"pythLazer\": \x7b\x7d",
    "      \x7d,",
    "      \"status\": \x7b",
    "        \"active\": \x7b\x7d",
    "      \x7d,",
    "      \"assetTier\": \x7b",
    "        \"protected\": \x7b\x7d",
    "      \x7d",
    "    \x7d",
    "  \x7d,",
    "  \x7b",
    "    \"account\": \x7b",
    "      \"oracle\": \"FAq7hqjn7FWGXKDwJHzsXGgBcydGTcK4kziJpAGWXjDb\",",
    "      \"mint\": \"mSoLzYCxHdYgdzU16g5QSh3i5K3z3KZK7ytfqcJm7So\",",
    "      \"name\": [109, 83, 79, 76, 32, 32, 32, 32, 32, 32, 32, 32, 32, 32, 32, 32, 32, 32, 32, 32, 32, 32, 32, 32, 32, 32, 32, 32, 32, 32, 32, 32],",
    "      \"historicalOracleData\": \x7b",
    "        \"lastOraclePrice\": \"0aba9500\",",
    "        \"lastOracleConf\": \"3d0900\",",
    "        \"lastOracleDelay\": \"00\",",
    "        \"lastOraclePriceTwap\": \"0aba9500\",",
    "        \"lastOraclePriceTwap5Min\": \"0aba9500\",",
    "        \"lastOraclePriceTwapTs\": \"6553f100\"",
    "      \x7d,",
    "      \"depositBalance\": \"2386f26fc10000\",",
    "      \"borrowBalance\": \"00\",",
    "      \"cumulativeDepositInterest\": \"02540be400\",",
    "      \"cumulativeBorrowInterest\": \"02540be400\",",
    "      \"orderStepSize\": \"989680\",",
    "      \"orderTickSize\": \"64\",",
    "      \"minOrderSize\": \"989680\",",
    "      \"maxTokenDeposits\": \"00\",",
    "      \"initialAssetWeight\": 7500,",
    "      \"maintenanceAssetWeight\": 8500,",
    "      \"initialLiabilityWeight\": 12500,",
    "      \"maintenanceLiabilityWeight\": 11500,",
    "      \"imfFactor\": 0,",
    "      \"liquidatorFee\": 50000,",
    "      \"ifLiquidationFee\": 50000,",
    "      \"optimalUtilization\": 800000,",
    "      \"optimalBorrowRate\": 50000,",
    "      \"maxBorrowRate\": 1000000,",
    "      \"decimals\": 9,",
    "      \"ordersEnabled\": true,",
    "      \"oracleSource\": \x7b",
    "        \"pythPull\": \x7b\x7d",
    "      \x7d,",
    "      \"status\": \x7b",
    "        \"active\": \x7b\x7d",
    "      \x7d,",
    "      \"assetTier\": \x7b",
    "        \"cross\": \x7b\x7d",
    "      \x7d",
    "    \x7d",
    "  \x7d,",
    "  \x7b",
    "    \"account\": \x7b",
    "      \"oracle\": \"fqPfDa6uQr9ndMvwaFp4mUBeUrHmLop8Jxfb1XJNmVm\",",
    "      \"mint\": \"3NZ9JMVBmGAqocybic2c7LQCJScmgsAZ6vQqTDzcqmJh\",",
    "      \"name\": [119, 66, 84, 67, 32, 32, 32, 32, 32, 32, 32, 32, 32, 32, 32, 32, 32, 32, 32, 32, 32, 32, 32, 32, 32, 32, 32, 32, 32, 32, 32, 32],",
    "      \"historicalOracleData\": \x7b",
    "        \"lastOraclePrice\": \"0df8475800\",",
    "        \"lastOracleConf\": \"3d0900\",",
    "        \"lastOracleDelay\": \"00\",",
    "        \"lastOraclePriceTwap\": \"0df8475800\",",
    "        \"lastOraclePriceTwap5Min\": \"0df8475800\",",
    "        \"lastOraclePriceTwapTs\": \"6553f100\"",
    "      \x7d,",
    "      \"depositBalance\": \"05f5e100\",",
    "      \"borrowBalance\": \"00\",",
    "      \"cumulativeDepositInterest\": \"02540be400\",",
    "      \"cumulativeBorrowInterest\": \"02540be400\",",
    "      \"orderStepSize\": \"2710\",",
    "      \"orderTickSize\": \"64\",",
    "      \"minOrderSize\": \"2710\",",
    "      \"maxTokenDeposits\": \"00\",",
    "      \"initialAssetWeight\": 8000,",
    "      \"maintenanceAssetWeight\": 8500,",
    "      \"initialLiabilityWeight\": 12000,",
    "      \"maintenanceLiabilityWeight\": 11500,",
    "      \"imfFactor\": 0,",
    "      \"liquidatorFee\": 50000,",
    "      \"ifLiquidationFee\": 50000,",
    "      \"optimalUtilization\": 800000,",
    "      \"optimalBorrowRate\": 50000,",
    "      \"maxBorrowRate\": 1000000,",
    "      \"decimals\": 8,",
    "      \"ordersEnabled\": true,",
    "      \"oracleSource\": \x7b",
    "        \"pythLazer\": \x7b\x7d",
    "      \x7d,",
    "      \"status\": \x7b",
    "        \"active\": \x7b\x7d",
    "      \x7d,",
    "      \"assetTier\": \x7b",
    "        \"cross\": \x7b\x7d",
    "      \x7d",
    "    \x7d",
    "  \x7d,",
    "  \x7b",
    "    \"account\": \x7b",
    "      \"oracle\": \"6bEp2MiyoiiiDxcVqE8rUHQWwHirXUXtKfAEATTVqNzT\",",
    "      \"mint\": \"7vfCXTUXx5WJV5JADk17DUJ4ksgau7utNKj4b963voxs\",",
    "      \"name\": [119, 69, 84, 72, 32, 32, 32, 32, 32, 32, 32, 32, 32, 32, 32, 32, 32, 32, 32, 32, 32, 32, 32, 32, 32, 32, 32, 32, 32, 32, 32, 32],",
    "      \"historicalOracleData\": \x7b",
    "        \"lastOraclePrice\": \"b2d05e00\",",
    "        \"lastOracleConf\": \"3d0900\",",
    "        \"lastOracleDelay\": \"00\",",
    "        \"lastOraclePriceTwap\": \"b2d05e00\",",
    "        \"lastOraclePriceTwap5Min\": \"b2d05e00\",",
    "        \"lastOraclePriceTwapTs\": \"6553f100\"",
    "      \x7d,",
    "      \"depositBalance\": \"05f5e100\",",
    "      \"borrowBalance\": \"00\",",
    "      \"cumulativeDepositInterest\": \"02540be400\",",
    "      \"cumulativeBorrowInterest\": \"02540be400\",",
    "      \"orderStepSize\": \"0186a0\",",
    "      \"orderTickSize\": \"64\",",
    "      \"minOrderSize\": \"0186a0\",",
    "      \"maxTokenDeposits\": \"00\",",
    "      \"initialAssetWeight\": 8000,",
    "      \"maintenanceAssetWeight\": 8500,",
    "      \"initialLiabilityWeight\": 12000,",
    "      \"maintenanceLiabilityWeight\": 11500,",
    "      \"imfFactor\": 0,",
    "      \"liquidatorFee\": 50000,",
    "      \"ifLiquidationFee\": 50000,",
    "      \"optimalUtilization\": 800000,",
    "      \"optimalBorrowRate\": 50000,",
    "      \"maxBorrowRate\": 1000000,",
    "      \"decimals\": 8,",
    "      \"ordersEnabled\": true,",
    "      \"oracleSource\": \x7b",
    "        \"pythPull\": \x7b\x7d",
    "      \x7d,",
    "      \"status\": \x7b",
    "        \"active\": \x7b\x7d",
    "      \x7d,",
    "      \"assetTier\": \x7b",
    "        \"cross\": \x7b\x7d",
    "      \x7d",
    "    \x7d",
    "  \x7d",
    "]",
    ""
  ]

end MarketRegistry.Bundled
