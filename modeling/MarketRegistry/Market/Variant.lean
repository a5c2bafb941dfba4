import MarketRegistry.Format.Basic

/-!
# The enumerations of a market

The variants that the accounts of the exchange use, with their labels.
-/

namespace MarketRegistry

/-- Where the price of an asset comes from. -/
inductive OracleSource where
  | pyth
  | switchboard
  | quoteAsset
  | pyth1K
  | pyth1M
  | pythStableCoin
  | prelaunch
  | pythPull
  | pyth1KPull
  | pyth1MPull
  | pythStableCoinPull
  | switchboardOnDemand
  | pythLazer
  | pythLazer1K
  | pythLazer1M
  | pythLazerStableCoin
  deriving DecidableEq, Repr

namespace OracleSource

/-- The label of a variant. -/
def label : OracleSource → String
  | pyth => "Pyth"
  | switchboard => "Switchboard"
  | quoteAsset => "QuoteAsset"
  | pyth1K => "Pyth1K"
  | pyth1M => "Pyth1M"
  | pythStableCoin => "PythStableCoin"
  | prelaunch => "Prelaunch"
  | pythPull => "PythPull"
  | pyth1KPull => "Pyth1KPull"
  | pyth1MPull => "Pyth1MPull"
  | pythStableCoinPull => "PythStableCoinPull"
  | switchboardOnDemand => "SwitchboardOnDemand"
  | pythLazer => "PythLazer"
  | pythLazer1K => "PythLazer1K"
  | pythLazer1M => "PythLazer1M"
  | pythLazerStableCoin => "PythLazerStableCoin"

/-- The variants with their labels. -/
def enumeration : Enumeration OracleSource where
  name := "OracleSource"
  variants :=
    [.pyth, .switchboard, .quoteAsset, .pyth1K, .pyth1M, .pythStableCoin, .prelaunch, .pythPull,
      .pyth1KPull, .pyth1MPull, .pythStableCoinPull, .switchboardOnDemand, .pythLazer,
      .pythLazer1K, .pythLazer1M, .pythLazerStableCoin]
  label := label
  complete v := by cases v <;> decide
  nodup_labels := by decide
  isLabel_label v := by cases v <;> decide

end OracleSource

/-- What a market allows at present. -/
inductive MarketStatus where
  | initialized
  | active
  | fundingPaused
  | ammPaused
  | fillPaused
  | withdrawPaused
  | reduceOnly
  | settlement
  | delisted
  deriving DecidableEq, Repr

namespace MarketStatus

/-- The label of a variant. -/
def label : MarketStatus → String
  | initialized => "Initialized"
  | active => "Active"
  | fundingPaused => "FundingPaused"
  | ammPaused => "AmmPaused"
  | fillPaused => "FillPaused"
  | withdrawPaused => "WithdrawPaused"
  | reduceOnly => "ReduceOnly"
  | settlement => "Settlement"
  | delisted => "Delisted"

/-- The variants with their labels. -/
def enumeration : Enumeration MarketStatus where
  name := "MarketStatus"
  variants :=
    [.initialized, .active, .fundingPaused, .ammPaused, .fillPaused, .withdrawPaused,
      .reduceOnly, .settlement, .delisted]
  label := label
  complete v := by cases v <;> decide
  nodup_labels := by decide
  isLabel_label v := by cases v <;> decide

end MarketStatus

/-- The kind of a contract. -/
inductive ContractType where
  | perpetual
  | future
  | prediction
  deriving DecidableEq, Repr

namespace ContractType

/-- The label of a variant. -/
def label : ContractType → String
  | perpetual => "Perpetual"
  | future => "Future"
  | prediction => "Prediction"

/-- The variants with their labels. -/
def enumeration : Enumeration ContractType where
  name := "ContractType"
  variants :=
    [.perpetual, .future, .prediction]
  label := label
  complete v := by cases v <;> decide
  nodup_labels := by decide
  isLabel_label v := by cases v <;> decide

end ContractType

/-- How well a contract is insured. -/
inductive ContractTier where
  | a
  | b
  | c
  | speculative
  | highlySpeculative
  | isolated
  deriving DecidableEq, Repr

namespace ContractTier

/-- The label of a variant. -/
def label : ContractTier → String
  | a => "A"
  | b => "B"
  | c => "C"
  | speculative => "Speculative"
  | highlySpeculative => "HighlySpeculative"
  | isolated => "Isolated"

/-- The variants with their labels. -/
def enumeration : Enumeration ContractTier where
  name := "ContractTier"
  variants :=
    [.a, .b, .c, .speculative, .highlySpeculative, .isolated]
  label := label
  complete v := by cases v <;> decide
  nodup_labels := by decide
  isLabel_label v := by cases v <;> decide

end ContractTier

/-- What an asset may be used for. -/
inductive AssetTier where
  | collateral
  | protectedTier
  | cross
  | isolated
  | unlisted
  deriving DecidableEq, Repr

namespace AssetTier

/-- The label of a variant. -/
def label : AssetTier → String
  | collateral => "Collateral"
  | protectedTier => "Protected"
  | cross => "Cross"
  | isolated => "Isolated"
  | unlisted => "Unlisted"

/-- The variants with their labels. -/
def enumeration : Enumeration AssetTier where
  name := "AssetTier"
  variants :=
    [.collateral, .protectedTier, .cross, .isolated, .unlisted]
  label := label
  complete v := by cases v <;> decide
  nodup_labels := by decide
  isLabel_label v := by cases v <;> decide

end AssetTier

end MarketRegistry
