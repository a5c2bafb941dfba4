import MarketRegistry.Market.Format
import MarketRegistry.Proofs.Format.Exact

/-!
# The formats of markets are exact

The records of the market accounts are decoded from their written forms, and from nothing else,
whatever is given of a market.

## Main results

* `SpotMarket.withGiven`, `PerpMarket.withGiven` — markets with what is given of them.
* `market_formats_exact` — all four formats are exact.
-/

namespace MarketRegistry

/-- A spot market with the index and the public key that are given. -/
def SpotMarket.withGiven (index : Option Int) (pubkey : Option (Option Address))
    (m : SpotMarket) : SpotMarket :=
  { m with marketIndex := index.getD m.marketIndex, pubkey := pubkey.getD m.pubkey }

/-- A perp market with the index and the public key that are given. -/
def PerpMarket.withGiven (index : Option Int) (pubkey : Option (Option Address))
    (m : PerpMarket) : PerpMarket :=
  { m with marketIndex := index.getD m.marketIndex, pubkey := pubkey.getD m.pubkey }

theorem HistoricalOracleData.wellFormed_format : format.WellFormed := by
  refine ⟨?_, by decide⟩
  simp only [fields, Fields.WellFormed, Format.WellFormed, Option.map_none, and_true, true_and]
  decide

theorem Amm.wellFormed_format : format.WellFormed := by
  refine ⟨?_, by decide⟩
  simp only [fields, Fields.WellFormed, Format.WellFormed, Option.map_none, and_true, true_and,
    HistoricalOracleData.wellFormed_format]
  decide

/-- The last two fields of a market: its index and its public key. -/
theorem wellFormed_placed (index : Option Int) (pubkey : Option (Option Address)) :
    (Fields.readUnless "market_index" index .int none <|
      .readUnless "pubkey" pubkey (.optional .address) (some none) .nil).WellFormed := by
  have hindex : isSnakeCase "market_index".toList := by decide
  have hkey : isSnakeCase "pubkey".toList := by decide
  have hlast : (Fields.readUnless "pubkey" pubkey (.optional .address) (some none)
      .nil).WellFormed := Fields.WellFormed.readUnless ⟨hkey, ⟨trivial, rfl⟩, rfl, trivial⟩
  exact Fields.WellFormed.readUnless ⟨hindex, trivial, rfl, hlast⟩

theorem names_placed_sublist (index : Option Int) (pubkey : Option (Option Address)) :
    (Fields.readUnless "market_index" index .int none <|
      .readUnless "pubkey" pubkey (.optional .address) (some none) .nil).names.Sublist
        ["market_index", "pubkey"] :=
  Fields.names_readUnless_sublist.trans (Fields.names_readUnless_sublist.cons_cons _)

theorem SpotMarket.wellFormed_format (index : Option Int) (pubkey : Option (Option Address)) :
    (format index pubkey).WellFormed := by
  refine ⟨?_, ?_⟩
  · simp only [fields, Fields.WellFormed, Format.WellFormed, Option.map_none, and_true, true_and,
      HistoricalOracleData.wellFormed_format, wellFormed_placed]
    decide
  · have hall : (fields none none).names.Nodup := by decide
    refine hall.sublist ?_
    simp only [fields, Fields.names, List.cons_sublist_cons]
    exact names_placed_sublist index pubkey

theorem PerpMarket.wellFormed_format (index : Option Int) (pubkey : Option (Option Address)) :
    (format index pubkey).WellFormed := by
  refine ⟨?_, ?_⟩
  · simp only [fields, Fields.WellFormed, Format.WellFormed, Option.map_none, and_true, true_and,
      Amm.wellFormed_format, wellFormed_placed]
    decide
  · have hall : (fields none none).names.Nodup := by decide
    refine hall.sublist ?_
    simp only [fields, Fields.names, List.cons_sublist_cons]
    exact names_placed_sublist index pubkey

/-! ### What is given of a market -/

theorem Format.withGiven_optional_address (key : Option Address) :
    (Format.optional .address).withGiven key = key := by
  cases key <;> rfl

theorem SpotMarket.withGiven_format (index : Option Int) (pubkey : Option (Option Address)) :
    (format index pubkey).withGiven = withGiven index pubkey := by
  funext m
  simp only [format, fields, Fields.withGiven_readUnless, Format.withGiven, Fields.withGiven,
    shape, Format.withGiven_optional_address, withGiven]
  rfl

theorem PerpMarket.withGiven_format (index : Option Int) (pubkey : Option (Option Address)) :
    (format index pubkey).withGiven = withGiven index pubkey := by
  funext m
  simp only [format, fields, Fields.withGiven_readUnless, Format.withGiven, Fields.withGiven,
    shape, Format.withGiven_optional_address, withGiven]
  rfl

/-- **The formats of the market accounts are exact.** Each record is decoded from its written
form without the given fields, with what is given in their places. From a value without repeated
keys nothing else is decoded: it is the written form of the record up to the order of members,
the case of the first letter of variants and the absence of a public key that is null. -/
theorem market_formats_exact :
    HistoricalOracleData.format.Exact id ∧ Amm.format.Exact id ∧
      (∀ index pubkey, (SpotMarket.format index pubkey).Exact
        (SpotMarket.withGiven index pubkey)) ∧
      ∀ index pubkey, (PerpMarket.format index pubkey).Exact
        (PerpMarket.withGiven index pubkey) := by
  refine ⟨?_, ?_, fun index pubkey => ?_, fun index pubkey => ?_⟩
  · exact Format.exact_of_wellFormed _ HistoricalOracleData.wellFormed_format
  · exact Format.exact_of_wellFormed _ Amm.wellFormed_format
  · rw [← SpotMarket.withGiven_format]
    exact Format.exact_of_wellFormed _ (SpotMarket.wellFormed_format index pubkey)
  · rw [← PerpMarket.withGiven_format]
    exact Format.exact_of_wellFormed _ (PerpMarket.wellFormed_format index pubkey)

end MarketRegistry
