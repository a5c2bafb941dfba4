import MarketRegistry.Market.Bundle
import MarketRegistry.Proofs.Address.Derivation
import MarketRegistry.Proofs.Format.Depth
import MarketRegistry.Proofs.Format.Spelled
import MarketRegistry.Proofs.Market.Exact

/-!
# Spellings of markets in a dump

A dump lists markets in wrappers, each with the account of the market and perhaps with its
public key. A wrapper is spelled like a record, so that all freedom of spelling is that of
formats. The index of a market is never spelled: it is the place in the list.

## Main definitions

* `Listed` — a market as it is listed.
* `MarketKind.Lists`, `MarketKind.Dumps` — the spellings of one market, and of a whole dump.
* `MarketKind.Lawful` — what the formats of a kind of markets have to obey.

## Main results

* `MarketKind.lawful_spot`, `MarketKind.lawful_perp` — both kinds do.
-/

namespace MarketRegistry

/-- A market as it is **listed** in a dump: with its public key, or without. -/
structure Listed (α : Type) where
  record : α
  key? : Option Address
  deriving DecidableEq

namespace MarketKind

variable {α : Type}

/-- A wrapper as a record: the account, and the public key if it is written. -/
def wrapper (kind : MarketKind α) (index : Int) (key : Address) (written : Bool) :
    Format (Listed α) :=
  .record (.read "account" (kind.format index key) none <|
    .readUnless "public_key" (if written then none else some none) (.optional .address) none .nil)
    { pack := fun (record, key?, ()) => ⟨record, key?⟩
      unpack := fun m => (m.record, m.key?, ())
      pack_unpack := fun _ => rfl
      unpack_pack := fun _ => rfl }

/-- A listed market and its **spellings**. The index and the address that are given to the
account do not matter, since they are not written. -/
def Lists (kind : MarketKind α) (m : Listed α) (j : Json) : Prop :=
  (kind.wrapper 0 .zero m.key?.isSome).Spells m j

/-- A list of markets and the **dumps** that spell it: json whose strings have no escapes, an
array of wrappers in the order of the list, with any white space. -/
def Dumps (kind : MarketKind α) (ms : List (Listed α)) (dump : List Char) : Prop :=
  '\\' ∉ dump ∧ ∃ js, Json.read dump = .ok (.array js) ∧ List.Forall₂ kind.Lists ms js

/-- A kind of markets is **lawful** when its formats are well-formed and unmistakable and do not
spell what is given, when what is given of a market is put into it as `place` says, when an
index of two bytes leads to seeds, and when the records of a bundle do not nest too deep: they
stand in wrappers, and these in an array. -/
structure Lawful (kind : MarketKind α) (place : Int → Address → α → α) : Prop where
  wellFormed : ∀ i a, (kind.format i a).WellFormed
  unmistakable : ∀ i a, (kind.format i a).Unmistakable
  spells_iff : ∀ i a m j, (kind.format i a).Spells m j ↔ (kind.format 0 .zero).Spells m j
  withGiven : ∀ i a, (kind.format i a).withGiven = place i a
  exists_seeds : ∀ i : Nat, i < 65536 → ∃ seeds, (kind.account i).seeds = .ok seeds
  shallow : ∀ i a, (kind.format i a).depth + 2 ≤ Json.nestingLimit

section Wrapper

variable {kind : MarketKind α} {place : Int → Address → α → α}

theorem Lawful.wellFormed_wrapper (h : kind.Lawful place) (index : Int) (key : Address)
    (written : Bool) : (kind.wrapper index key written).WellFormed := by
  have haccount : isSnakeCase "account".toList := by decide
  have hkey : isSnakeCase "public_key".toList := by decide
  have hnodup : ["account", "public_key"].Nodup := by decide
  refine ⟨⟨haccount, h.wellFormed _ _, rfl, ?_⟩, ?_⟩
  · exact Fields.WellFormed.readUnless ⟨hkey, ⟨trivial, rfl⟩, rfl, trivial⟩
  · exact hnodup.sublist (Fields.names_readUnless_sublist.cons_cons _)

theorem Lawful.unmistakable_wrapper (h : kind.Lawful place) (index : Int) (key : Address)
    (written : Bool) : (kind.wrapper index key written).Unmistakable := by
  have hnames : ∀ name ∈ ["account", "public_key"], ClearName name := by decide
  cases written with
  | true => exact ⟨⟨h.unmistakable _ _, trivial, trivial⟩, List.cons_ne_nil _ _, hnames⟩
  | false =>
      refine ⟨⟨h.unmistakable _ _, trivial⟩, List.cons_ne_nil _ _, fun name hname => ?_⟩
      exact hnames name (List.mem_cons.mpr (.inl (List.mem_singleton.mp hname)))

theorem Lawful.depth_wrapper (h : kind.Lawful place) (index : Int) (key : Address)
    (written : Bool) : (kind.wrapper index key written).depth + 1 ≤ Json.nestingLimit := by
  have hformat := h.shallow index key
  have hbytes : 1 + 2 ≤ Json.nestingLimit := by decide
  have hkey : (Fields.readUnless "public_key" (if written then none else some none)
      (.optional .address) none .nil).depth ≤ 1 := Fields.depth_readUnless_le
  change max (kind.format index key).depth _ + 1 + 1 ≤ Json.nestingLimit
  omega

/-- What is given of a market does not matter for the spellings of its wrapper. -/
theorem Lawful.spells_wrapper (h : kind.Lawful place) {m : Listed α} {j : Json}
    (hj : kind.Lists m j) (index : Int) (key : Address) :
    (kind.wrapper index key m.key?.isSome).Spells m j := by
  obtain ⟨ms, os, rfl, hperm, cs, v, ms', rfl, hcs, hv, hrest⟩ := hj
  exact ⟨_, os, rfl, hperm, cs, v, ms', rfl, hcs, (h.spells_iff _ _ _ _).mpr hv, hrest⟩

end Wrapper

end MarketKind

/-! ### The formats of markets -/

theorem OracleSource.clear_enumeration : enumeration.Clear := by decide

theorem MarketStatus.clear_enumeration : enumeration.Clear := by decide

theorem ContractType.clear_enumeration : enumeration.Clear := by decide

theorem ContractTier.clear_enumeration : enumeration.Clear := by decide

theorem AssetTier.clear_enumeration : enumeration.Clear := by decide

theorem HistoricalOracleData.unmistakable_format : format.Unmistakable := by
  refine ⟨?_, by decide, by decide⟩
  simp only [fields, Fields.Unmistakable, Format.Unmistakable, and_self]

theorem Amm.unmistakable_format : format.Unmistakable := by
  refine ⟨?_, by decide, by decide⟩
  simp only [fields, Fields.Unmistakable, Format.Unmistakable, and_self,
    HistoricalOracleData.unmistakable_format, OracleSource.clear_enumeration]

theorem SpotMarket.unmistakable_format (index : Int) (key : Address) :
    (format (some index) (some (some key))).Unmistakable := by
  have hnames : (fields (some index) (some (some key))).names =
      (fields (some 0) (some (some .zero))).names := rfl
  refine ⟨?_, ?_, ?_⟩
  · simp only [fields, Fields.readUnless, Fields.Unmistakable, Format.Unmistakable, and_self,
      HistoricalOracleData.unmistakable_format, OracleSource.clear_enumeration,
      MarketStatus.clear_enumeration, AssetTier.clear_enumeration]
  · rw [hnames]
    decide
  · rw [hnames]
    decide

theorem PerpMarket.unmistakable_format (index : Int) (key : Address) :
    (format (some index) (some (some key))).Unmistakable := by
  have hnames : (fields (some index) (some (some key))).names =
      (fields (some 0) (some (some .zero))).names := rfl
  refine ⟨?_, ?_, ?_⟩
  · simp only [fields, Fields.readUnless, Fields.Unmistakable, Format.Unmistakable, and_self,
      Amm.unmistakable_format, MarketStatus.clear_enumeration, ContractType.clear_enumeration,
      ContractTier.clear_enumeration]
  · rw [hnames]
    decide
  · rw [hnames]
    decide

namespace MarketKind

/-- **Spot markets** are lawful. -/
theorem lawful_spot : spot.Lawful fun index key m =>
    { m with marketIndex := index, pubkey := some key } where
  wellFormed i a := SpotMarket.wellFormed_format (some i) (some (some a))
  unmistakable i a := SpotMarket.unmistakable_format i a
  spells_iff i a m j := Iff.rfl
  withGiven i a := SpotMarket.withGiven_format (some i) (some (some a))
  exists_seeds i hi := by
    obtain ⟨bytes, hbytes⟩ := exists_indexBytes hi
    exact ⟨_, bind_eq_ok_iff.mpr ⟨bytes, hbytes, rfl⟩⟩
  shallow i a := by
    have hdepth : (spot.format i a).depth = 2 := rfl
    rw [hdepth]
    decide

/-- **Perp markets** are lawful. -/
theorem lawful_perp : perp.Lawful fun index key m =>
    { m with marketIndex := index, pubkey := some key } where
  wellFormed i a := PerpMarket.wellFormed_format (some i) (some (some a))
  unmistakable i a := PerpMarket.unmistakable_format i a
  spells_iff i a m j := Iff.rfl
  withGiven i a := PerpMarket.withGiven_format (some i) (some (some a))
  exists_seeds i hi := by
    obtain ⟨bytes, hbytes⟩ := exists_indexBytes hi
    exact ⟨_, bind_eq_ok_iff.mpr ⟨bytes, hbytes, rfl⟩⟩
  shallow i a := by
    have hdepth : (perp.format i a).depth = 3 := rfl
    rw [hdepth]
    decide

end MarketKind

end MarketRegistry
