import MarketRegistry.Program
import MarketRegistry.Proofs.Address.Derivation

/-!
# Derived addresses are separated

What is hashed for an account is its kind, its index, a bump, the program and a marker, with
nothing between them to mark where one ends. It is unambiguous all the same. Behind the seeds
everything has a fixed length, and of the seeds of two kinds either the lengths differ or the
first bytes do. Two accounts, or one account under two programs, can therefore share an address
only by a collision of the hash.

## Main definitions

* `Sha256.Collision` — two messages with one digest.
* `Account.index?` — the index of an account, if it has one.

## Main results

* `preimage_inj` — what is hashed determines seeds, bump and program.
* `eq_of_flatten_seeds` — the seeds, written without a gap, determine the account.
* `address_separated` — which accounts have no address for their index, and that all others are
  separated.
-/

namespace MarketRegistry

/-- Two messages with **one digest**. -/
def Sha256.Collision (m m' : List UInt8) : Prop :=
  m ≠ m' ∧ digest m = digest m'

/-! ### Indexes as seeds -/

theorem indexBytes_eq_ok_iff {i : Int} {bytes : List UInt8} : indexBytes i = .ok bytes ↔
    (0 ≤ i ∧ i ≤ 65535) ∧
      bytes = [UInt8.ofNat (i.toNat % 256), UInt8.ofNat (i.toNat / 256)] := by
  rw [indexBytes]
  split
  · exact iff_of_false (by simp) (by omega)
  · split
    · exact iff_of_false (by simp) (by omega)
    · rw [Except.ok.injEq, eq_comm]
      exact ⟨fun h => ⟨by omega, h⟩, And.right⟩

/-- **Two bytes determine the index.** -/
theorem indexBytes_injective {i j : Int} {bytes : List UInt8} (hi : indexBytes i = .ok bytes)
    (hj : indexBytes j = .ok bytes) : i = j := by
  obtain ⟨hirange, hibytes⟩ := indexBytes_eq_ok_iff.mp hi
  obtain ⟨hjrange, hjbytes⟩ := indexBytes_eq_ok_iff.mp hj
  rw [hibytes, List.cons.injEq, List.cons.injEq] at hjbytes
  have hlow := congrArg UInt8.toNat hjbytes.1
  have hhigh := congrArg UInt8.toNat hjbytes.2.1
  rw [UInt8.toNat_ofNat', UInt8.toNat_ofNat'] at hlow hhigh
  omega

namespace Account

variable {account account' : Account} {program program' : Address}
variable {seeds seeds' : List (List UInt8)} {bump bump' : UInt8}

/-- The index of an account, if its kind has one. -/
def index? : Account → Option Int
  | spotMarket i | spotMarketVault i | perpMarket i => some i
  | state | signer => none

/-- The text of a kind of accounts. -/
def kindText : Account → String
  | spotMarket _ => "spot_market"
  | spotMarketVault _ => "spot_market_vault"
  | perpMarket _ => "perp_market"
  | state => "drift_state"
  | signer => "drift_signer"

/-- The bytes of an index, none if there is no index. -/
def indexSeed (index? : Option Int) : Except DerivationError (List UInt8) :=
  match index? with
  | some i => indexBytes i
  | none => .ok []

/-- The seeds of an account, written without a gap: the text of its kind and its index. -/
theorem exists_indexSeed (h : account.seeds = .ok seeds) : ∃ bytes,
    indexSeed account.index? = .ok bytes ∧
      seeds.flatten = asciiBytes account.kindText ++ bytes := by
  cases account with
  | spotMarket i | spotMarketVault i | perpMarket i =>
      obtain ⟨bytes, hbytes, hseeds⟩ := bind_eq_ok_iff.mp h
      refine ⟨bytes, hbytes, ?_⟩
      rw [← Except.ok.inj hseeds, List.flatten_cons, List.flatten_singleton]
      rfl
  | state | signer =>
      refine ⟨[], rfl, ?_⟩
      rw [← Except.ok.inj h, List.flatten_singleton, List.append_nil]
      rfl

theorem seeds_eq_error_iff {e : DerivationError} :
    account.seeds = .error e ↔ indexSeed account.index? = .error e := by
  cases account with
  | spotMarket i | spotMarketVault i | perpMarket i =>
      refine bind_eq_error_iff.trans (or_iff_left ?_)
      rintro ⟨bytes, -, hbytes⟩
      cases hbytes
  | state | signer => exact iff_of_false nofun nofun

/-- The bytes of an index are two. -/
theorem length_indexSeed {index? : Option Int} {bytes : List UInt8}
    (h : indexSeed index? = .ok bytes) : bytes.length = if index?.isSome then 2 else 0 := by
  cases index? with
  | none =>
      cases h
      rfl
  | some i =>
      rw [(indexBytes_eq_ok_iff.mp h).2]
      rfl

/-- **The seeds determine the account**, though nothing marks where the text of the kind ends. -/
theorem eq_of_flatten_seeds (h : account.seeds = .ok seeds) (h' : account'.seeds = .ok seeds')
    (hflatten : seeds.flatten = seeds'.flatten) : account = account' := by
  obtain ⟨bytes, hbytes, hseeds⟩ := exists_indexSeed h
  obtain ⟨bytes', hbytes', hseeds'⟩ := exists_indexSeed h'
  rw [hseeds, hseeds'] at hflatten
  have hlength := congrArg List.length hflatten
  rw [List.length_append, List.length_append, length_indexSeed hbytes,
    length_indexSeed hbytes'] at hlength
  have hspot : asciiBytes "spot_market" ≠ asciiBytes "perp_market" := by decide
  -- between two kinds the lengths differ, but for spot and perp markets
  cases account <;> cases account' <;>
    simp only [index?, kindText, Option.isSome_some, Option.isSome_none] at hlength hflatten <;>
    try exact absurd hlength (by decide)
  case spotMarket.spotMarket i j | spotMarketVault.spotMarketVault i j
    | perpMarket.perpMarket i j =>
      obtain rfl := List.append_cancel_left hflatten
      rw [indexBytes_injective hbytes hbytes']
  case spotMarket.perpMarket => exact absurd (List.append_inj_left hflatten (by decide)) hspot
  case perpMarket.spotMarket =>
      exact absurd (List.append_inj_left hflatten (by decide)).symm hspot
  case state.state | signer.signer => rfl

/-! ### What is hashed -/

/-- **What is hashed** determines the seeds, written without a gap, the bump and the program. -/
theorem preimage_inj : preimage seeds bump program = preimage seeds' bump' program' ↔
    seeds.flatten = seeds'.flatten ∧ bump = bump' ∧ program = program' := by
  constructor
  · intro h
    have hlength : (bump :: program.bytes).length = (bump' :: program'.bytes).length := by
      rw [List.length_cons, List.length_cons, program.length_bytes, program'.length_bytes]
    obtain ⟨hflatten, hrest⟩ := List.append_inj' (List.append_cancel_right h) hlength
    obtain ⟨rfl, hbytes⟩ := List.cons.inj hrest
    refine ⟨hflatten, rfl, ?_⟩
    obtain ⟨bytes, hprogram⟩ := program
    obtain ⟨bytes', hprogram'⟩ := program'
    obtain rfl : bytes = bytes' := hbytes
    rfl
  · rintro ⟨hflatten, rfl, rfl⟩
    rw [preimage, preimage, hflatten]

/-- Accounts under programs that are not both the same never hash the same bytes. -/
theorem preimage_ne (h : account.seeds = .ok seeds) (h' : account'.seeds = .ok seeds')
    (hne : (account, program) ≠ (account', program')) (bump bump' : UInt8) :
    preimage seeds bump program ≠ preimage seeds' bump' program' := by
  intro heq
  obtain ⟨hflatten, -, rfl⟩ := preimage_inj.mp heq
  exact hne (by rw [eq_of_flatten_seeds h h' hflatten])

/-! ### Addresses -/

/-- An account has no address for its index exactly when it has no seeds. -/
theorem address_eq_index_error_iff {e : DerivationError} (he : e ≠ .noBump) :
    account.address program = .error e ↔ account.seeds = .error e := by
  refine bind_eq_error_iff.trans (or_iff_left ?_)
  rintro ⟨seeds, -, hfind⟩
  split at hfind
  · cases hfind
  · exact he (Except.error.inj hfind).symm

theorem indexSeed_eq_error_iff {index? : Option Int} :
    indexSeed index? = .error .indexNegative ∨ indexSeed index? = .error .indexTooBig ↔
      ∃ i, index? = some i ∧ ¬(0 ≤ i ∧ i ≤ 65535) := by
  cases index? with
  | none => simp [indexSeed]
  | some i =>
      simp only [indexSeed, indexBytes, Option.some.injEq, exists_eq_left']
      split
      · exact iff_of_true (.inl rfl) (by omega)
      · split
        · exact iff_of_true (.inr rfl) (by omega)
        · exact iff_of_false (by simp) (by omega)

/-- **Derived addresses are separated.** An account has no address for its index exactly when it
has an index and that does not fit two bytes. If two derivations have addresses and differ in
the kind of account, the index or the program, then the bytes that are hashed differ whatever
the bumps, so that one address for both is a collision: of the bytes that are hashed for the
greatest bumps off the curve. -/
theorem address_separated :
    (∀ (account : Account) (program : Address),
      account.address program = .error .indexNegative ∨
          account.address program = .error .indexTooBig ↔
        ∃ i, account.index? = some i ∧ ¬(0 ≤ i ∧ i ≤ 65535)) ∧
    ∀ (account account' : Account) (program program' a a' : Address),
      account.address program = .ok a → account'.address program' = .ok a' →
      (account, program) ≠ (account', program') →
      ∃ seeds seeds', account.seeds = .ok seeds ∧ account'.seeds = .ok seeds' ∧
        (∀ bump bump', preimage seeds bump program ≠ preimage seeds' bump' program') ∧
        ∃ bump bump', LeadsTo seeds program bump a ∧ LeadsTo seeds' program' bump' a' ∧
          (a = a' → Sha256.Collision (preimage seeds bump program)
            (preimage seeds' bump' program')) := by
  constructor
  · intro account program
    rw [address_eq_index_error_iff (by decide), address_eq_index_error_iff (by decide),
      seeds_eq_error_iff, seeds_eq_error_iff, indexSeed_eq_error_iff]
  · intro account account' program program' a a' ha ha' hne
    obtain ⟨seeds, bump, hseeds, hlead⟩ := address_eq_ok_iff.mp ha
    obtain ⟨seeds', bump', hseeds', hlead'⟩ := address_eq_ok_iff.mp ha'
    have hdiffer := preimage_ne hseeds hseeds' hne
    refine ⟨seeds, seeds', hseeds, hseeds', hdiffer, bump, bump', hlead, hlead', ?_⟩
    rintro rfl
    exact ⟨hdiffer bump bump', hlead.bytes_eq.symm.trans hlead'.bytes_eq⟩

/-- The last index of both kinds of markets: seeds of one length. -/
theorem separated_lastIndex : ∃ a a', (spotMarket 65535).address Program.exchange = .ok a ∧
    (perpMarket 65535).address Program.exchange = .ok a' ∧
    (spotMarket 65535, Program.exchange) ≠ (perpMarket 65535, Program.exchange) ∧
    ∀ bump bump', preimage [asciiBytes "spot_market", [255, 255]] bump Program.exchange ≠
      preimage [asciiBytes "perp_market", [255, 255]] bump' Program.exchange := by
  have hspotSeeds : (spotMarket 65535).seeds = .ok [asciiBytes "spot_market", [255, 255]] := rfl
  have hperpSeeds : (perpMarket 65535).seeds = .ok [asciiBytes "perp_market", [255, 255]] := rfl
  have hspotBump : (spotMarket 65535).HasBump Program.exchange := by
    intro seeds hseeds
    obtain rfl := Except.ok.inj (hspotSeeds.symm.trans hseeds)
    exact ⟨255, by decide, by decide +kernel⟩
  have hperpBump : (perpMarket 65535).HasBump Program.exchange := by
    intro seeds hseeds
    obtain rfl := Except.ok.inj (hperpSeeds.symm.trans hseeds)
    exact ⟨253, by decide, by decide +kernel⟩
  obtain ⟨a, ha⟩ := address_of_hasBump hspotSeeds hspotBump
  obtain ⟨a', ha'⟩ := address_of_hasBump hperpSeeds hperpBump
  have hne : (spotMarket 65535, Program.exchange) ≠ (perpMarket 65535, Program.exchange) := by
    simp
  obtain ⟨seeds, seeds', hseeds, hseeds', hdiffer, -⟩ :=
    address_separated.2 _ _ _ _ a a' ha ha' hne
  obtain rfl := Except.ok.inj (hspotSeeds.symm.trans hseeds)
  obtain rfl := Except.ok.inj (hperpSeeds.symm.trans hseeds')
  exact ⟨a, a', ha, ha', hne, hdiffer⟩

end Account

end MarketRegistry
