import MarketRegistry.Proofs.Dump.Rewriting
import MarketRegistry.Proofs.Market.Spelled
import MarketRegistry.Registry

/-!
# Loading markets

Every list of markets is loaded from every dump that spells it: each record as it was written,
with its place in the list as index and with the written public key or the derived address. The
one thing that can go wrong is that an address has to be derived and no bump leads to one.

## Main definitions

* `MarketKind.addressOf` — the address of a listed market.
* `MarketKind.placed` — listed markets with their indexes and addresses.

## Main results

* `decodeWrapper_of_lists`, `decodeWrappers_of_lists` — wrappers are decoded to placed markets.
* `outcome_loadDump` — a dump is loaded as the markets that it spells.
* `outcome_ofDumps` — a registry is built from any two dumps that spell lists of markets.
-/

namespace MarketRegistry

variable {α : Type}

/-! ### Placed markets -/

namespace MarketKind

/-- The **address of a listed market**: its public key if it is written, and otherwise the
address derived from its index. -/
def addressOf (kind : MarketKind α) (index : Nat) (m : Listed α) : Except DerivationError Address :=
  match m.key? with
  | some a => .ok a
  | none => (kind.account index).address Program.exchange

/-- Listed markets **placed** from an index on. -/
def placed (kind : MarketKind α) (place : Int → Address → α → α) :
    Nat → List (Listed α) → Except DerivationError (List α)
  | _, [] => .ok []
  | index, m :: ms => do
    let key ← kind.addressOf index m
    let markets ← kind.placed place (index + 1) ms
    return place index key m.record :: markets

end MarketKind

/-! ### Wrappers -/

variable {kind : MarketKind α} {place : Int → Address → α → α} {m : Listed α} {j : Json}

/-- The members of a wrapper: the account, and the public key if it is written. -/
def wrapperMembers (account : Json) (key? : Option Json) : List (Text × Json) :=
  (accountKey, account) :: (key?.map fun key => (publicKeyKey, key)).toList

/-- The parts of a wrapper are found, whatever the order of its members. -/
theorem wrapperParts_of_perm {account : Json} {key? : Option Json} {os : List (Text × Json)}
    (hperm : (wrapperMembers account key?).Perm os) (path : Path) :
    wrapperParts path (.object os) = .ok (account, os) ∧ Json.member? publicKeyKey os = key? := by
  have hne : publicKeyKey ≠ accountKey := by decide
  have hnodup : ((wrapperMembers account key?).map Prod.fst).Nodup := by
    cases key? with
    | none => simp [wrapperMembers]
    | some key => simpa [wrapperMembers] using hne.symm
  have hkeys : ∀ p ∈ wrapperMembers account key?, p.1 = accountKey ∨ p.1 = publicKeyKey := by
    cases key? with
    | none => simp [wrapperMembers]
    | some key => simp [wrapperMembers]
  have haccount : Json.member? accountKey os = some account := by
    rw [member?_eq_lookup, ← lookup_perm hnodup hperm, wrapperMembers, List.lookup_cons_self]
  have hunknown : ((Json.keys os).filter fun k => k != accountKey && k != publicKeyKey) = [] := by
    refine List.filter_eq_nil_iff.mpr fun k hk => ?_
    obtain ⟨p, hp, rfl⟩ := List.mem_map.mp hk
    rcases hkeys p (hperm.mem_iff.mpr hp) with h | h <;> simp [h]
  refine ⟨by simp only [wrapperParts, haccount, hunknown], ?_⟩
  rw [member?_eq_lookup, ← lookup_perm hnodup hperm, wrapperMembers, List.lookup_cons,
    beq_false_of_ne hne]
  cases key? with
  | none => rfl
  | some key => exact List.lookup_cons_self

/-- The written public key of a listed market. -/
def Listed.keyJson (m : Listed α) : Option Json :=
  m.key?.map fun a => .array (Json.ofBytes a.bytes)

/-- **A wrapper is normalized** to an account that is a variation of the written form, and to
the bytes of the public key. -/
theorem exists_members_of_lists (hkind : kind.Lawful place) (h : kind.Lists m j) (i : Int)
    (a : Address) : j.Intact ∧ ∃ account os, j.normalized = .object os ∧
      (wrapperMembers account m.keyJson).Perm os ∧
      (kind.format i a).Alike ((kind.format i a).encode m.record) account := by
  obtain ⟨hintact, halike⟩ := Format.intact_of_spells _ (hkind.wellFormed_wrapper i a _)
    (hkind.unmistakable_wrapper i a _) m (hkind.spells_wrapper h i a)
  refine ⟨hintact, ?_⟩
  obtain ⟨ms, os, os', hencode, hos, hperm, hfields⟩ := halike
  obtain rfl := Json.object.inj hencode
  obtain ⟨k, v, ms', hms, hmember⟩ := hfields
  cases hms
  rcases hmember with ⟨account, os', rfl, haccount, hrest⟩ | ⟨habsent, -⟩
  · refine ⟨account, os, hos, ?_, haccount⟩
    obtain ⟨record, key?⟩ := m
    cases key? with
    | none =>
        obtain ⟨-, rfl⟩ := hrest
        exact hperm
    | some b =>
        obtain ⟨k', v', ms'', hms', hmember'⟩ := hrest
        cases hms'
        rcases hmember' with ⟨key, os'', rfl, hkey, hnil⟩ | ⟨habsent, -⟩
        · obtain ⟨-, rfl⟩ := hnil
          rcases hkey with ⟨hnull, -⟩ | hkey
          · cases hnull
          · obtain rfl : key = .array (Json.ofBytes b.bytes) := hkey
            exact hperm
        · cases habsent
  · cases habsent

/-- The address of a wrapper is that of the listed market. -/
theorem marketAddress_of_member? {os : List (Text × Json)}
    (h : Json.member? publicKeyKey os = m.keyJson) (i : Nat) :
    marketAddress kind i os = (kind.addressOf i m).mapError .derivation := by
  rw [marketAddress, h, MarketKind.addressOf, Listed.keyJson]
  cases m.key? with
  | none => rfl
  | some a =>
      have hdecode : decodeAddress ((kind.path i).field "pubkey")
          (.array (Json.ofBytes a.bytes)) = .ok a := decodeAddress_eq_ok_iff.mpr rfl
      change located (decodeAddress _ (.array (Json.ofBytes a.bytes))) = .ok a
      rw [hdecode]
      rfl

/-- With its parts found, a wrapper is decoded under its address. -/
theorem decodeWrapper_of_parts {account : Json} {os : List (Text × Json)} {i : Nat}
    (h : wrapperParts (kind.path i) j = .ok (account, os)) :
    decodeWrapper kind i j = marketAddress kind i os >>= fun a =>
      located ((kind.format i a).decode (kind.path i) account) := by
  rw [decodeWrapper, h]
  rfl

/-- **A wrapper is decoded** to the record that it spells, with its index and address. -/
theorem decodeWrapper_of_lists (hkind : kind.Lawful place) (h : kind.Lists m j) (i : Nat) :
    decodeWrapper kind i j.normalized =
      (kind.addressOf i m).mapError .derivation >>= fun a => .ok (place i a m.record) := by
  cases haddress : kind.addressOf i m with
  | error e =>
      obtain ⟨-, account, os, hos, hperm, -⟩ := exists_members_of_lists hkind h i .zero
      obtain ⟨hparts, hkey⟩ := wrapperParts_of_perm hperm (kind.path i)
      rw [hos, decodeWrapper_of_parts hparts, marketAddress_of_member? hkey, haddress]
      rfl
  | ok a =>
      obtain ⟨-, account, os, hos, hperm, halike⟩ := exists_members_of_lists hkind h i a
      obtain ⟨hparts, hkey⟩ := wrapperParts_of_perm hperm (kind.path i)
      have hdecode := (kind.format i a).decode_of_alike (hkind.wellFormed i a) (kind.path i)
        m.record halike
      rw [hkind.withGiven] at hdecode
      rw [hos, decodeWrapper_of_parts hparts, marketAddress_of_member? hkey, haddress]
      change located ((kind.format i a).decode (kind.path i) account) = _
      rw [hdecode]
      rfl

/-- **Wrappers are decoded** to placed markets. -/
theorem decodeWrappers_of_lists (hkind : kind.Lawful place) {ms : List (Listed α)}
    {js : List Json} (h : List.Forall₂ kind.Lists ms js) (i : Nat) :
    decodeWrappers kind i (js.map Json.normalized) =
      (kind.placed place i ms).mapError .derivation := by
  induction h generalizing i with
  | nil => rfl
  | cons hj _ ih =>
      rw [List.map_cons, decodeWrappers, decodeWrapper_of_lists hkind hj, ih, MarketKind.placed]
      cases kind.addressOf i _ with
      | error e => rfl
      | ok a =>
          cases kind.placed place (i + 1) _ with
          | error e => rfl
          | ok markets => rfl

/-! ### Dumps -/

theorem intact_of_lists (hkind : kind.Lawful place) {ms : List (Listed α)} {js : List Json}
    (h : List.Forall₂ kind.Lists ms js) : ∀ j ∈ js, j.Intact := by
  induction h with
  | nil => simp
  | cons hj _ ih =>
      exact List.forall_mem_cons.mpr ⟨(exists_members_of_lists hkind hj 0 .zero).1, ih⟩

/-- What a list of wrappers is normalized to does not nest too deep to be read. -/
theorem depth_of_lists (hkind : kind.Lawful place) {ms : List (Listed α)} {js : List Json}
    (h : List.Forall₂ kind.Lists ms js) :
    (Json.array (js.map Json.normalized)).depth ≤ Json.nestingLimit := by
  have hwrappers : ∀ j ∈ js, j.normalized.depth + 1 ≤ Json.nestingLimit := by
    induction h with
    | nil => exact nofun
    | @cons m j _ _ hj _ ih =>
        have halike := (Format.intact_of_spells _ (hkind.wellFormed_wrapper 0 .zero _)
          (hkind.unmistakable_wrapper 0 .zero _) m (hkind.spells_wrapper hj 0 .zero)).2
        have hdepth := Format.depth_le_of_alike _ (hkind.wellFormed_wrapper 0 .zero _) m halike
        exact List.forall_mem_cons.mpr
          ⟨(Nat.succ_le_succ hdepth).trans (hkind.depth_wrapper 0 .zero _), ih⟩
  refine Nat.add_le_of_le_sub (by decide) (Json.depthItems_le_iff.mpr fun j' hj' => ?_)
  obtain ⟨j, hj, rfl⟩ := List.mem_map.mp hj'
  exact Nat.le_sub_of_add_le (hwrappers j hj)

/-- **A dump is loaded** as the markets that it spells. -/
theorem outcome_loadDump (hkind : kind.Lawful place) {ms : List (Listed α)} {dump : List Char}
    (h : kind.Dumps ms dump) :
    (loadDump kind dump).outcome = (kind.placed place 0 ms).mapError .derivation := by
  obtain ⟨hslash, js, hread, hlists⟩ := h
  have hintact := intact_of_lists hkind hlists
  obtain ⟨out, hnormalize, hlexemes⟩ := exists_normalize_of_read hread hslash
  have hkeys : ∀ k ∈ (Json.array js).objectKeys, ¬k.isConverted :=
    Json.forall_objectKeysItems.mpr fun j hj => (hintact j hj).not_isConverted
  have hnormalized : (Json.array js).normalized = .array (js.map Json.normalized) := by
    rw [Json.normalized, Json.normalizedItems_eq_map]
  have hdistinct : (Json.array (js.map Json.normalized)).Distinct := by
    refine Json.distinctItems_iff.mpr fun j hj => ?_
    obtain ⟨j', hj', rfl⟩ := List.mem_map.mp hj
    exact (hintact j' hj').distinct
  have hout : Json.read out = .ok (.array (js.map Json.normalized)) := by
    rw [read_of_lexemes hlexemes hkeys, hnormalized]
  have hparse : Json.parse out = .ok (.array (js.map Json.normalized)) := by
    rw [Json.parse, hout]
    exact congrArg Except.ok (Json.lastWins_of_distinct _ hdistinct)
  have hnests : Json.NestsWithin Json.nestingLimit out :=
    (Json.nestsWithin_iff_of_read hout).mpr (depth_of_lists hkind hlists)
  have hbundle : decodeBundle kind out = (kind.placed place 0 ms).mapError .derivation := by
    rw [decodeBundle, decodeBundleWithin, Json.parseWithin_of_nestsWithin hnests, hparse]
    exact decodeWrappers_of_lists hkind hlists 0
  rw [loadDump, hnormalize, ← hbundle]
  rfl

/-! ### Addresses -/

namespace MarketKind

/-- Every address of the list that has to be **derived** can be. -/
def Derivable (kind : MarketKind α) (ms : List (Listed α)) : Prop :=
  ∀ (i : Nat) (m : Listed α), ms[i]? = some m → m.key? = none →
    (kind.account i).HasBump Program.exchange

/-- The markets that a list is **loaded** as: as many, each with its index and its address. -/
def Loads (kind : MarketKind α) (place : Int → Address → α → α) (ms : List (Listed α))
    (markets : List α) : Prop :=
  markets.length = ms.length ∧ ∀ (i : Nat) (m : Listed α), ms[i]? = some m →
    ∃ a, kind.addressOf i m = .ok a ∧ markets[i]? = some (place i a m.record)

/-- A listed market has an address unless it has to be derived and there is no bump. -/
theorem addressOf_cases (hkind : kind.Lawful place) {i : Nat} (hi : i < 65536) (m : Listed α) :
    (∃ a, kind.addressOf i m = .ok a) ∧
        (m.key? = none → (kind.account i).HasBump Program.exchange) ∨
      kind.addressOf i m = .error .noBump ∧
        ¬(m.key? = none → (kind.account i).HasBump Program.exchange) := by
  rw [addressOf]
  cases m.key? with
  | some a => exact .inl ⟨⟨a, rfl⟩, nofun⟩
  | none =>
      obtain ⟨seeds, hseeds⟩ := hkind.exists_seeds i hi
      by_cases hbump : (kind.account i).HasBump Program.exchange
      · exact .inl ⟨Account.address_of_hasBump hseeds hbump, fun _ => hbump⟩
      · exact .inr ⟨Account.address_of_not_hasBump hseeds hbump, fun h => hbump (h rfl)⟩

/-- Listed markets with addresses are placed one after another. -/
theorem exists_placed (kind : MarketKind α) (place : Int → Address → α → α) (n : Nat)
    (ms : List (Listed α))
    (h : ∀ i m, ms[i]? = some m → ∃ a, kind.addressOf (n + i) m = .ok a) :
    ∃ markets, kind.placed place n ms = .ok markets ∧ markets.length = ms.length ∧
      ∀ i m, ms[i]? = some m → ∃ a, kind.addressOf (n + i) m = .ok a ∧
        markets[i]? = some (place (n + i : Nat) a m.record) := by
  induction ms generalizing n with
  | nil => exact ⟨[], rfl, rfl, by simp⟩
  | cons m ms ih =>
      obtain ⟨a, ha⟩ := h 0 m rfl
      obtain ⟨markets, hmarkets, hlen, hplaced⟩ := ih (n + 1) fun i m hm => by
        rw [Nat.add_right_comm]
        exact h (i + 1) m hm
      refine ⟨place n a m.record :: markets, ?_, by rw [List.length_cons, hlen, List.length_cons],
        fun i m' hm' => ?_⟩
      · rw [Nat.add_zero] at ha
        rw [placed, ha, hmarkets]
        rfl
      · cases i with
        | zero =>
            obtain rfl : m = m' := Option.some.inj hm'
            exact ⟨a, ha, rfl⟩
        | succ i =>
            have hi := hplaced i m' hm'
            rwa [Nat.add_right_comm] at hi

/-- The first listed market without an address decides about the failure. -/
theorem placed_eq_error (place : Int → Address → α → α) (n : Nat) (ms : List (Listed α))
    {e : DerivationError}
    (hcases : ∀ i m, ms[i]? = some m →
      (∃ a, kind.addressOf (n + i) m = .ok a) ∨ kind.addressOf (n + i) m = .error e)
    (h : ∃ i m, ms[i]? = some m ∧ kind.addressOf (n + i) m = .error e) :
    kind.placed place n ms = .error e := by
  induction ms generalizing n with
  | nil =>
      obtain ⟨i, m, hm, -⟩ := h
      simp at hm
  | cons m ms ih =>
      rw [placed]
      rcases hcases 0 m rfl with ⟨a, ha⟩ | herror
      -- the first market has an address, so that the one without comes later
      · obtain ⟨i, m', hm', herror⟩ := h
        have hrest : kind.placed place (n + 1) ms = .error e := by
          refine ih (n + 1) (fun i m hm => ?_) ?_
          · rw [Nat.add_right_comm]
            exact hcases (i + 1) m hm
          · cases i with
            | zero =>
                obtain rfl : m = m' := Option.some.inj hm'
                rw [herror] at ha
                cases ha
            | succ i => exact ⟨i, m', hm', by rwa [Nat.add_right_comm]⟩
        rw [Nat.add_zero] at ha
        rw [ha, hrest]
        rfl
      · rw [Nat.add_zero] at herror
        rw [herror]
        rfl

/-- **Listed markets are placed** exactly when every address that has to be derived can be. -/
theorem placed_cases (hkind : kind.Lawful place) {ms : List (Listed α)}
    (hlen : ms.length ≤ 65536) :
    (kind.Derivable ms → ∃ markets, kind.placed place 0 ms = .ok markets ∧
        kind.Loads place ms markets) ∧
      (¬kind.Derivable ms → kind.placed place 0 ms = .error .noBump) := by
  have hcases := fun i m (hm : ms[i]? = some m) => addressOf_cases hkind
    (i := i) ((List.getElem?_eq_some_iff.mp hm).1.trans_le hlen) m
  constructor
  · intro hderivable
    obtain ⟨markets, hmarkets, hlength, hplaced⟩ := exists_placed kind place 0 ms
      fun i m hm => by
        rw [Nat.zero_add]
        rcases hcases i m hm with ⟨ha, -⟩ | ⟨-, hnone⟩
        · exact ha
        · exact absurd (hderivable i m hm) hnone
    refine ⟨markets, hmarkets, hlength, fun i m hm => ?_⟩
    have hi := hplaced i m hm
    rwa [Nat.zero_add] at hi
  · intro hnot
    refine placed_eq_error place 0 ms (fun i m hm => ?_) ?_
    · rw [Nat.zero_add]
      exact (hcases i m hm).imp And.left And.left
    · simp only [Derivable, not_forall] at hnot
      obtain ⟨i, m, hm, hkey, hbump⟩ := hnot
      rcases hcases i m hm with ⟨-, h⟩ | ⟨herror, -⟩
      · exact absurd (h hkey) hbump
      · exact ⟨i, m, hm, by rwa [Nat.zero_add]⟩

end MarketKind

/-! ### Registries -/

theorem Logged.outcome_bind {ε β γ : Type} (x : Logged ε β) (f : β → Logged ε γ) :
    (x >>= f).outcome = x.outcome >>= fun b => (f b).outcome := by
  obtain ⟨log, outcome⟩ := x
  cases outcome with
  | error e => rfl
  | ok b => rfl

/-- **Every list of markets is loaded**, in every spelling. From two dumps that spell at most
65536 spot and perp markets, with any lookup table, the registry of exactly these markets is
built: each has the written fields, its place as index, and its public key if it is written and
the derived address otherwise. Only an address that has to be derived and for which all 255
bumps lead to the curve prevents that, and then the failure says so. -/
theorem outcome_ofDumps {spots : List (Listed SpotMarket)} {perps : List (Listed PerpMarket)}
    {spotDump perpDump : List Char} (hspot : MarketKind.spot.Dumps spots spotDump)
    (hperp : MarketKind.perp.Dumps perps perpDump) (hspots : spots.length ≤ 65536)
    (hperps : perps.length ≤ 65536) (table : LookupTable) :
    (MarketKind.spot.Derivable spots ∧ MarketKind.perp.Derivable perps →
      ∃ registry, (Registry.ofDumps spotDump perpDump table).outcome = .ok registry ∧
        registry.lookupTable = table ∧
        MarketKind.spot.Loads (fun index key m =>
          { m with marketIndex := index, pubkey := some key }) spots registry.spotMarkets ∧
        MarketKind.perp.Loads (fun index key m =>
          { m with marketIndex := index, pubkey := some key }) perps registry.perpMarkets) ∧
    (¬(MarketKind.spot.Derivable spots ∧ MarketKind.perp.Derivable perps) →
      (Registry.ofDumps spotDump perpDump table).outcome = .error (.derivation .noBump)) := by
  have hspotcases := MarketKind.placed_cases MarketKind.lawful_spot hspots
  have hperpcases := MarketKind.placed_cases MarketKind.lawful_perp hperps
  have houtcome : (Registry.ofDumps spotDump perpDump table).outcome =
      (do
        let s ← (loadDump .spot spotDump).outcome
        let p ← (loadDump .perp perpDump).outcome
        return ⟨s, p, table⟩) := by
    rw [Registry.ofDumps, Logged.outcome_bind]
    refine congrArg (_ >>= ·) (funext fun s => ?_)
    rw [Logged.outcome_bind]
    rfl
  rw [outcome_loadDump MarketKind.lawful_spot hspot,
    outcome_loadDump MarketKind.lawful_perp hperp] at houtcome
  constructor
  · rintro ⟨hs, hp⟩
    obtain ⟨s, hsplaced, hsloads⟩ := hspotcases.1 hs
    obtain ⟨p, hpplaced, hploads⟩ := hperpcases.1 hp
    refine ⟨⟨s, p, table⟩, ?_, rfl, hsloads, hploads⟩
    rw [houtcome, hsplaced, hpplaced]
    rfl
  · intro hnot
    by_cases hs : MarketKind.spot.Derivable spots
    · obtain ⟨s, hsplaced, -⟩ := hspotcases.1 hs
      rw [houtcome, hsplaced, hperpcases.2 fun hp => hnot ⟨hs, hp⟩]
      rfl
    · rw [houtcome, hspotcases.2 hs]
      rfl

/-! ### A dump with one market -/

/-- The fields of the market below that are zero. -/
def zeroFields : List String :=
  ["depositBalance", "borrowBalance", "cumulativeDepositInterest", "cumulativeBorrowInterest",
    "orderStepSize", "orderTickSize", "minOrderSize", "maxTokenDeposits", "initialAssetWeight",
    "maintenanceAssetWeight", "initialLiabilityWeight", "maintenanceLiabilityWeight", "imfFactor",
    "liquidatorFee", "ifLiquidationFee", "optimalUtilization", "optimalBorrowRate",
    "maxBorrowRate", "decimals"]

/-- A spot market that is listed without its public key. -/
def soleSpot : Listed SpotMarket where
  key? := none
  record :=
    { oracle := Program.exchange, mint := .zero, name := ⟨List.replicate 32 32, rfl⟩
      historicalOracleData := ⟨150000000, 0, -2, 0, 0, 0⟩
      depositBalance := 0, borrowBalance := 0, cumulativeDepositInterest := 0
      cumulativeBorrowInterest := 0, orderStepSize := 0, orderTickSize := 0, minOrderSize := 0
      maxTokenDeposits := 0, initialAssetWeight := 0, maintenanceAssetWeight := 0
      initialLiabilityWeight := 0, maintenanceLiabilityWeight := 0, imfFactor := 0
      liquidatorFee := 0, ifLiquidationFee := 0, optimalUtilization := 0, optimalBorrowRate := 0
      maxBorrowRate := 0, decimals := 0, ordersEnabled := true, oracleSource := .pythPull
      status := .active, assetTier := .collateral, marketIndex := 0, pubkey := none }

/-- The members of its account, each in one of its spellings. -/
def soleMembers : List (Text × Json) :=
  [(.ofString "oracle", .string (.ofString "dRiftyHA39MWEi3m9aunc5MzRF1JYuBsbn6VPcn33UH")),
    (.ofString "mint", .array (Json.ofBytes (List.replicate 32 0))),
    (.ofString "name", .array (Json.ofBytes (List.replicate 32 32))),
    (.ofString "historicalOracleData", .object
      [(.ofString "lastOraclePrice", .string (.ofString "08F0d180")),
        (.ofString "lastOracleConf", .number (.int 0)),
        (.ofString "lastOracleDelay", .string (.ofString "-2")),
        (.ofString "lastOraclePriceTwap", .number (.int 0)),
        (.ofString "lastOraclePriceTwap5Min", .number (.int 0)),
        (.ofString "lastOraclePriceTwapTs", .number (.int 0))])] ++
  zeroFields.map (fun name => (.ofString name, .number (.int 0))) ++
  [(.ofString "ordersEnabled", .bool true),
    (.ofString "oracleSource", .object [(.ofString "pythPull", .object [])]),
    (.ofString "status", .string (.ofString "active")),
    (.ofString "assetTier", .object [(.ofString "collateral", .object [])])]

/-- A dump of the market, in short pieces. -/
def soleDump : List Char :=
  (["[\x7b \"account\": \x7b", "\"oracle\":", "\"dRiftyHA39MWEi3m9aunc5MzRF1JYuBsbn6VPcn33UH\"",
      ", \"mint\": [0"] ++ List.replicate 31 ",0" ++ ["], \"name\": [32"] ++
    List.replicate 31 ", 32" ++ ["], \"historicalOracleData\":", "\x7b\"lastOraclePrice\":",
      "\"08F0d180\",", "\"lastOracleConf\": 0,", "\"lastOracleDelay\": \"-2\",",
      "\"lastOraclePriceTwap\": 0,", "\"lastOraclePriceTwap5Min\": 0,",
      "\"lastOraclePriceTwapTs\": 0\x7d,"] ++
    zeroFields.flatMap (fun name => ["\"", name, "\": 0, "]) ++
    ["\"ordersEnabled\": true, ", "\"oracleSource\":", " \x7b\"pythPull\": \x7b\x7d\x7d,",
      "\"status\": \"active\", ", "\"assetTier\":", " \x7b\"collateral\": \x7b\x7d\x7d",
      "\x7d\x7d]"]).flatMap String.toList

/-- The account of the market is spelled. -/
theorem lists_soleSpot :
    MarketKind.spot.Lists soleSpot (.object [(accountKey, .object soleMembers)]) := by
  have hkey : ¬Program.exchange.isShadowed := by
    rw [Address.isShadowed, Program.toText_exchange]
    decide
  have htext : Text.ofString "dRiftyHA39MWEi3m9aunc5MzRF1JYuBsbn6VPcn33UH" =
      Text.ofChars Program.exchange.toText := by
    rw [Program.toText_exchange]
    rfl
  have hzero : Format.int.Spells 0 (.number (.int 0)) := ⟨by decide, .inl rfl⟩
  have hprice : Format.int.Spells 150000000 (.string (.ofString "08F0d180")) :=
    ⟨by decide, .inr ⟨_, .inr ⟨150000000, rfl, rfl, rfl⟩, rfl⟩⟩
  have hdelay : Format.int.Spells (-2) (.string (.ofString "-2")) :=
    ⟨by decide, .inr ⟨_, .inl ⟨['2'], 2, rfl, rfl, rfl⟩, rfl⟩⟩
  refine ⟨_, _, rfl, .refl _, _, _, _, rfl, by decide, ?_, rfl⟩
  refine ⟨_, _, rfl, .refl _, ?_⟩
  refine ⟨_, _, _, rfl, by decide, .inr ⟨hkey, congrArg Json.string htext⟩, ?_⟩
  refine ⟨_, _, _, rfl, by decide, .inl rfl, ?_⟩
  refine ⟨_, _, _, rfl, by decide, rfl, ?_⟩
  refine ⟨_, _, _, rfl, by decide, ⟨_, _, rfl, .refl _, ?_⟩, ?_⟩
  · refine ⟨_, _, _, rfl, by decide, hprice, ?_⟩
    refine ⟨_, _, _, rfl, by decide, hzero, ?_⟩
    refine ⟨_, _, _, rfl, by decide, hdelay, ?_⟩
    iterate 3 refine ⟨_, _, _, rfl, by decide, hzero, ?_⟩
    rfl
  · iterate 19 refine ⟨_, _, _, rfl, by decide, hzero, ?_⟩
    refine ⟨_, _, _, rfl, by decide, rfl, ?_⟩
    refine ⟨_, _, _, rfl, by decide, .inr rfl, ?_⟩
    refine ⟨_, _, _, rfl, by decide, .inl rfl, ?_⟩
    refine ⟨_, _, _, rfl, by decide, .inr rfl, ?_⟩
    rfl

theorem dumps_soleDump : MarketKind.spot.Dumps [soleSpot] soleDump := by
  refine ⟨by decide +kernel, [.object [(accountKey, .object soleMembers)]], ?_,
    .cons lists_soleSpot .nil⟩
  rw [Json.read, Json.ofLexemes_eq_ok_iff]
  decide +kernel

/-- The second bump that is tried leads off the curve. -/
theorem hasBump_spotMarket_zero : (Account.spotMarket 0).HasBump Program.exchange := by
  intro seeds hseeds
  obtain rfl : [asciiBytes "spot_market", [0, 0]] = seeds := Except.ok.inj hseeds
  exact ⟨254, by decide, by decide +kernel⟩

theorem outcome_soleDump :
    MarketKind.spot.Dumps [soleSpot] soleDump ∧ MarketKind.perp.Dumps [] "[ ]".toList ∧
      ∃ registry a, (Registry.ofDumps soleDump "[ ]".toList .empty).outcome = .ok registry ∧
        (Account.spotMarket 0).address Program.exchange = .ok a ∧
        registry.spotMarkets = [{ soleSpot.record with marketIndex := 0, pubkey := some a }] ∧
        registry.perpMarkets = [] := by
  have hperp : MarketKind.perp.Dumps [] "[ ]".toList := ⟨by decide, [], rfl, .nil⟩
  have hspots : MarketKind.spot.Derivable [soleSpot] := by
    intro i m hm _
    obtain ⟨hi, -⟩ := List.getElem?_eq_some_iff.mp hm
    obtain rfl : i = 0 := Nat.lt_one_iff.mp hi
    exact hasBump_spotMarket_zero
  have hperps : MarketKind.perp.Derivable [] := fun i m hm => by simp at hm
  obtain ⟨registry, houtcome, -, ⟨hspotlen, hspotloads⟩, hperplen, -⟩ :=
    (outcome_ofDumps dumps_soleDump hperp (by decide) (by decide) .empty).1 ⟨hspots, hperps⟩
  obtain ⟨a, ha, hmarket⟩ := hspotloads 0 soleSpot rfl
  obtain ⟨market, hsole⟩ := List.length_eq_one_iff.mp hspotlen
  refine ⟨dumps_soleDump, hperp, registry, a, houtcome, ha, ?_, List.length_eq_zero_iff.mp hperplen⟩
  rw [hsole] at hmarket ⊢
  exact congrArg (fun m => [m]) (Option.some.inj hmarket)

end MarketRegistry
