import MarketRegistry.Proofs.Market.Loading
import MarketRegistry.Proofs.Market.Wrapper

/-!
# Bundles are decoded in place

Every element of a bundle is decoded by itself, at its own place. So a bundle is decoded when
each of its elements is, no record depends on what stands elsewhere, and the first element that
is no wrapper decides about the failure, whatever follows it.

All this is so for a text that leaves room below the limit of the reader, and a failure is then
one of the configuration. A text that does not nest within the limit makes the reading itself fail,
and that failure gets out as it is: it is none of the configuration and names no market. Of the
few levels in between nothing is said, since a fault may be too deep there to be reported.

## Conventions

A text is json when `Json.parse` reads it: as the standard has it, with integers of at most 4300
digits, and with the last value of a repeated key. The limit is any number, as it depends on where
the call stands; `decodeBundle` has that of a call from the outermost level.

## Main definitions

* `MarketKind.Addressable` — bundles whose places all have an address.
* `MarketKind.DecodesInPlace` — what decoding a text comes to, element by element.

## Main results

* `decodeBundleWithin_of_not_nestsWithin` — a text that nests too deep is not decoded.
* `MarketKind.index_of_decodeBundleWithin` — the place of a record is its index.
* `MarketKind.decodesInPlace` — bundles of a lawful kind are decoded in place.
* `bundles_decode_in_place` — spot and perp bundles are.
* `escapes_deepText` — a text whose failure is none of the configuration.
-/

namespace MarketRegistry

variable {α : Type} {kind : MarketKind α} {limit : Nat}

/-! ### Bundles -/

theorem Json.distinct_of_parse {text : List Char} {js : List Json}
    (h : Json.parse text = .ok (.array js)) : ∀ j ∈ js, j.Distinct := by
  rw [Json.parse] at h
  cases hread : Json.read text with
  | error e =>
      rw [hread] at h
      cases h
  | ok document =>
      rw [hread] at h
      have hdistinct := Json.distinct_lastWins document
      rw [Except.ok.inj h] at hdistinct
      exact Json.distinctItems_iff.mp hdistinct

theorem decodeBundleWithin_of_array {text : List Char} {js : List Json}
    (hnests : Json.NestsWithin limit text) (h : Json.parse text = .ok (.array js)) :
    decodeBundleWithin limit kind text = decodeWrappers kind 0 js := by
  rw [decodeBundleWithin, Json.parseWithin_of_nestsWithin hnests, h]
  rfl

/-- **A text that is no json array** is no bundle. -/
theorem decodeBundleWithin_of_not_array (kind : MarketKind α) {text : List Char}
    (hnests : Json.NestsWithin limit text) (h : ¬∃ js, Json.parse text = .ok (.array js)) :
    ∃ c, decodeBundleWithin limit kind text = .error (.config c) := by
  rw [decodeBundleWithin, Json.parseWithin_of_nestsWithin hnests]
  cases hparse : Json.parse text with
  | error e => exact ⟨.notJson e, rfl⟩
  | ok j =>
      cases j with
      | array js => exact absurd ⟨js, hparse⟩ h
      | _ => exact ⟨.notArray _, rfl⟩

/-- **A text that nests too deep** is not decoded, whatever stands in it. -/
theorem decodeBundleWithin_of_not_nestsWithin (kind : MarketKind α) {text : List Char}
    (h : ¬Json.NestsWithin limit text) :
    ∃ l ∈ lexemes text, ∃ container, l.opens? = some container ∧
      decodeBundleWithin limit kind text = .error (.tooDeep container) := by
  obtain ⟨l, hl, container, hopens, hparse⟩ := Json.exists_tooDeep_of_not_nestsWithin h
  refine ⟨l, hl, container, hopens, ?_⟩
  rw [decodeBundleWithin, hparse]
  rfl

namespace MarketKind

/-- A list of wrappers is **addressable** when it has no more elements than there are indexes of
two bytes, and when the place of each has a bump under the exchange. -/
def Addressable (kind : MarketKind α) (js : List Json) : Prop :=
  js.length ≤ 65536 ∧ ∀ i < js.length, (kind.account i).HasBump Program.exchange

/-- **Decoding a text in place** when at most `limit` containers may be open at once: `index` and
`pubkey` are the index and the public key of a record. -/
structure DecodesInPlace (kind : MarketKind α) (index : α → Int) (pubkey : α → Option Address)
    (limit : Nat) (text : List Char) : Prop where
  /-- A text that leaves room is decoded exactly when it is a json array each of whose elements is
  a wrapper at its own place. -/
  decoded_iff : Json.LeavesRoom limit text →
    ((∃ rs, decodeBundleWithin limit kind text = .ok rs) ↔
      ∃ js, Json.parse text = .ok (.array js) ∧
        ∀ (i : Nat) (j : Json), js[i]? = some j → ∃ a r, kind.Wraps i j a r)
  /-- There are as many records as elements, and each is what the element at its place wraps: it
  has its place as index and the address of its wrapper. -/
  record : ∀ {js : List Json} {rs : List α}, Json.parse text = .ok (.array js) →
    decodeBundleWithin limit kind text = .ok rs → rs.length = js.length ∧
      ∀ (i : Nat) (j : Json), js[i]? = some j →
        ∃ a r, rs[i]? = some r ∧ kind.Wraps i j a r ∧ index r = i ∧ pubkey r = some a
  /-- A record depends on nothing but its place and the element there: in every text that has
  the same element at the same place it is the same, whatever the limits. -/
  independent : ∀ {limit' : Nat} {text' : List Char} {js js' : List Json} {rs rs' : List α},
    Json.parse text = .ok (.array js) → Json.parse text' = .ok (.array js') →
    decodeBundleWithin limit kind text = .ok rs → decodeBundleWithin limit' kind text' = .ok rs' →
    ∀ i : Nat, js[i]? = js'[i]? → rs[i]? = rs'[i]?
  /-- If the text leaves room, a failure is one of the configuration. -/
  config : Json.LeavesRoom limit text → ∀ {e : Failure},
    decodeBundleWithin limit kind text = .error e → ∃ c, e = .config c
  /-- A text that does not nest within the limit fails for a container in it, and this failure is
  none of the configuration. -/
  tooDeep : ¬Json.NestsWithin limit text → ∃ l ∈ lexemes text, ∃ container,
    l.opens? = some container ∧
      decodeBundleWithin limit kind text = .error (.tooDeep container)
  /-- The first element that is no wrapper decides about the failure, whatever follows it, and
  the message begins with its place. -/
  first_fault : ∀ {js : List Json} {i : Nat} {j : Json}, Json.parse text = .ok (.array js) →
    js[i]? = some j → (∀ k < i, ∀ j', js[k]? = some j' → ∃ a r, kind.Wraps k j' a r) →
    (¬∃ a r, kind.Wraps i j a r) → ∃ c rest,
      c.message = kind.recordName ++ "[" ++ String.ofList (Numeral.decimal i) ++ "]" ++ rest ∧
      ∀ {limit' : Nat} {text' : List Char} {js' : List Json}, Json.LeavesRoom limit' text' →
        Json.parse text' = .ok (.array js') → js'.take (i + 1) = js.take (i + 1) →
        decodeBundleWithin limit' kind text' = .error (.config c)

section

variable {place : Int → Address → α → α} {index : α → Int} {pubkey : α → Option Address}
  {text : List Char} {js : List Json} {rs : List α}

/-- An addressable place has an address. -/
theorem Addressable.exists_address (hkind : kind.Lawful place) (h : kind.Addressable js) {i : Nat}
    (hi : i < js.length) : ∃ a, (kind.account i).address Program.exchange = .ok a := by
  obtain ⟨seeds, hseeds⟩ := hkind.exists_seeds i (Nat.lt_of_lt_of_le hi h.1)
  exact Account.address_of_hasBump hseeds (h.2 i hi)

/-- What is decoded nests within the limit. -/
theorem nestsWithin_of_decodeBundleWithin (h : decodeBundleWithin limit kind text = .ok rs) :
    Json.NestsWithin limit text := by
  by_contra hdeep
  obtain ⟨_, -, container, -, hfail⟩ := decodeBundleWithin_of_not_nestsWithin kind hdeep
  rw [hfail] at h
  cases h

/-- The records of a bundle, each from the wrapper at its place. -/
theorem wraps_of_decodeBundleWithin (hparse : Json.parse text = .ok (.array js))
    (h : decodeBundleWithin limit kind text = .ok rs) : rs.length = js.length ∧
      ∀ i j, js[i]? = some j → ∃ a r, rs[i]? = some r ∧ kind.Wraps i j a r := by
  rw [decodeBundleWithin_of_array (nestsWithin_of_decodeBundleWithin h) hparse,
    decodeWrappers_eq_ok_iff] at h
  obtain ⟨hlen, hall⟩ := h
  refine ⟨hlen, fun i j hj => ?_⟩
  have hi : i < rs.length := hlen ▸ (List.getElem?_eq_some_iff.mp hj).1
  have hr := hall i j rs[i] hj (List.getElem?_eq_getElem hi)
  rw [Nat.zero_add, decodeWrapper_eq_ok_iff] at hr
  obtain ⟨a, hwraps⟩ := hr
  exact ⟨a, rs[i], List.getElem?_eq_getElem hi, hwraps⟩

/-- What is decoded is a json array. -/
theorem exists_parse_of_decodeBundleWithin (h : decodeBundleWithin limit kind text = .ok rs) :
    ∃ js, Json.parse text = .ok (.array js) := by
  by_contra harray
  obtain ⟨c, hc⟩ :=
    decodeBundleWithin_of_not_array kind (nestsWithin_of_decodeBundleWithin h) harray
  rw [hc] at h
  cases h

/-- **The place of a record is its index**, whatever text it comes from. -/
theorem index_of_decodeBundleWithin (hkind : kind.Lawful place)
    (hindex : ∀ i a m, index (place i a m) = i) (h : decodeBundleWithin limit kind text = .ok rs)
    {i : Nat} {r : α} (hr : rs[i]? = some r) : index r = i := by
  obtain ⟨js, hparse⟩ := exists_parse_of_decodeBundleWithin h
  obtain ⟨hlen, hall⟩ := wraps_of_decodeBundleWithin hparse h
  have hi : i < js.length := hlen ▸ (List.getElem?_eq_some_iff.mp hr).1
  obtain ⟨a, r', hr', hwraps⟩ := hall i js[i] (List.getElem?_eq_getElem hi)
  obtain rfl := Option.some.inj (hr.symm.trans hr')
  have hplaced := hwraps.placed hkind (Json.distinct_of_parse hparse _ (List.getElem_mem hi))
  rw [← hplaced, hindex]

/-- A bundle each of whose elements is a wrapper is decoded. -/
theorem exists_decodeBundleWithin (hnests : Json.NestsWithin limit text)
    (hparse : Json.parse text = .ok (.array js))
    (h : ∀ i j, js[i]? = some j → ∃ a r, kind.Wraps i j a r) :
    ∃ rs, decodeBundleWithin limit kind text = .ok rs := by
  rw [decodeBundleWithin_of_array hnests hparse]
  cases hdecode : decodeWrappers kind 0 js with
  | ok rs => exact ⟨rs, rfl⟩
  | error e =>
      obtain ⟨i, j, hj, -, hfail⟩ := decodeWrappers_eq_error_iff.mp hdecode
      obtain ⟨a, r, hwraps⟩ := h i j hj
      rw [Nat.zero_add, decodeWrapper_eq_ok_iff.mpr ⟨a, hwraps⟩] at hfail
      cases hfail

/-- The failure of a bundle is that of its first element that is no wrapper. -/
theorem decodeBundleWithin_of_first_fault {i : Nat} {j : Json} {e : Failure}
    (hnests : Json.NestsWithin limit text) (hparse : Json.parse text = .ok (.array js))
    (hj : js[i]? = some j)
    (hbefore : ∀ k < i, ∀ j', js[k]? = some j' → ∃ a r, kind.Wraps k j' a r)
    (hfail : decodeWrapper kind i j = .error e) :
    decodeBundleWithin limit kind text = .error e := by
  rw [decodeBundleWithin_of_array hnests hparse]
  refine decodeWrappers_eq_error_iff.mpr ⟨i, j, hj, fun k hk j' hj' => ?_, ?_⟩
  · obtain ⟨a, r, hwraps⟩ := hbefore k hk j' hj'
    rw [Nat.zero_add]
    exact ⟨r, decodeWrapper_eq_ok_iff.mpr ⟨a, hwraps⟩⟩
  · rwa [Nat.zero_add]

/-- **A record depends on its place** and the element there. -/
theorem getElem?_eq_of_decodeBundleWithin {limit' : Nat} {text' : List Char} {js' : List Json}
    {rs' : List α} (hparse : Json.parse text = .ok (.array js))
    (hparse' : Json.parse text' = .ok (.array js'))
    (h : decodeBundleWithin limit kind text = .ok rs)
    (h' : decodeBundleWithin limit' kind text' = .ok rs') {i : Nat} (hsame : js[i]? = js'[i]?) :
    rs[i]? = rs'[i]? := by
  obtain ⟨hlen, hall⟩ := wraps_of_decodeBundleWithin hparse h
  obtain ⟨hlen', hall'⟩ := wraps_of_decodeBundleWithin hparse' h'
  cases hj : js[i]? with
  | none =>
      have hj' := hsame ▸ hj
      rw [List.getElem?_eq_none_iff, ← hlen] at hj
      rw [List.getElem?_eq_none_iff, ← hlen'] at hj'
      rw [List.getElem?_eq_none hj, List.getElem?_eq_none hj']
  | some j =>
      obtain ⟨a, r, hr, hwraps⟩ := hall i j hj
      obtain ⟨a', r', hr', hwraps'⟩ := hall' i j (hsame ▸ hj)
      have heq := (decodeWrapper_eq_ok_iff.mpr ⟨a, hwraps⟩).symm.trans
        (decodeWrapper_eq_ok_iff.mpr ⟨a', hwraps'⟩)
      rw [hr, hr', Except.ok.inj heq]

/-- **A failure is one of the configuration** if the text nests within the limit, as no address is
missing. -/
theorem exists_config_of_decodeBundleWithin (hkind : kind.Lawful place)
    (h : ∀ js, Json.parse text = .ok (.array js) → kind.Addressable js)
    (hnests : Json.NestsWithin limit text) {e : Failure}
    (he : decodeBundleWithin limit kind text = .error e) : ∃ c, e = .config c := by
  by_cases harray : ∃ js, Json.parse text = .ok (.array js)
  · obtain ⟨js, hparse⟩ := harray
    rw [decodeBundleWithin_of_array hnests hparse, decodeWrappers_eq_error_iff] at he
    obtain ⟨i, j, hj, -, hfail⟩ := he
    have haddress := (h js hparse).exists_address hkind (List.getElem?_eq_some_iff.mp hj).1
    rw [Nat.zero_add] at hfail
    obtain ⟨d, rfl, -⟩ := located_of_decodeWrapper haddress hfail
    exact ⟨_, rfl⟩
  · obtain ⟨c, hc⟩ := decodeBundleWithin_of_not_array kind hnests harray
    exact ⟨c, Except.error.inj (he.symm.trans hc)⟩

/-- **What stands behind the first fault** does not matter. -/
theorem decodeBundleWithin_of_take_eq {text' : List Char} {js' : List Json} {i : Nat} {j : Json}
    {e : Failure} (hj : js[i]? = some j)
    (hbefore : ∀ k < i, ∀ j', js[k]? = some j' → ∃ a r, kind.Wraps k j' a r)
    (hfail : decodeWrapper kind i j = .error e) (hnests' : Json.NestsWithin limit text')
    (hparse' : Json.parse text' = .ok (.array js')) (htake : js'.take (i + 1) = js.take (i + 1)) :
    decodeBundleWithin limit kind text' = .error e := by
  have hsame : ∀ k < i + 1, js'[k]? = js[k]? := by
    intro k hk
    rw [← List.getElem?_take_of_lt hk, htake, List.getElem?_take_of_lt hk]
  refine decodeBundleWithin_of_first_fault hnests' hparse' ((hsame i i.lt_succ_self).trans hj)
    (fun k hk j' hj' => ?_) hfail
  rw [hsame k (Nat.lt_succ_of_lt hk)] at hj'
  exact hbefore k hk j' hj'

/-- **An addressable text is decoded in place**, for a kind of markets that is lawful. -/
theorem decodesInPlace (hkind : kind.Lawful place) (hindex : ∀ i a m, index (place i a m) = i)
    (hpubkey : ∀ i a m, pubkey (place i a m) = some a)
    (h : ∀ js, Json.parse text = .ok (.array js) → kind.Addressable js) :
    kind.DecodesInPlace index pubkey limit text where
  decoded_iff := by
    intro hroom
    constructor
    · rintro ⟨rs, hrs⟩
      obtain ⟨js, hparse⟩ := exists_parse_of_decodeBundleWithin hrs
      refine ⟨js, hparse, fun i j hj => ?_⟩
      obtain ⟨a, r, -, hwraps⟩ := (wraps_of_decodeBundleWithin hparse hrs).2 i j hj
      exact ⟨a, r, hwraps⟩
    · rintro ⟨js, hparse, hwraps⟩
      exact exists_decodeBundleWithin hroom.nestsWithin hparse hwraps
  record := by
    intro js rs hparse hrs
    obtain ⟨hlen, hall⟩ := wraps_of_decodeBundleWithin hparse hrs
    refine ⟨hlen, fun i j hj => ?_⟩
    obtain ⟨a, r, hr, hwraps⟩ := hall i j hj
    have hplaced := hwraps.placed hkind (Json.distinct_of_parse hparse j (List.mem_of_getElem? hj))
    exact ⟨a, r, hr, hwraps, index_of_decodeBundleWithin hkind hindex hrs hr,
      by rw [← hplaced, hpubkey]⟩
  independent := fun hparse hparse' hrs hrs' i hsame =>
    getElem?_eq_of_decodeBundleWithin hparse hparse' hrs hrs' hsame
  config := fun hroom _ he => exists_config_of_decodeBundleWithin hkind h hroom.nestsWithin he
  tooDeep := decodeBundleWithin_of_not_nestsWithin kind
  first_fault := by
    intro js i j hparse hj hbefore hnot
    have haddress := (h js hparse).exists_address hkind (List.getElem?_eq_some_iff.mp hj).1
    cases hdecode : decodeWrapper kind i j with
    | ok r => exact absurd ((decodeWrapper_eq_ok_iff.mp hdecode).imp fun a h => ⟨r, h⟩) hnot
    | error e =>
        obtain ⟨d, rfl, hwithin⟩ := located_of_decodeWrapper haddress hdecode
        obtain ⟨rest, hmessage⟩ := exists_message_of_within hwithin
        exact ⟨.located d, rest, hmessage, fun hroom =>
          decodeBundleWithin_of_take_eq hj hbefore hdecode hroom.nestsWithin⟩

end

end MarketKind

/-- **Bundles are decoded in place**, spot and perp, from any text and within any limit. A text that
leaves room is decoded exactly when it is a json array of wrappers, and then record by record, each
from the element at its place and from nothing else, with its place as index and with the public
key of its wrapper or the derived address. Otherwise its failure is one of the configuration, and
that of an array begins with the place of the first element that is no wrapper. A text that does not
nest within the limit fails for a container that opens too deep. All that is assumed of a bundle is
that it has at most 65536 elements and that each of their indexes has a bump. -/
theorem bundles_decode_in_place {limit : Nat} {spotText perpText : List Char}
    (hspot : ∀ js, Json.parse spotText = .ok (.array js) → MarketKind.spot.Addressable js)
    (hperp : ∀ js, Json.parse perpText = .ok (.array js) → MarketKind.perp.Addressable js) :
    MarketKind.spot.DecodesInPlace SpotMarket.marketIndex SpotMarket.pubkey limit spotText ∧
      MarketKind.perp.DecodesInPlace PerpMarket.marketIndex PerpMarket.pubkey limit perpText :=
  ⟨MarketKind.decodesInPlace MarketKind.lawful_spot (fun _ _ _ => rfl) (fun _ _ _ => rfl) hspot,
    MarketKind.decodesInPlace MarketKind.lawful_perp (fun _ _ _ => rfl) (fun _ _ _ => rfl) hperp⟩

/-! ### A bundle with one market, and a broken one -/

/-- The written account of the sole market. -/
def soleAccount : Json :=
  (MarketKind.spot.format 0 .zero).encode soleSpot.record

/-- The normalized text of its bundle, in short pieces. -/
def soleText : List Char :=
  (["[\x7b\"account\":\x7b\"oracle\":[9"] ++
    Program.exchange.bytes.tail.map (fun b => "," ++ String.ofList (Numeral.decimal b.toNat)) ++
    ["],\"mint\":[0"] ++ List.replicate 31 ",0" ++ ["],\"name\":[32"] ++
    List.replicate 31 ",32" ++ ["],\"historicalOracleData\":", "\x7b\"lastOraclePrice\":150000000,",
      "\"lastOracleConf\":0,", "\"lastOracleDelay\":-2,", "\"lastOraclePriceTwap\":0,",
      "\"lastOraclePriceTwap5min\":0,", "\"lastOraclePriceTwapTs\":0\x7d,"] ++
    zeroFields.flatMap (fun name => ["\"", name, "\":0,"]) ++
    ["\"ordersEnabled\":true,", "\"oracleSource\":\"pythPull\",", "\"status\":\"active\",",
      "\"assetTier\":\"collateral\"", "\x7d\x7d]"]).flatMap String.toList

theorem read_soleText :
    Json.read soleText = .ok (.array [.object [(accountKey, soleAccount)]]) := by
  rw [Json.read, Json.ofLexemes_eq_ok_iff]
  decide +kernel

theorem parse_soleText :
    Json.parse soleText = .ok (.array [.object [(accountKey, soleAccount)]]) := by
  have hdistinct : soleAccount.Distinct :=
    Format.distinct_encode _ (MarketKind.lawful_spot.wellFormed 0 .zero) _
  rw [Json.parse, read_soleText]
  exact congrArg Except.ok (Json.lastWins_of_distinct _
    ⟨⟨List.nodup_singleton _, hdistinct, trivial⟩, trivial⟩)

theorem read_brokenText : Json.read "[\x7b\"account\":\x7b\x7d\x7d,7]".toList =
    .ok (.array [.object [(accountKey, .object [])], .number (.int 7)]) := by
  rw [Json.read, Json.ofLexemes_eq_ok_iff]
  decide +kernel

/-- A wrapper without any field of its account, and an element that is no object. -/
theorem parse_brokenText : Json.parse "[\x7b\"account\":\x7b\x7d\x7d,7]".toList =
    .ok (.array [.object [(accountKey, .object [])], .number (.int 7)]) := by
  rw [Json.parse, read_brokenText]
  rfl

theorem hasBump_perpMarket_of_le_one {i : Nat} (hi : i ≤ 1) :
    (Account.perpMarket i).HasBump Program.exchange := by
  have hcurve : ∀ i ≤ 1, Curve.isPoint (Sha256.digest (Account.preimage
      [asciiBytes "perp_market", [UInt8.ofNat i, 0]] 255 Program.exchange)) = false := by
    decide +kernel
  intro seeds hseeds
  obtain rfl : [asciiBytes "perp_market", [UInt8.ofNat i, 0]] = seeds := by
    rcases Nat.le_one_iff_eq_zero_or_eq_one.mp hi with rfl | rfl <;> exact Except.ok.inj hseeds
  exact ⟨255, by decide, hcurve i hi⟩

theorem bundles_soleText_brokenText :
    (∃ a r, decodeBundle .spot soleText = .ok [r] ∧ r.marketIndex = 0 ∧ r.pubkey = some a ∧
      (Account.spotMarket 0).address Program.exchange = .ok a) ∧
    ∃ c rest, decodeBundle .perp "[\x7b\"account\":\x7b\x7d\x7d,7]".toList = .error (.config c) ∧
      c.message =
        "PerpMarketAccount" ++ "[" ++ String.ofList (Numeral.decimal 0) ++ "]" ++ rest := by
  have hspot : ∀ js, Json.parse soleText = .ok (.array js) → MarketKind.spot.Addressable js := by
    intro js hjs
    obtain rfl := Json.array.inj (Except.ok.inj (parse_soleText.symm.trans hjs))
    refine ⟨by decide, fun i hi => ?_⟩
    obtain rfl : i = 0 := Nat.lt_one_iff.mp hi
    exact hasBump_spotMarket_zero
  have hperp : ∀ js, Json.parse "[\x7b\"account\":\x7b\x7d\x7d,7]".toList = .ok (.array js) →
      MarketKind.perp.Addressable js := by
    intro js hjs
    obtain rfl := Json.array.inj (Except.ok.inj (parse_brokenText.symm.trans hjs))
    refine ⟨by decide, fun i hi => ?_⟩
    exact hasBump_perpMarket_of_le_one (Nat.le_of_lt_succ hi)
  have hspotRoom : Json.LeavesRoom Json.nestingLimit soleText :=
    ⟨by decide, (Json.nestsWithin_iff_of_read read_soleText).mpr (by decide +kernel)⟩
  have hperpRoom : Json.LeavesRoom Json.nestingLimit "[\x7b\"account\":\x7b\x7d\x7d,7]".toList :=
    ⟨by decide, (Json.nestsWithin_iff_of_read read_brokenText).mpr (by decide +kernel)⟩
  obtain ⟨hdecoded, hbroken⟩ := bundles_decode_in_place hspot hperp
  constructor
  · obtain ⟨a, ha⟩ := (hspot _ parse_soleText).exists_address MarketKind.lawful_spot Nat.zero_lt_one
    have hdecode : (MarketKind.spot.format 0 a).decode (MarketKind.spot.path 0) soleAccount =
        .ok { soleSpot.record with marketIndex := 0, pubkey := some a } := by
      have hgiven := Format.decode_of_alike _ (MarketKind.lawful_spot.wellFormed 0 a)
        (MarketKind.spot.path 0) _ (Format.alike_encode _ soleSpot.record)
      rwa [MarketKind.lawful_spot.withGiven] at hgiven
    have hwraps : MarketKind.spot.Wraps 0 (.object [(accountKey, soleAccount)]) a
        { soleSpot.record with marketIndex := 0, pubkey := some a } :=
      ⟨_, _, rfl, rfl, fun k hk => .inl (List.mem_singleton.mp hk), ha, hdecode⟩
    obtain ⟨rs, hrs⟩ := (hdecoded.decoded_iff hspotRoom).mpr ⟨_, parse_soleText, fun i j hj => by
      obtain ⟨hi, rfl⟩ := List.getElem?_eq_some_iff.mp hj
      obtain rfl : i = 0 := Nat.lt_one_iff.mp hi
      exact ⟨a, _, hwraps⟩⟩
    obtain ⟨hlen, hrecord⟩ := hdecoded.record parse_soleText hrs
    obtain ⟨a', r, hr, ⟨_, _, hobject, -, -, haddress, -⟩, hindex, hpubkey⟩ := hrecord 0 _ rfl
    obtain ⟨r', rfl⟩ := List.length_eq_one_iff.mp hlen
    obtain rfl := Option.some.inj hr
    cases hobject
    exact ⟨a', r', hrs, hindex, hpubkey, haddress⟩
  · have hnot : ¬∃ a r, MarketKind.perp.Wraps 0 (.object [(accountKey, .object [])]) a r := by
      rintro ⟨a, r, _, _, hobject, haccount, -, -, hdecode⟩
      cases hobject
      obtain rfl := Option.some.inj haccount
      obtain ⟨members, hmembers, hfields⟩ := bind_eq_ok_iff.mp hdecode
      obtain rfl : [] = members := Except.ok.inj hmembers
      obtain ⟨⟨amm, rest⟩, hread, -⟩ := bind_eq_ok_iff.mp hfields
      rcases (Fields.decode_read_eq_ok_iff.mp hread).1 with ⟨_, hlookup, -⟩ | ⟨-, hdefault⟩
      · cases hlookup
      · cases hdefault
    obtain ⟨c, rest, hmessage, hfail⟩ := hbroken.first_fault parse_brokenText rfl
      (fun k hk => absurd hk k.not_lt_zero) hnot
    exact ⟨c, rest, hfail hperpRoom parse_brokenText rfl, hmessage⟩

/-! ### A text that nests too deep -/

/-- **More opening brackets than the limit** are not decoded. -/
theorem decodeBundleWithin_replicate (kind : MarketKind α) {n : Nat} (h : limit < n) :
    decodeBundleWithin limit kind (List.replicate n '[') = .error (.tooDeep .array) := by
  have hdeep : ¬Json.NestsWithin limit (List.replicate n '[') := by
    rw [Json.nestsWithin_replicate_iff]
    exact Nat.not_le.mpr h
  obtain ⟨l, hl, container, hopens, hfail⟩ := decodeBundleWithin_of_not_nestsWithin kind hdeep
  rw [Json.lexemes_replicate] at hl
  obtain rfl := List.eq_of_mem_replicate hl
  obtain rfl : .array = container := Option.some.inj hopens
  exact hfail

/-- A thousand opening brackets. -/
def deepText : List Char :=
  List.replicate 1000 '['

/-- **A failure that is none of the configuration**: the text is a normalized one, and it breaks off
in the middle of a value, but the reader does not get there. -/
theorem escapes_deepText : (normalize deepText).outcome = .ok deepText ∧
    decodeBundle .spot deepText = .error (.tooDeep .array) ∧
    decodeBundle .perp deepText = .error (.tooDeep .array) ∧
    ¬∃ c, decodeBundle .spot deepText = .error (.config c) := by
  have hlimit : Json.nestingLimit < 1000 := by decide
  have hspot : decodeBundle .spot deepText = .error (.tooDeep .array) :=
    decodeBundleWithin_replicate .spot hlimit
  have hscan : deepText.foldl Scan.step Scan.start =
      ⟨List.replicate 1000 (.mark '['), .nothing⟩ := by
    decide +kernel
  have htokens : tokenize deepText = .ok (List.replicate 1000 (.mark '[')) := by
    rw [tokenize_eq_ok_iff, hscan]
    exact ⟨nofun, List.reverse_replicate.symm⟩
  have htext : (normalizeTokens (List.replicate 1000 (.mark '['))).text = deepText := by
    decide +kernel
  refine ⟨?_, hspot, decodeBundleWithin_replicate .perp hlimit, ?_⟩
  · rw [normalize, htokens]
    exact congrArg Except.ok htext
  · rintro ⟨c, hc⟩
    cases hspot.symm.trans hc

end MarketRegistry
