import MarketRegistry.Proofs.Format.Culprit
import MarketRegistry.Proofs.Format.Reordered
import MarketRegistry.Proofs.Market.Wrapper

/-!
# Faults of markets

A market that is not decoded fails with one fault at one place, however many there are in it.
Which one is fixed by the market itself: it is that of the first culprit, and it is the same in
whatever order the members of the records and of their wrapper are written.

## Main definitions

* `MarketKind.Reordered` — wrappers that differ in the order of members.

## Main results

* `decode_fails_at_first_culprit` — a value fails with the fault of its first culprit.
* `decoding_ignores_member_order` — neither records nor wrappers depend on the order of members.
-/

namespace MarketRegistry

variable {α : Type} {kind : MarketKind α} {i : Nat} {ms os before after : List (Text × Json)}
  {v w j j' : Json}

/-! ### The first culprit -/

/-- Two wrappers at a place that differ only in the **order of members**: in their own, and in
those of the records in the account. -/
inductive MarketKind.Reordered (kind : MarketKind α) (i : Nat) : Json → Json → Prop where
  | refl {j : Json} : Reordered kind i j j
  | trans {j j' j'' : Json} (h : Reordered kind i j j') (h' : Reordered kind i j' j'') :
      Reordered kind i j j''
  /-- The members of the wrapper are put in another order. -/
  | perm {ms os : List (Text × Json)} (hkeys : (Json.keys ms).Nodup) (h : ms.Perm os) :
      Reordered kind i (.object ms) (.object os)
  /-- The account is put in another order. -/
  | account {before after : List (Text × Json)} {v w : Json}
      (h : ∀ a, (kind.format i a).Reordered v w) :
      Reordered kind i (.object (before ++ (accountKey, v) :: after))
        (.object (before ++ (accountKey, w) :: after))

/-- The keys of a wrapper that it may not have, in order. -/
def unknownKeys (ms : List (Text × Json)) : List Text :=
  (Json.keys ms).filter fun k => k != accountKey && k != publicKeyKey

/-- **A wrapper** that is an object: what is looked up in it, and when. -/
theorem decodeWrapper_object (kind : MarketKind α) (i : Nat) (ms : List (Text × Json)) :
    decodeWrapper kind i (.object ms) =
      match ms.lookup accountKey with
      | none => .error (.config (.located ⟨kind.path i, .notWrapper⟩))
      | some account =>
        if unknownKeys ms = [] then
          marketAddress kind i ms >>= fun a =>
            located ((kind.format i a).decode (kind.path i) account)
        else
          .error (.config (.located
            ⟨kind.path i, .unknownWrapperFields (Text.sorted (unknownKeys ms))⟩)) := by
  rw [decodeWrapper, wrapperParts, member?_eq_lookup]
  cases ms.lookup accountKey with
  | none => rfl
  | some account =>
      simp only
      split
      · rename_i hunknown
        rw [unknownKeys, hunknown, if_pos rfl]
        rfl
      · rename_i k ks hunknown
        rw [unknownKeys, hunknown, if_neg (List.cons_ne_nil k ks)]
        rfl

/-- **A wrapper is decoded alike** from objects with the same keys, in any order, the same public
key, and accounts that are decoded alike with every address. -/
theorem decodeWrapper_congr (hkeys : (Json.keys ms).Perm (Json.keys os))
    (hpublic : ms.lookup publicKeyKey = os.lookup publicKeyKey)
    (haccount : Option.Rel (fun v w => ∀ a, (kind.format i a).decode (kind.path i) v =
      (kind.format i a).decode (kind.path i) w) (ms.lookup accountKey) (os.lookup accountKey)) :
    decodeWrapper kind i (.object ms) = decodeWrapper kind i (.object os) := by
  have hunknown : (unknownKeys ms).Perm (unknownKeys os) := hkeys.filter _
  have haddress : marketAddress kind i ms = marketAddress kind i os := by
    simp only [marketAddress, member?_eq_lookup, hpublic]
  rw [decodeWrapper_object, decodeWrapper_object, Text.sorted_eq_of_perm hunknown, haddress]
  generalize ms.lookup accountKey = v at haccount
  generalize os.lookup accountKey = w at haccount
  cases haccount with
  | none => rfl
  | some hdecode => simp only [eq_nil_iff_of_perm hunknown, hdecode]

/-- **The order of members never matters** in a wrapper: the same market is decoded, or the same
failure is reported. -/
theorem MarketKind.Reordered.decodeWrapper_eq (h : kind.Reordered i j j') :
    decodeWrapper kind i j = decodeWrapper kind i j' := by
  induction h with
  | refl => rfl
  | trans _ _ ih ih' => exact ih.trans ih'
  | @perm ms os hkeys h =>
      have hlookup := fun k => lookup_perm hkeys h k
      refine decodeWrapper_congr (h.map Prod.fst) (hlookup publicKeyKey) ?_
      rw [hlookup accountKey]
      cases os.lookup accountKey with
      | none => exact .none
      | some v => exact .some fun _ => rfl
  | @account before after v w h =>
      have hlookup : ∀ (u : Json) (k : Text), (before ++ (accountKey, u) :: after).lookup k =
          (before.lookup k).or (if k = accountKey then some u else after.lookup k) := by
        intro u k
        rw [List.lookup_append, lookup_cons_eq_ite]
      refine decodeWrapper_congr ?_ ?_ ?_
      · simp only [Json.keys, List.map_append, List.map_cons, List.Perm.refl]
      · rw [hlookup, hlookup, if_neg (by decide), if_neg (by decide)]
      · rw [hlookup, hlookup, if_pos rfl, if_pos rfl]
        cases before.lookup accountKey with
        | none => exact .some fun a => (h a).decode_eq _
        | some u => exact .some fun _ => rfl

/-- **The order of members never matters**, in records of any format and in the wrappers of
markets: the results are equal, the failures and their messages included. -/
theorem decoding_ignores_member_order :
    (∀ {α : Type} (format : Format α) (path : Path) {j j' : Json}, format.Reordered j j' →
      located (format.decode path j) = located (format.decode path j')) ∧
    ∀ {α : Type} (kind : MarketKind α) (i : Nat) {j j' : Json}, kind.Reordered i j j' →
      decodeWrapper kind i j = decodeWrapper kind i j' :=
  ⟨fun _ path _ _ h => congrArg located (h.decode_eq path), fun _ _ _ _ h => h.decodeWrapper_eq⟩

/-- Members with unknown names. -/
def strayMembers : List (Text × Json) :=
  [(Text.ofString "zeta", .number (.int 1)), (Text.ofString "alpha", .number (.int 2))]

/-- The failure that they cause, in either order. -/
def strayFailure (path : Path) : Failure :=
  .config (.located ⟨path, .unknownFields [Text.ofString "alpha", Text.ofString "zeta"]⟩)

/-- The bytes of an address, in json. -/
def zeroBytes : Json :=
  .array (Json.ofBytes (List.replicate 32 0))

/-- A market maker whose oracle data are at fault. -/
def strayAmm : Json :=
  .object [(Text.ofString "historicalOracleData", .object strayMembers),
    (Text.ofString "oracle", zeroBytes)]

/-- The wrapper of a market at fault. -/
def strayWrapper : Json :=
  .object [(accountKey, .object strayMembers), (publicKeyKey, zeroBytes)]

theorem member_order_strayMembers :
    located (Amm.format.decode (.root "amm") strayAmm) =
      .error (strayFailure ((Path.root "amm").field "historical_oracle_data")) ∧
    decodeWrapper .perp 3 strayWrapper = .error (strayFailure (MarketKind.perp.path 3)) := by
  obtain ⟨hrecords, hwrappers⟩ := decoding_ignores_member_order
  have hstray : ∀ {α β : Type} {fields : Fields β} {shape : Shape α β},
      (Format.record fields shape).Reordered (.object strayMembers)
        (.object strayMembers.reverse) :=
    .perm (by decide) (List.reverse_perm _).symm
  have horacleData : ∀ f ∈ Amm.fields.toList,
      fieldName? (Text.ofString "historicalOracleData") = some f.name.toList →
        f.format.Reordered (.object strayMembers) (.object strayMembers.reverse) := by
    have hfirst : fieldName? (Text.ofString "historicalOracleData") ≠ some "oracle".toList := by
      decide +kernel
    have hrest : ∀ f ∈ Amm.fields.toList.tail.tail,
        fieldName? (Text.ofString "historicalOracleData") ≠ some f.name.toList := by
      decide +kernel
    refine List.forall_mem_cons.mpr ⟨fun h => absurd h hfirst, ?_⟩
    exact List.forall_mem_cons.mpr ⟨fun _ => hstray, fun f hf h => absurd h (hrest f hf)⟩
  have hamm : Amm.format.Reordered strayAmm (.object [(Text.ofString "oracle", zeroBytes),
      (Text.ofString "historicalOracleData", .object strayMembers.reverse)]) :=
    .trans (.perm (by decide) (.swap _ _ []))
      (@Format.Reordered.member _ _ _ _ [_] [] _ _ _ horacleData)
  have hwrapper : MarketKind.perp.Reordered 3 strayWrapper
      (.object [(publicKeyKey, zeroBytes), (accountKey, .object strayMembers.reverse)]) :=
    .trans (.perm (by decide) (.swap _ _ []))
      (@MarketKind.Reordered.account _ _ _ [_] [] _ _ fun _ => hstray)
  rw [hrecords _ _ hamm, hwrappers _ _ hwrapper]
  exact ⟨rfl, rfl⟩

end MarketRegistry
