import MarketRegistry.Proofs.Format.Located
import MarketRegistry.Proofs.Market.Spelled

/-!
# Wrappers

A wrapper is decoded by itself, at its place: to the record of its account with the place as
index, and with the public key that it holds or the address derived from the place. If it is no
wrapper, the fault stands within that place.

## Main definitions

* `MarketKind.Addresses`, `MarketKind.Wraps` — the address and the record of a wrapper.

## Main results

* `decodeWrapper_eq_ok_iff`, `located_of_decodeWrapper` — one wrapper.
* `MarketKind.Wraps.placed` — what is given of a record stands in it.
* `decodeWrappers_eq_ok_iff`, `decodeWrappers_eq_error_iff` — wrappers one after another.
-/

namespace MarketRegistry

variable {α : Type} {kind : MarketKind α} {members : List (Text × Json)}

/-! ### Failures of the library -/

section Located

variable {x : Except DecodeError α} {e : Failure}

theorem located_eq_ok_iff {a : α} : located x = .ok a ↔ x = .ok a := by
  cases x with
  | error d => exact iff_of_false nofun nofun
  | ok b => exact Except.ok.injEq b a ▸ Except.ok.injEq b a ▸ Iff.rfl

theorem located_eq_error_iff : located x = .error e ↔
    ∃ d, x = .error d ∧ e = .config (.located d) := by
  cases x with
  | error d =>
      constructor
      · rintro ⟨⟩
        exact ⟨d, rfl, rfl⟩
      · rintro ⟨d', hd, rfl⟩
        cases hd
        rfl
  | ok b =>
      refine iff_of_false nofun ?_
      rintro ⟨d, hd, -⟩
      cases hd

end Located

/-! ### One wrapper -/

namespace MarketKind

/-- The **address of a wrapper** at a place: the bytes of its public key if it has one, and
otherwise the address derived from the place. -/
def Addresses (kind : MarketKind α) (i : Nat) (members : List (Text × Json)) (a : Address) : Prop :=
  match Json.member? publicKeyKey members with
  | some key => key = .array (Json.ofBytes a.bytes)
  | none => (kind.account i).address Program.exchange = .ok a

/-- A **wrapper at a place**, with the address and the record that it wraps: an object with an
account and perhaps a public key, whose account is decoded with its place as index and with the
address of the wrapper. -/
def Wraps (kind : MarketKind α) (i : Nat) (j : Json) (a : Address) (r : α) : Prop :=
  ∃ members account, j = .object members ∧ Json.member? accountKey members = some account ∧
    (∀ k ∈ Json.keys members, k = accountKey ∨ k = publicKeyKey) ∧
    kind.Addresses i members a ∧ (kind.format i a).decode (kind.path i) account = .ok r

end MarketKind

theorem marketAddress_eq_ok_iff {i : Nat} {a : Address} :
    marketAddress kind i members = .ok a ↔ kind.Addresses i members a := by
  rw [marketAddress, MarketKind.Addresses]
  cases Json.member? publicKeyKey members with
  | some key => exact located_eq_ok_iff.trans decodeAddress_eq_ok_iff
  | none =>
      simp only
      cases (kind.account i).address Program.exchange with
      | error e => exact iff_of_false nofun nofun
      | ok b => exact Except.ok.injEq b a ▸ Except.ok.injEq b a ▸ Iff.rfl

theorem wrapperParts_eq_ok_iff {path : Path} {j account : Json} :
    wrapperParts path j = .ok (account, members) ↔
      j = .object members ∧ Json.member? accountKey members = some account ∧
        ∀ k ∈ Json.keys members, k = accountKey ∨ k = publicKeyKey := by
  have hunknown : ∀ ms : List (Text × Json),
      ((Json.keys ms).filter fun k => k != accountKey && k != publicKeyKey) = [] ↔
        ∀ k ∈ Json.keys ms, k = accountKey ∨ k = publicKeyKey := by
    intro ms
    simp [List.filter_eq_nil_iff, or_iff_not_imp_left]
  constructor
  · intro h
    unfold wrapperParts at h
    split at h
    · split at h
      · cases h
      · rename_i haccount
        split at h
        · rename_i hkeys
          cases h
          exact ⟨rfl, haccount, (hunknown _).mp hkeys⟩
        · cases h
    · cases h
  · rintro ⟨rfl, haccount, hkeys⟩
    simp only [wrapperParts, haccount, (hunknown members).mpr hkeys]

theorem wrapperParts_failsWithin (path : Path) (j : Json) :
    FailsWithin path (wrapperParts path j) := by
  unfold wrapperParts
  split
  · split
    · exact .error _
    · split
      · exact .ok _
      · exact .error _
  · exact .error _

/-- **A wrapper is decoded** to the record that it wraps, and nothing else is decoded. -/
theorem decodeWrapper_eq_ok_iff {i : Nat} {j : Json} {r : α} :
    decodeWrapper kind i j = .ok r ↔ ∃ a, kind.Wraps i j a r := by
  constructor
  · intro h
    obtain ⟨⟨account, members⟩, hparts, h⟩ := bind_eq_ok_iff.mp h
    obtain ⟨a, haddress, h⟩ := bind_eq_ok_iff.mp h
    obtain ⟨hobject, haccount, hkeys⟩ := wrapperParts_eq_ok_iff.mp (located_eq_ok_iff.mp hparts)
    exact ⟨a, members, account, hobject, haccount, hkeys, marketAddress_eq_ok_iff.mp haddress,
      located_eq_ok_iff.mp h⟩
  · rintro ⟨a, members, account, hobject, haccount, hkeys, haddress, hdecode⟩
    have hparts : wrapperParts (kind.path i) j = .ok (account, members) :=
      wrapperParts_eq_ok_iff.mpr ⟨hobject, haccount, hkeys⟩
    refine bind_eq_ok_iff.mpr ⟨(account, members), located_eq_ok_iff.mpr hparts, ?_⟩
    exact bind_eq_ok_iff.mpr
      ⟨a, marketAddress_eq_ok_iff.mpr haddress, located_eq_ok_iff.mpr hdecode⟩

/-- **A wrapper that is not decoded** is at fault itself, if an address can be derived. -/
theorem located_of_decodeWrapper {i : Nat} {j : Json} {e : Failure}
    (haddress : ∃ a, (kind.account i).address Program.exchange = .ok a)
    (h : decodeWrapper kind i j = .error e) :
    ∃ d, e = .config (.located d) ∧ (kind.path i).Within d.path := by
  have hlocated : ∀ {β : Type} {x : Except DecodeError β}, FailsWithin (kind.path i) x →
      located x = .error e → ∃ d, e = .config (.located d) ∧ (kind.path i).Within d.path := by
    intro β x hx hfail
    obtain ⟨d, hd, rfl⟩ := located_eq_error_iff.mp hfail
    exact ⟨d, rfl, hx d hd⟩
  rcases bind_eq_error_iff.mp h with hparts | ⟨⟨account, members⟩, -, h⟩
  · exact hlocated (wrapperParts_failsWithin _ j) hparts
  · rcases bind_eq_error_iff.mp h with hkey | ⟨a, -, hdecode⟩
    · rw [marketAddress] at hkey
      split at hkey
      · exact hlocated ((decodeAddress_failsWithin _ _).of_within (.field .refl "pubkey")) hkey
      · obtain ⟨a, ha⟩ := haddress
        rw [ha] at hkey
        cases hkey
    · exact hlocated (Format.decode_failsWithin _ _ account) hdecode

/-- The message of a fault within a place begins with the place. -/
theorem exists_message_of_within {i : Nat} {d : DecodeError} (h : (kind.path i).Within d.path) :
    ∃ rest, (ConfigError.located d).message =
      kind.recordName ++ "[" ++ String.ofList (Numeral.decimal i) ++ "]" ++ rest := by
  obtain ⟨rest, hrest⟩ := h.exists_text
  have hplace : (kind.path i).text =
      kind.recordName ++ "[" ++ String.ofList (Numeral.decimal i) ++ "]" := rfl
  have hmessage : (ConfigError.located d).message = d.path.text ++ ": " ++ d.fault.message := rfl
  refine ⟨rest ++ ": " ++ d.fault.message, ?_⟩
  rw [hmessage, hrest, hplace]
  simp only [String.append_assoc]

/-- The record of a wrapper has its place as index, and its address. -/
theorem MarketKind.Wraps.placed {place : Int → Address → α → α} (hkind : kind.Lawful place)
    {i : Nat} {j : Json} {a : Address} {r : α} (hj : j.Distinct) (h : kind.Wraps i j a r) :
    place i a r = r := by
  obtain ⟨members, account, rfl, haccount, -, -, hdecode⟩ := h
  rw [member?_eq_lookup] at haccount
  have hdistinct := Json.distinctMembers_iff.mp hj.2 _ (mem_of_lookup haccount)
  have hgiven := ((kind.format i a).alike_of_decode (hkind.wellFormed i a) hdistinct hdecode).2
  rwa [hkind.withGiven] at hgiven

/-! ### Wrappers one after another -/

/-- **Wrappers are decoded** when each is, at its own place. -/
theorem decodeWrappers_eq_ok_iff {n : Nat} {js : List Json} {rs : List α} :
    decodeWrappers kind n js = .ok rs ↔ rs.length = js.length ∧
      ∀ i j r, js[i]? = some j → rs[i]? = some r → decodeWrapper kind (n + i) j = .ok r := by
  induction js generalizing n rs with
  | nil =>
      rw [decodeWrappers, Except.ok.injEq, List.length_nil, List.length_eq_zero_iff, eq_comm]
      exact (and_iff_left nofun).symm
  | cons j js ih =>
      simp only [decodeWrappers, bind_eq_ok_iff, ih]
      constructor
      · rintro ⟨r, hr, rs', ⟨hlen, hrest⟩, hrs⟩
        obtain rfl := Except.ok.inj hrs
        refine ⟨congrArg (· + 1) hlen, fun i j' r' hj' hr' => ?_⟩
        cases i with
        | zero =>
            obtain rfl := Option.some.inj hj'
            obtain rfl := Option.some.inj hr'
            exact hr
        | succ i =>
            have hi := hrest i j' r' hj' hr'
            rwa [Nat.add_right_comm] at hi
      · rintro ⟨hlen, hall⟩
        cases rs with
        | nil => cases hlen
        | cons r rs =>
            refine ⟨r, hall 0 j r rfl rfl, rs, ⟨Nat.succ.inj hlen, fun i j' r' hj' hr' => ?_⟩, rfl⟩
            rw [Nat.add_right_comm]
            exact hall (i + 1) j' r' hj' hr'

/-- **Wrappers fail** as the first of them does that is not decoded. -/
theorem decodeWrappers_eq_error_iff {n : Nat} {js : List Json} {e : Failure} :
    decodeWrappers kind n js = .error e ↔ ∃ i j, js[i]? = some j ∧
      (∀ k < i, ∀ j', js[k]? = some j' → ∃ r, decodeWrapper kind (n + k) j' = .ok r) ∧
      decodeWrapper kind (n + i) j = .error e := by
  induction js generalizing n with
  | nil => exact iff_of_false nofun fun ⟨i, j, hj, _⟩ => nomatch hj
  | cons j js ih =>
      simp only [decodeWrappers, bind_eq_error_iff, ih]
      constructor
      · rintro (hfirst | ⟨r, hr, ⟨i, j', hj', hbefore, hfail⟩ | ⟨rs, -, hreturn⟩⟩)
        · exact ⟨0, j, rfl, nofun, hfirst⟩
        · refine ⟨i + 1, j', hj', fun k hk j'' hj'' => ?_, ?_⟩
          · cases k with
            | zero =>
                obtain rfl := Option.some.inj hj''
                exact ⟨r, hr⟩
            | succ k =>
                obtain ⟨r', hr'⟩ := hbefore k (Nat.lt_of_succ_lt_succ hk) j'' hj''
                exact ⟨r', by rwa [Nat.add_right_comm] at hr'⟩
          · rwa [Nat.add_right_comm] at hfail
        · cases hreturn
      · rintro ⟨i, j', hj', hbefore, hfail⟩
        cases i with
        | zero =>
            obtain rfl := Option.some.inj hj'
            exact .inl hfail
        | succ i =>
            obtain ⟨r, hr⟩ := hbefore 0 i.succ_pos j rfl
            refine .inr ⟨r, hr, .inl ⟨i, j', hj', fun k hk j'' hj'' => ?_, ?_⟩⟩
            · rw [Nat.add_right_comm]
              exact hbefore (k + 1) (Nat.succ_lt_succ hk) j'' hj''
            · rwa [Nat.add_right_comm]

end MarketRegistry
