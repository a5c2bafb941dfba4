import MarketRegistry.Address.Derivation
import MarketRegistry.Proofs.Format.Plain

/-!
# Derived addresses exist

An account has an address when it has seeds, which only its index can prevent, and when one of
the 255 bumps leads off the curve. Whether a bump does is a property of a digest. About half of
all digests are points, so that every account should have one, but no law says so.

## Main results

* `Account.HasBump` — some bump leads off the curve.
* `Account.address_of_hasBump`, `Account.address_of_not_hasBump` — what decides about an address.
* `Account.address_eq_ok_iff` — an address comes from the greatest bump that leads off the curve.
-/

namespace MarketRegistry

/-- An index of two bytes is a seed. -/
theorem exists_indexBytes {i : Nat} (h : i < 65536) : ∃ bytes, indexBytes i = .ok bytes := by
  rw [indexBytes, if_neg (by omega), if_neg (by omega)]
  exact ⟨_, rfl⟩

namespace Account

/-- An account **has a bump** under a program when the digest of some bump other than zero is no
point of the curve. -/
def HasBump (account : Account) (program : Address) : Prop :=
  ∀ seeds, account.seeds = .ok seeds →
    ∃ bump ≠ 0, Curve.isPoint (Sha256.digest (preimage seeds bump program)) = false

variable {account : Account} {program : Address} {seeds : List (List UInt8)} {bump : UInt8}

/-- Every byte but zero is tried. -/
theorem mem_bumps_iff : bump ∈ bumps ↔ bump ≠ 0 := by
  have hzero : bump = 0 ↔ bump.toNat = 0 := UInt8.toNat_inj.symm
  simp only [bumps, List.mem_map, List.mem_reverse, List.mem_range'_1, ne_eq, hzero]
  constructor
  · rintro ⟨n, ⟨hpos, hlt⟩, rfl⟩
    rw [UInt8.toNat_ofNat']
    omega
  · intro hbump
    exact ⟨bump.toNat, ⟨by omega, bump.toNat_lt⟩, UInt8.ofNat_toNat⟩

theorem candidate?_eq_none_iff : candidate? seeds program bump = none ↔
    Curve.isPoint (Sha256.digest (preimage seeds bump program)) = true := by
  rw [candidate?]
  split
  · rename_i h
    exact iff_of_true rfl h
  · rename_i h
    exact iff_of_false (by simp) h

/-- **An account with seeds and a bump** has an address. -/
theorem address_of_hasBump (hseeds : account.seeds = .ok seeds) (h : account.HasBump program) :
    ∃ a, account.address program = .ok a := by
  obtain ⟨bump, hne, hbump⟩ := h seeds hseeds
  cases hfind : bumps.findSome? (candidate? seeds program) with
  | some a =>
      refine ⟨a, ?_⟩
      rw [address, hseeds, ok_bind, hfind]
  | none =>
      have hnone := List.findSome?_eq_none_iff.mp hfind bump (mem_bumps_iff.mpr hne)
      rw [candidate?_eq_none_iff, hbump] at hnone
      exact absurd hnone Bool.false_ne_true

/-- **An account with seeds and no bump** has no address. -/
theorem address_of_not_hasBump (hseeds : account.seeds = .ok seeds)
    (h : ¬account.HasBump program) : account.address program = .error .noBump := by
  have hfind : bumps.findSome? (candidate? seeds program) = none := by
    refine List.findSome?_eq_none_iff.mpr fun bump hmem => candidate?_eq_none_iff.mpr ?_
    by_contra hpoint
    refine h fun seeds' hseeds' => ⟨bump, mem_bumps_iff.mp hmem, ?_⟩
    obtain rfl := Except.ok.inj (hseeds.symm.trans hseeds')
    exact Bool.not_eq_true _ ▸ hpoint
  rw [address, hseeds, ok_bind, hfind]

/-! ### The bump of an address -/

/-- A bump other than zero **leads to** an address: the address is its digest and no point of the
curve, and the digest of every greater bump is a point. -/
structure LeadsTo (seeds : List (List UInt8)) (program : Address) (bump : UInt8) (a : Address) :
    Prop where
  ne_zero : bump ≠ 0
  bytes_eq : a.bytes = Sha256.digest (preimage seeds bump program)
  not_isPoint : Curve.isPoint a.bytes = false
  isPoint_of_lt : ∀ c, bump < c → Curve.isPoint (Sha256.digest (preimage seeds c program)) = true

/-- Greater bumps are tried first. -/
theorem pairwise_bumps : bumps.Pairwise (· > ·) := by
  refine List.pairwise_map.mpr (List.pairwise_reverse.mpr ?_)
  refine List.Pairwise.imp_of_mem (fun {m n} hm hn hlt => ?_) (List.pairwise_lt_range' _)
  have hm256 := List.mem_range'_1.mp hm
  have hn256 := List.mem_range'_1.mp hn
  change UInt8.ofNat m < UInt8.ofNat n
  rw [UInt8.lt_iff_toNat_lt, UInt8.toNat_ofNat', UInt8.toNat_ofNat']
  omega

theorem candidate?_eq_some_iff {a : Address} : candidate? seeds program bump = some a ↔
    a.bytes = Sha256.digest (preimage seeds bump program) ∧ Curve.isPoint a.bytes = false := by
  rw [candidate?]
  split
  · rename_i hpoint
    refine iff_of_false (by simp) ?_
    rintro ⟨hbytes, hcurve⟩
    rw [hbytes, hpoint] at hcurve
    cases hcurve
  · rename_i hpoint
    constructor
    · intro h
      cases h
      exact ⟨rfl, Bool.not_eq_true _ ▸ hpoint⟩
    · rintro ⟨hbytes, -⟩
      obtain ⟨bytes, hlength⟩ := a
      cases hbytes
      rfl

/-- **The address of an account** is what the greatest bump off the curve leads to. -/
theorem address_eq_ok_iff {a : Address} : account.address program = .ok a ↔
    ∃ seeds bump, account.seeds = .ok seeds ∧ LeadsTo seeds program bump a := by
  have hfind (seeds : List (List UInt8)) : bumps.findSome? (candidate? seeds program) = some a ↔
      ∃ bump, LeadsTo seeds program bump a := by
    rw [List.findSome?_eq_some_iff]
    constructor
    · rintro ⟨before, bump, after, hsplit, hcandidate, hbefore⟩
      obtain ⟨hbytes, hcurve⟩ := candidate?_eq_some_iff.mp hcandidate
      have hbump : bump ∈ bumps := hsplit ▸ List.mem_append_right before List.mem_cons_self
      refine ⟨bump, mem_bumps_iff.mp hbump, hbytes, hcurve, fun c hc => ?_⟩
      -- a greater bump stands before this one, where no bump gave an address
      have hmem : c ∈ bumps := by
        refine mem_bumps_iff.mpr ?_
        rintro rfl
        exact absurd hc UInt8.not_lt_zero
      have hsorted := pairwise_bumps
      rw [hsplit] at hmem hsorted
      obtain ⟨-, htail, -⟩ := List.pairwise_append.mp hsorted
      rcases List.mem_append.mp hmem with hc' | hc'
      · exact candidate?_eq_none_iff.mp (hbefore c hc')
      · rcases List.mem_cons.mp hc' with rfl | hc'
        · exact absurd hc (UInt8.lt_irrefl c)
        · exact absurd hc (UInt8.lt_asymm ((List.pairwise_cons.mp htail).1 c hc'))
    · rintro ⟨bump, hlead⟩
      obtain ⟨before, after, hsplit⟩ := List.append_of_mem (mem_bumps_iff.mpr hlead.ne_zero)
      refine ⟨before, bump, after, hsplit,
        candidate?_eq_some_iff.mpr ⟨hlead.bytes_eq, hlead.not_isPoint⟩, fun c hc => ?_⟩
      have hsorted := pairwise_bumps
      rw [hsplit] at hsorted
      obtain ⟨-, -, hcross⟩ := List.pairwise_append.mp hsorted
      exact candidate?_eq_none_iff.mpr
        (hlead.isPoint_of_lt c (hcross c hc bump List.mem_cons_self))
  rw [address, bind_eq_ok_iff]
  refine exists_congr fun seeds => ?_
  rw [exists_and_left, ← hfind seeds]
  refine and_congr_right fun _ => ?_
  cases bumps.findSome? (candidate? seeds program) with
  | some b => simp
  | none => simp

end Account

end MarketRegistry
