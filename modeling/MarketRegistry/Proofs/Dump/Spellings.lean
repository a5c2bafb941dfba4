import MarketRegistry.Proofs.Address.Base58
import MarketRegistry.Proofs.Dump.Literals
import MarketRegistry.Proofs.Format.Names

/-!
# What quoted texts stand for

A dump quotes integers, addresses and names alike. Each of the three is recognized as what it
is: an integer by its sign or its even number of hexadecimal digits, an address by its length,
which is too large for an integer, and a name by being neither. The one exception is an address
whose text has 32 characters, all of them hexadecimal digits.

## Main results

* `classify_of_isHexText` — a hexadecimal text of an integer stands for it.
* `Address.classify_toText` — the text of an address stands for it, unless it is shadowed.
* `classify_of_isPlainName` — a name stands for itself, up to the casing fixes.
-/

namespace MarketRegistry

variable {c : Char} {cs : List Char} {i : Int}

/-! ### Letters and digits -/

theorem not_isBlank_of_isLetterOrDigit (h : isLetterOrDigit c) : ¬isBlank c := by
  have hc := isLetterOrDigit_iff.mp h
  simp only [isBlank, Bool.or_eq_true, Bool.and_eq_true, decide_eq_true_eq, beq_iff_eq]
  omega

/-- Nothing is trimmed off letters and digits. -/
theorem trimEnd_of_isLetterOrDigit (h : ∀ c ∈ cs, isLetterOrDigit c) : trimEnd cs = cs :=
  trimEnd_of_getLast? fun c hc => not_isBlank_of_isLetterOrDigit (h c (List.mem_of_getLast? hc))

theorem head?_ne_minus (h : ∀ c ∈ cs, isLetterOrDigit c) : cs.head? ≠ some '-' := fun hhead =>
  absurd (h '-' (List.mem_of_mem_head? hhead)) (by decide)

/-! ### Integers -/

/-- A **hexadecimal text** of an integer: a minus and digits, or an even number of digits. The
digits may be in either case and begin with zeros. -/
def IsHexText (i : Int) (cs : List Char) : Prop :=
  (∃ ds n, cs = '-' :: ds ∧ Numeral.readHex? ds = some n ∧ i = -(n : Int)) ∨
    ∃ n, Numeral.readHex? cs = some n ∧ cs.length % 2 = 0 ∧ i = n

theorem readSignedHex?_of_head?_ne (h : cs.head? ≠ some '-') :
    readSignedHex? cs = (Numeral.readHex? cs).map Int.ofNat := by
  rw [readSignedHex?]
  rintro ds rfl
  exact h rfl

/-- What is read as an integer, with a sign or without. -/
theorem readSignedHex?_eq_some (h : readSignedHex? cs = some i) :
    (∃ ds n, cs = '-' :: ds ∧ Numeral.readHex? ds = some n ∧ i = -(n : Int)) ∨
      cs.head? ≠ some '-' ∧ ∃ n, Numeral.readHex? cs = some n ∧ i = n := by
  unfold readSignedHex? at h
  split at h
  · obtain ⟨n, hn, rfl⟩ := Option.map_eq_some_iff.mp h
    exact .inl ⟨_, n, rfl, hn, rfl⟩
  · rename_i hminus
    obtain ⟨n, hn, rfl⟩ := Option.map_eq_some_iff.mp h
    refine .inr ⟨fun hhead => ?_, n, hn, rfl⟩
    obtain ⟨ds, rfl⟩ := List.head?_eq_some_iff.mp hhead
    exact hminus ds rfl

/-- **The integer of a text** is the one of 128 bits that it is a hexadecimal text of. -/
theorem integer?_eq_some_iff : integer? cs = some i ↔ IsHexText i cs ∧ isInt128 i := by
  rw [integer?, Option.ite_none_right_eq_some, Option.filter_eq_some_iff]
  constructor
  · rintro ⟨hlooks, hread, hi⟩
    refine ⟨?_, hi⟩
    rcases readSignedHex?_eq_some hread with hminus | ⟨hhead, n, hn, rfl⟩
    · exact .inl hminus
    · simp only [looksLikeInteger, Bool.or_eq_true, beq_iff_eq, hhead, false_or,
        Bool.and_eq_true] at hlooks
      exact .inr ⟨n, hn, hlooks.1, rfl⟩
  · rintro ⟨⟨ds, n, rfl, hn, rfl⟩ | ⟨n, hn, heven, rfl⟩, hi⟩
    · exact ⟨rfl, by rw [readSignedHex?, hn]; rfl, hi⟩
    · obtain ⟨-, hdigits⟩ := Numeral.isHexDigit_of_readHex? hn
      have hhead : cs.head? ≠ some '-' := by
        intro hhead
        exact absurd (hdigits '-' (List.mem_of_mem_head? hhead)) (by decide)
      refine ⟨?_, by rw [readSignedHex?_of_head?_ne hhead, hn]; rfl, hi⟩
      simp [looksLikeInteger, heven, List.all_eq_true.mpr hdigits]

/-- **A hexadecimal text** of an integer of 128 bits stands for it. -/
theorem classify_of_isHexText (h : IsHexText i cs) (hi : isInt128 i) :
    Literal.classify cs = .integer i := by
  rw [Literal.classify, integer?_eq_some_iff.mpr ⟨h, hi⟩]

theorem eq_zero_of_hexDigit? (h : Numeral.hexDigit? c = some 0) : c = '0' := by
  rw [Numeral.hexDigit?] at h
  split at h
  · rename_i hdigit
    have hle : 48 ≤ c.toNat := hdigit.1
    have hzero : c.toNat - 48 = 0 := Option.some.inj h
    exact Char.toNat_inj.mp (by change c.toNat = 48; omega)
  · split at h
    · simp at h
    · split at h <;> simp at h

/-- A long text without a leading zero is no integer: its value would be too large. -/
theorem integer?_eq_none_of_long (hminus : cs.head? ≠ some '-') (hzero : cs.head? ≠ some '0')
    (hlong : 32 < cs.length) : integer? cs = none := by
  rw [Option.eq_none_iff_forall_ne_some]
  intro i hi
  obtain ⟨⟨ds, n, rfl, -, -⟩ | ⟨n, hn, -, rfl⟩, hint⟩ := integer?_eq_some_iff.mp hi
  · exact hminus rfl
  · obtain ⟨hne, -⟩ := Numeral.isHexDigit_of_readHex? hn
    obtain ⟨c, cs, rfl⟩ := List.exists_cons_of_ne_nil hne
    obtain ⟨ds, hds, rfl⟩ := Option.map_eq_some_iff.mp hn
    cases mapM_eq_some_iff.mp hds with
    | @cons _ d _ ds hd hrest =>
        have hnonzero : d ≠ 0 := by
          rintro rfl
          exact hzero (congrArg some (eq_zero_of_hexDigit? hd))
        have hvalue := Numeral.pow_length_le_value 16 hnonzero ds
        rw [List.length_cons, hrest.length_eq] at hlong
        have hpow := Nat.pow_le_pow_right (show 0 < 16 by decide) (show 32 ≤ ds.length by omega)
        have hlarge : 2 ^ 127 ≤ Numeral.value 16 (d :: ds) :=
          (show 2 ^ 127 ≤ 16 ^ 32 by decide).trans (hpow.trans hvalue)
        have hbound := (isInt128_iff.mp hint).2
        omega

/-! ### Addresses -/

/-- An address is **shadowed** when its text has 32 characters, all of them hexadecimal digits:
such a text is tried as an integer first. -/
def Address.isShadowed (a : Address) : Bool :=
  a.toText.length == 32 && a.toText.all Numeral.isHexDigit

/-- The digits of base 58 are letters and digits other than zero. -/
theorem isLetterOrDigit_of_mem_alphabet (h : c ∈ Base58.alphabet) :
    isLetterOrDigit c ∧ c ≠ '0' := by
  have hall : Base58.alphabet.all (fun c => isLetterOrDigit c && c != '0') := by decide
  simpa using List.all_eq_true.mp hall c h

theorem Address.isLetterOrDigit_of_mem_toText {a : Address} (h : c ∈ a.toText) :
    isLetterOrDigit c ∧ c ≠ '0' :=
  isLetterOrDigit_of_mem_alphabet (Base58.mem_alphabet_of_mem_encode h)

theorem Address.trimEnd_toText (a : Address) : trimEnd a.toText = a.toText :=
  trimEnd_of_isLetterOrDigit fun _ hc => (isLetterOrDigit_of_mem_toText hc).1

theorem Address.integer?_toText {a : Address} (h : ¬a.isShadowed) : integer? a.toText = none := by
  have hminus := head?_ne_minus fun c (hc : c ∈ a.toText) => (isLetterOrDigit_of_mem_toText hc).1
  by_cases hlong : 32 < a.toText.length
  · refine integer?_eq_none_of_long hminus (fun hzero => ?_) hlong
    exact (isLetterOrDigit_of_mem_toText (List.mem_of_mem_head? hzero)).2 rfl
  · have hlen : a.toText.length = 32 := by
      have := a.length_toText
      omega
    have hhex : a.toText.all Numeral.isHexDigit = false := by
      simpa [isShadowed, hlen] using h
    rw [integer?, if_neg]
    simp [looksLikeInteger, hminus, hhex]

/-- **The text of an address** stands for it, unless it is shadowed. -/
theorem Address.classify_toText {a : Address} (h : ¬a.isShadowed) :
    Literal.classify a.toText = .key a := by
  have hlen : a.toText.length ≤ maxAddressLength := a.length_toText.2
  have haddress : address? a.toText = some a := by
    rw [address?, if_pos hlen, trimEnd_toText, ofText?_toText]
  rw [Literal.classify, integer?_toText h, haddress]

/-! ### Names -/

/-- A **name** that cannot be taken for an integer or an address: letters and digits, not an
even number of hexadecimal digits, and too short for an address, which takes 43 characters
unless it begins with a one. -/
def isPlainName (cs : List Char) : Bool :=
  cs.all isLetterOrDigit && (cs.length % 2 == 1 || !cs.all Numeral.isHexDigit) &&
    decide (cs.length < 43) && cs.head? != some '1'

/-- A short text that does not begin with a one is no address. -/
theorem ofText?_eq_none_of_short (hshort : cs.length < 43) (hone : cs.head? ≠ some '1') :
    Address.ofText? cs = none := by
  rw [Address.ofText?, Option.bind_eq_none_iff]
  intro bytes hbytes
  by_contra hsome
  obtain ⟨a, ha⟩ := Option.ne_none_iff_exists'.mp hsome
  have hlen : bytes.length = 32 := by rw [← Address.ofBytes?_eq_some ha, a.length_bytes]
  have hne : bytes ≠ [] := by
    rintro rfl
    cases hlen
  have hlarge := Base58.length_of_decode? hbytes hone hne
  have hpow := Nat.pow_le_pow_right (show 0 < 58 by decide) (show cs.length ≤ 42 by omega)
  rw [hlen] at hlarge
  exact absurd (hlarge.trans_le hpow) (by decide)

/-- **A name** stands for itself, up to the casing fixes. -/
theorem classify_of_isPlainName (h : isPlainName cs) :
    Literal.classify cs = .text (fixCasing cs) := by
  simp only [isPlainName, Bool.and_eq_true, Bool.or_eq_true, beq_iff_eq, Bool.not_eq_true',
    bne_iff_ne, decide_eq_true_eq, List.all_eq_true] at h
  obtain ⟨⟨⟨hletters, hodd⟩, hshort⟩, hone⟩ := h
  have hinteger : integer? cs = none := by
    rw [integer?, if_neg]
    rcases hodd with hodd | hodd
    · simp [looksLikeInteger, head?_ne_minus hletters, hodd]
    · simp [looksLikeInteger, head?_ne_minus hletters, hodd]
  have haddress : address? cs = none := by
    rw [address?, trimEnd_of_isLetterOrDigit hletters, ofText?_eq_none_of_short hshort hone,
      ite_self]
  rw [Literal.classify, hinteger, haddress]

end MarketRegistry
