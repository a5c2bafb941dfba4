import Mathlib.Algebra.Ring.Parity
import MarketRegistry.Proofs.Dump.Spellings

/-!
# The three kinds of literals

A quoted text is classified by reading it. What it is classified as can be told from what texts
write instead: the integer that it writes in hexadecimal, else the address whose bytes it writes
in base 58, else text. Each reader is the inverse of a writing, so that every text has one
literal, and none of the three kinds takes a text that belongs to another one.

## Main results

* `IsIntegerText`, `IsAddressText` — the texts of integers and of addresses.
* `integer?_eq_some_iff_isIntegerText`, `address?_eq_some_iff` — these texts are read, and no
  others.
* `classify_exact` — the literal that a quoted text stands for.
-/

namespace MarketRegistry

variable {cs : List Char} {i : Int} {a b : Address}

/-! ### Texts of integers -/

/-- A **text of an integer**: hexadecimal digits behind a minus, or an even number of them
without one, that write an integer of 128 bits in two's complement. -/
def IsIntegerText (i : Int) (cs : List Char) : Prop :=
  ((∃ digits n, cs = '-' :: digits ∧ Numeral.WritesHex n digits ∧ i = -(n : Int)) ∨
      ∃ n : Nat, Numeral.WritesHex n cs ∧ Even cs.length ∧ i = n) ∧
    -2 ^ 127 ≤ i ∧ i ≤ 2 ^ 127 - 1

/-- **The texts of integers** are read as them. -/
theorem integer?_eq_some_iff_isIntegerText : integer? cs = some i ↔ IsIntegerText i cs := by
  simp only [integer?_eq_some_iff, IsHexText, IsIntegerText, Numeral.readHex?_eq_some_iff,
    isInt128_iff, Nat.even_iff, Int.le_sub_one_iff]

/-- A number that is too large is no integer, even when its digits are even in number. -/
theorem not_isIntegerText_of_large {n : Nat} (hn : Numeral.WritesHex n cs) (hlarge : 2 ^ 127 ≤ n) :
    ¬IsIntegerText i cs := by
  have hread := Numeral.readHex?_eq_some_iff.mpr hn
  rintro ⟨⟨digits, m, rfl, -, -⟩ | ⟨m, hm, -, rfl⟩, -, hle⟩
  · exact absurd ((Numeral.isHexDigit_of_readHex? hread).2 '-' List.mem_cons_self) (by decide)
  · rw [Numeral.readHex?_eq_some_iff.mpr hm] at hread
    obtain rfl := Option.some.inj hread
    omega

/-! ### Texts of addresses -/

/-- A **text of an address**: one that writes its bytes in base 58, perhaps with white space
behind it, of at most 44 characters in all. -/
def IsAddressText (a : Address) (cs : List Char) : Prop :=
  cs.length ≤ 44 ∧ ∃ digits blanks, Base58.Writes a.bytes digits ∧ cs = digits ++ blanks ∧
    ∀ c ∈ blanks, isBlank c

/-- **The texts of addresses** are read as them. -/
theorem address?_eq_some_iff : address? cs = some a ↔ IsAddressText a cs := by
  rw [address?, Option.ite_none_right_eq_some, Address.ofText?_eq_some_iff, IsAddressText]
  refine and_congr_right fun _ => ?_
  simp only [Base58.writes_iff]
  constructor
  · intro htrim
    obtain ⟨blanks, hcs, hblanks⟩ := trimEnd_append_blanks cs
    exact ⟨_, blanks, htrim, hcs, hblanks⟩
  · rintro ⟨_, blanks, rfl, rfl, hblanks⟩
    rw [trimEnd_append hblanks]
    exact a.trimEnd_toText

/-- A text is that of one address at most. -/
theorem IsAddressText.unique (ha : IsAddressText a cs) (hb : IsAddressText b cs) : a = b := by
  rw [← address?_eq_some_iff] at ha hb
  exact Option.some.inj (ha.symm.trans hb)

/-! ### Classification -/

namespace Literal

theorem classify_eq_integer_iff : classify cs = .integer i ↔ integer? cs = some i := by
  rw [classify]
  cases integer? cs with
  | some j => simp
  | none => cases address? cs <;> simp

theorem classify_eq_key_iff :
    classify cs = .key a ↔ integer? cs = none ∧ address? cs = some a := by
  rw [classify]
  cases integer? cs with
  | some j => simp
  | none => cases address? cs <;> simp

theorem classify_eq_text_iff {ds : List Char} :
    classify cs = .text ds ↔ integer? cs = none ∧ address? cs = none ∧ ds = fixCasing cs := by
  rw [classify]
  cases integer? cs with
  | some j => simp
  | none => cases address? cs <;> simp [eq_comm]

end Literal

/-- **The literal of a quoted text.** A text of an integer stands for it, any other text of an
address for that one address, and what is neither for itself with the casing put right. Digits
of too large a number are no integer. -/
theorem classify_exact (cs : List Char) :
    (∀ i, Literal.classify cs = .integer i ↔ IsIntegerText i cs) ∧
      (∀ a, Literal.classify cs = .key a ↔ (∀ i, ¬IsIntegerText i cs) ∧ IsAddressText a cs) ∧
      (∀ a b, IsAddressText a cs → IsAddressText b cs → a = b) ∧
      (∀ ds, Literal.classify cs = .text ds ↔
        (∀ i, ¬IsIntegerText i cs) ∧ (∀ a, ¬IsAddressText a cs) ∧ ds = fixCasing cs) ∧
      ∀ n, Numeral.WritesHex n cs → 2 ^ 127 ≤ n → ∀ i, Literal.classify cs ≠ .integer i := by
  have hinteger : integer? cs = none ↔ ∀ i, ¬IsIntegerText i cs := by
    simp only [Option.eq_none_iff_forall_ne_some, ne_eq, integer?_eq_some_iff_isIntegerText]
  have haddress : address? cs = none ↔ ∀ a, ¬IsAddressText a cs := by
    simp only [Option.eq_none_iff_forall_ne_some, ne_eq, address?_eq_some_iff]
  refine ⟨fun i => ?_, fun a => ?_, fun a b => IsAddressText.unique, fun ds => ?_,
    fun n hn hlarge i hi => ?_⟩
  · rw [Literal.classify_eq_integer_iff, integer?_eq_some_iff_isIntegerText]
  · rw [Literal.classify_eq_key_iff, hinteger, address?_eq_some_iff]
  · rw [Literal.classify_eq_text_iff, hinteger, haddress]
  · rw [Literal.classify_eq_integer_iff, integer?_eq_some_iff_isIntegerText] at hi
    exact not_isIntegerText_of_large hn hlarge hi

/-- A minus goes with any number of digits. -/
example : Literal.classify "-3E8".toList = .integer (-1000) ∧
    Literal.classify "3e8".toList = .text "3e8".toList := by decide +kernel

end MarketRegistry
