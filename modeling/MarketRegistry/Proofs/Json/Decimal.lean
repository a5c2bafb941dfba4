import MarketRegistry.Proofs.Json.Pieces
import Mathlib.Algebra.Group.Int.Defs
import Mathlib.Algebra.Group.Nat.Defs

/-!
# Decimal integers in json

The decimal text of an integer is a json number, and it is read as that integer. Numbers are
made of few characters, so a word with any other character in it is ill-formed.

## Main results

* `Number.ofChars?_signedDecimal` — the decimal text of an integer is read as that integer.
* `lexemes_signedDecimal` — its only lexeme.
* `Lexeme.ofWord_of_ofChars?` — a word that is a number is nothing else.
* `Number.isNumberChar_of_mem` — the characters of numbers.
-/

namespace MarketRegistry

open Numeral

/-! ### Decimal digits -/

theorem Numeral.decimalDigit?_digitChar {d : Nat} (h : d < 10) :
    decimalDigit? d.digitChar = some d := by
  match d with
  | 0 | 1 | 2 | 3 | 4 | 5 | 6 | 7 | 8 | 9 => decide
  | _ + 10 => omega

/-- The digits of a decimal text are those of its number. -/
theorem Number.digitsValue_decimal (n : Nat) : Number.digitsValue (decimal n) = n := by
  rw [decimal]
  induction n using Nat.base_induction 10 (by decide) with
  | single m hm =>
      rw [Nat.toDigits_of_lt_base hm]
      simp [digitsValue, decimalDigit?_digitChar hm, value]
  | digit m k hk hm ih =>
      rw [← Nat.toDigits_append_toDigits (by decide) hm hk, Nat.toDigits_of_lt_base hk]
      rw [digitsValue] at ih ⊢
      rw [List.filterMap_append,
        show [k.digitChar].filterMap decimalDigit? = [k] by simp [decimalDigit?_digitChar hk],
        value_append_singleton, ih, Nat.mul_comm]

theorem Numeral.isDecimalDigit_iff {c : Char} :
    isDecimalDigit c ↔ 48 ≤ c.toNat ∧ c.toNat ≤ 57 := by
  have hrange : ('0' ≤ c ∧ c ≤ '9') ↔ 48 ≤ c.toNat ∧ c.toNat ≤ 57 := Iff.rfl
  rw [← hrange, isDecimalDigit, decimalDigit?]
  split <;> simp_all

theorem Numeral.isDecimalDigit_of_mem_decimal {n : Nat} {c : Char} (h : c ∈ decimal n) :
    isDecimalDigit c := by
  have hc := Nat.isDigit_of_mem_toDigits (by decide) (by decide) h
  simp only [Char.isDigit, Bool.and_eq_true, decide_eq_true_eq] at hc
  exact isDecimalDigit_iff.mpr hc

/-- Only zero is written with a zero in front. -/
theorem Numeral.head?_decimal {n : Nat} (h : (decimal n).head? = some '0') : n = 0 := by
  rw [decimal] at h
  induction n using Nat.base_induction 10 (by decide) with
  | single m hm =>
      rw [Nat.toDigits_of_lt_base hm, List.head?_cons, Option.some_inj] at h
      match m with
      | 0 => rfl
      | 1 | 2 | 3 | 4 | 5 | 6 | 7 | 8 | 9 => exact absurd h (by decide)
      | _ + 10 => omega
  | digit m k hk hm ih =>
      rw [← Nat.toDigits_append_toDigits (by decide) hm hk,
        List.head?_append, Option.or_of_isSome (by simp)] at h
      have := ih h
      omega

/-! ### Reading a decimal text -/

namespace Number

/-- Digits alone, at least one of them, are taken whole. -/
theorem digits?_eq_some {ds : List Char} (hne : ds ≠ []) (h : ∀ d ∈ ds, isDecimalDigit d) :
    digits? ds = some (ds, []) := by
  rw [digits?]
  rw [List.takeWhile_eq_self_iff.mpr h, List.dropWhile_eq_nil_iff.mpr h]
  cases ds with
  | nil => exact absurd rfl hne
  | cons d ds => rfl

/-- A decimal text is a whole part, since its first digit is superfluous only for zero. -/
theorem whole?_decimal (n : Nat) : whole? (decimal n) = some (decimal n, []) := by
  have hdigits : digits? (decimal n) = some (decimal n, []) :=
    digits?_eq_some Nat.toDigits_ne_nil fun _ => isDecimalDigit_of_mem_decimal
  have hzero : ¬((decimal n).head? = some '0' ∧ (decimal n).length ≠ 1) := by
    rintro ⟨hhead, hlen⟩
    rw [head?_decimal hhead] at hlen
    exact hlen rfl
  simp [whole?, hdigits, hzero]

theorem unsigned_decimal (n : Nat) : unsigned (decimal n) = (false, decimal n) := by
  unfold unsigned
  split
  · rename_i cs hcs
    have hminus : '-' ∈ decimal n := by rw [hcs]; exact List.mem_cons_self
    exact absurd (isDecimalDigit_of_mem_decimal hminus) (by decide)
  · rfl

/-- **The decimal text of an integer** is read as that integer, unless it is too long. -/
theorem ofChars?_signedDecimal {i : Int} (h : i.natAbs < 10 ^ maxIntegerDigits) :
    ofChars? (signedDecimal i) = some (.int i) := by
  have hlen : ¬maxIntegerDigits < (decimal i.natAbs).length :=
    Nat.not_lt.mpr ((Nat.length_toDigits_le_iff (by decide) (by decide)).mpr h)
  rw [signedDecimal]
  split
  · have hvalue : integer? true (decimal i.natAbs) = some (.int i) := by
      rw [integer?, if_neg hlen, digitsValue_decimal, if_pos rfl,
        show -(i.natAbs : Int) = i by omega]
    simp [ofChars?, unsigned, whole?_decimal, places?, exponent?, hvalue]
  · have hvalue : integer? false (decimal i.natAbs) = some (.int i) := by
      rw [integer?, if_neg hlen, digitsValue_decimal, if_neg (by simp),
        show (i.natAbs : Int) = i by omega]
    simp [ofChars?, unsigned_decimal, whole?_decimal, places?, exponent?, hvalue]

/-! ### The characters of numbers -/

/-- The characters that occur in numbers. -/
def isNumberChar (c : Char) : Bool :=
  isDecimalDigit c || c == '-' || c == '+' || c == '.' || c == 'e' || c == 'E'

theorem isNumberChar_of_isDecimalDigit {c : Char} (h : isDecimalDigit c) : isNumberChar c := by
  simp [isNumberChar, h]

theorem forall_mem_cons {c : Char} {ds : List Char} (hc : isNumberChar c)
    (hds : ∀ d ∈ ds, isDecimalDigit d) : ∀ d ∈ c :: ds, isNumberChar d :=
  List.forall_mem_cons.mpr ⟨hc, fun d hd => isNumberChar_of_isDecimalDigit (hds d hd)⟩

/-- What is taken as digits is digits. -/
theorem eq_append_of_digits? {cs ds rest : List Char} (h : digits? cs = some (ds, rest)) :
    cs = ds ++ rest ∧ ds ≠ [] ∧ ∀ d ∈ ds, isDecimalDigit d := by
  rw [digits?] at h
  split at h
  · simp at h
  · rename_i hne
    cases h
    refine ⟨List.takeWhile_append_dropWhile.symm, hne, fun d hd => ?_⟩
    exact List.mem_takeWhile_imp hd

theorem whole?_eq_some {cs ds rest : List Char} (h : whole? cs = some (ds, rest)) :
    cs = ds ++ rest ∧ ds ≠ [] ∧ ∀ d ∈ ds, isDecimalDigit d := by
  simp only [whole?, Option.bind_eq_bind, Option.bind_eq_some_iff, Prod.exists,
    Option.ite_none_left_eq_some, Option.some.injEq, Prod.mk.injEq] at h
  obtain ⟨ds', rest', hdigits, -, rfl, rfl⟩ := h
  exact eq_append_of_digits? hdigits

theorem places?_eq_some {cs rest : List Char} {p : Option (List Char)}
    (h : places? cs = some (p, rest)) : ∃ ps, cs = ps ++ rest ∧ ∀ c ∈ ps, isNumberChar c := by
  unfold places? at h
  split at h
  · simp only [Option.map_eq_some_iff, Prod.exists, Prod.mk.injEq] at h
    obtain ⟨ds, rest', hdigits, -, rfl⟩ := h
    obtain ⟨rfl, -, hds⟩ := eq_append_of_digits? hdigits
    exact ⟨'.' :: ds, rfl, forall_mem_cons rfl hds⟩
  · cases h
    exact ⟨[], rfl, by simp⟩

theorem signedExponent?_eq_some {cs rest : List Char} {e : Int}
    (h : signedExponent? cs = some (e, rest)) :
    ∃ es, cs = es ++ rest ∧ ∀ c ∈ es, isNumberChar c := by
  unfold signedExponent? at h
  split at h <;> simp only [Option.map_eq_some_iff, Prod.exists, Prod.mk.injEq] at h <;>
    obtain ⟨ds, rest', hdigits, -, rfl⟩ := h <;>
    obtain ⟨rfl, -, hds⟩ := eq_append_of_digits? hdigits
  · exact ⟨'-' :: ds, rfl, forall_mem_cons rfl hds⟩
  · exact ⟨'+' :: ds, rfl, forall_mem_cons rfl hds⟩
  · exact ⟨ds, rfl, fun c hc => isNumberChar_of_isDecimalDigit (hds c hc)⟩

theorem exponent?_eq_some {cs rest : List Char} {e : Option Int}
    (h : exponent? cs = some (e, rest)) : ∃ es, cs = es ++ rest ∧ ∀ c ∈ es, isNumberChar c := by
  unfold exponent? at h
  split at h
  · simp only [Option.map_eq_some_iff, Prod.exists, Prod.mk.injEq] at h
    obtain ⟨e', rest', hexp, -, rfl⟩ := h
    obtain ⟨es, rfl, hes⟩ := signedExponent?_eq_some hexp
    exact ⟨'e' :: es, rfl, by simpa [isNumberChar] using hes⟩
  · simp only [Option.map_eq_some_iff, Prod.exists, Prod.mk.injEq] at h
    obtain ⟨e', rest', hexp, -, rfl⟩ := h
    obtain ⟨es, rfl, hes⟩ := signedExponent?_eq_some hexp
    exact ⟨'E' :: es, rfl, by simpa [isNumberChar] using hes⟩
  · cases h
    exact ⟨[], rfl, by simp⟩

/-- A number begins with a digit, after its minus if it has one. -/
theorem unsigned_eq_cons {cs : List Char} {n : Number} (h : ofChars? cs = some n) :
    ∃ d ds, (unsigned cs).2 = d :: ds ∧ isDecimalDigit d ∧ ∀ c ∈ ds, isNumberChar c := by
  simp only [ofChars?, Option.bind_eq_bind, Option.bind_eq_some_iff, Prod.exists] at h
  obtain ⟨whole, cs₁, hwhole, p, cs₂, hplaces, e, cs₃, hexp, hrest⟩ := h
  rw [Option.ite_none_left_eq_some] at hrest
  obtain rfl : cs₃ = [] := not_not.mp hrest.1
  obtain ⟨hcs, hne, hds⟩ := whole?_eq_some hwhole
  obtain ⟨ps, rfl, hps⟩ := places?_eq_some hplaces
  obtain ⟨es, rfl, hes⟩ := exponent?_eq_some hexp
  obtain ⟨d, ds, rfl⟩ := List.exists_cons_of_ne_nil hne
  rw [List.append_nil] at hcs
  refine ⟨d, ds ++ (ps ++ es), hcs, hds d List.mem_cons_self, fun c hc => ?_⟩
  rw [List.mem_append, List.mem_append] at hc
  rcases hc with hc | hc | hc
  · exact isNumberChar_of_isDecimalDigit (hds c (List.mem_cons_of_mem d hc))
  · exact hps c hc
  · exact hes c hc

/-- **The characters of numbers.** -/
theorem isNumberChar_of_mem {cs : List Char} {n : Number} (h : ofChars? cs = some n) :
    ∀ c ∈ cs, isNumberChar c := by
  obtain ⟨d, ds, hcs, hd, hds⟩ := unsigned_eq_cons h
  have hall : ∀ c ∈ d :: ds, isNumberChar c :=
    List.forall_mem_cons.mpr ⟨isNumberChar_of_isDecimalDigit hd, hds⟩
  unfold unsigned at hcs
  split at hcs <;> subst hcs
  · exact List.forall_mem_cons.mpr ⟨rfl, hall⟩
  · exact hall

end Number

/-! ### Words that are numbers -/

/-- No constant is the beginning of a number. -/
theorem Lexeme.constant?_of_ofChars? {cs : List Char} {n : Number}
    (h : Number.ofChars? cs = some n) : constant? cs = none := by
  obtain ⟨d, ds, hcs, hd, -⟩ := Number.unsigned_eq_cons h
  rw [constant?, List.find?_eq_none]
  intro c hc hprefix
  obtain ⟨rest, rfl⟩ := List.isPrefixOf_iff_prefix.mp hprefix
  cases c <;> cases hcs <;> exact absurd hd (by decide)

/-- **A word that is a number** is nothing else. -/
theorem Lexeme.ofWord_of_ofChars? {cs : List Char} {n : Number}
    (h : Number.ofChars? cs = some n) : ofWord cs = .number n := by
  have hname : ∀ s : String, Number.ofChars? s.toList = none → cs ≠ s.toList := by
    rintro s hs rfl
    rw [hs] at h
    cases h
  rw [ofWord]
  rw [if_neg (hname _ (by decide)), if_neg (hname _ (by decide)), if_neg (hname _ (by decide)),
    constant?_of_ofChars? h, h]

/-- Characters of numbers are characters of words. -/
theorem Number.isWordChar_of_isNumberChar {c : Char} (h : isNumberChar c) : isWordChar c :=
  isWordChar_of_all (by decide) h

/-- The lexeme of a word that is a number. -/
theorem lexemes_number {cs : List Char} {n : Number} (h : Number.ofChars? cs = some n) :
    lexemes cs = [.number n] := by
  have hne : cs ≠ [] := by
    rintro rfl
    obtain ⟨d, ds, hcs, -⟩ := Number.unsigned_eq_cons h
    cases hcs
  rw [lexemes_word hne fun c hc =>
    Number.isWordChar_of_isNumberChar (Number.isNumberChar_of_mem h c hc),
    Lexeme.ofWord_of_ofChars? h]

/-- **The lexeme of a decimal integer.** -/
theorem lexemes_signedDecimal {i : Int} (h : i.natAbs < 10 ^ Number.maxIntegerDigits) :
    lexemes (signedDecimal i) = [.number (.int i)] :=
  lexemes_number (Number.ofChars?_signedDecimal h)

end MarketRegistry
