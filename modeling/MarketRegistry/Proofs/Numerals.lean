import MarketRegistry.Numeral
import Mathlib.Data.List.Forall2
import Mathlib.Data.Nat.Digits.Lemmas

/-!
# Numerals as lists of digits

A numeral is read character by character: it has a value when every character is a digit. A
numeral with its most significant digit first is the reverse of one with its least significant
digit first, so that what is known of the latter carries over: digits without a leading zero
are determined by their value, and a value and the number of its digits bound each other.

## Main results

* `mapM_eq_some_iff` — reading one by one, as a relation between the two lists.
* `Numeral.readHex?_eq_some_iff` — what is read in hexadecimal.
* `Numeral.digits_value` — digits without a leading zero are those of their value.
* `Numeral.value_lt`, `Numeral.pow_length_le_value` — values between powers of the base.
-/

namespace MarketRegistry

/-- **Reading one by one** relates every element to its result. -/
theorem mapM_eq_some_iff {α β : Type} {f : α → Option β} {as : List α} {bs : List β} :
    as.mapM f = some bs ↔ List.Forall₂ (fun a b => f a = some b) as bs := by
  induction as generalizing bs with
  | nil =>
      rw [List.mapM_nil, List.forall₂_nil_left_iff]
      exact ⟨fun h => (Option.some.inj h).symm, fun h => h ▸ rfl⟩
  | cons a as ih =>
      simp only [List.mapM_cons, Option.bind_eq_bind, Option.pure_def, Option.bind_eq_some_iff,
        Option.some.injEq]
      constructor
      · rintro ⟨b, hb, bs', hbs, rfl⟩
        exact .cons hb (ih.mp hbs)
      · intro h
        cases h with
        | cons hb hbs => exact ⟨_, hb, _, ih.mpr hbs, rfl⟩

/-- What is read one by one has results throughout. -/
theorem isSome_of_mapM {α β : Type} {f : α → Option β} {as : List α} {bs : List β}
    (h : as.mapM f = some bs) : ∀ a ∈ as, (f a).isSome := by
  induction mapM_eq_some_iff.mp h with
  | nil => simp
  | cons hab _ ih =>
      rw [List.forall_mem_cons]
      exact ⟨by simp [hab], ih (mapM_eq_some_iff.mpr ‹_›)⟩

/-- What has results throughout is read one by one. -/
theorem exists_mapM {α β : Type} {f : α → Option β} {as : List α} (h : ∀ a ∈ as, (f a).isSome) :
    ∃ bs, as.mapM f = some bs := by
  induction as with
  | nil => exact ⟨[], rfl⟩
  | cons a as ih =>
      obtain ⟨ha, has⟩ := List.forall_mem_cons.mp h
      obtain ⟨b, hb⟩ := Option.isSome_iff_exists.mp ha
      obtain ⟨bs, hbs⟩ := ih has
      exact ⟨b :: bs, mapM_eq_some_iff.mpr (.cons hb (mapM_eq_some_iff.mp hbs))⟩

namespace Numeral

/-- What is read in hexadecimal is a run of digits, and not empty. -/
theorem isHexDigit_of_readHex? {cs : List Char} {n : Nat} (h : readHex? cs = some n) :
    cs ≠ [] ∧ ∀ c ∈ cs, isHexDigit c := by
  cases cs with
  | nil => cases h
  | cons c cs =>
      obtain ⟨ds, hds, -⟩ := Option.map_eq_some_iff.mp h
      exact ⟨List.cons_ne_nil c cs, isSome_of_mapM hds⟩

/-! ### Values -/

variable {base n : Nat} {ds : List Nat} {c : Char} {cs : List Char}

/-- The value of digits, read from the least significant one. -/
theorem value_eq_ofDigits (base : Nat) (ds : List Nat) :
    value base ds = Nat.ofDigits base ds.reverse := by
  induction ds using List.reverseRecOn with
  | nil => rfl
  | append_singleton ds d ih =>
      rw [value_append_singleton, ih, List.reverse_append, List.reverse_singleton,
        List.singleton_append, Nat.ofDigits_cons, Nat.add_comm, Nat.mul_comm]

/-- The digits of a number, from the least significant one. -/
theorem digits_eq_reverse (hb : 2 ≤ base) (n : Nat) :
    digits base n = (Nat.digits base n).reverse := by
  induction n using Nat.strongRecOn with
  | _ n ih =>
      rw [digits]
      split
      · rename_i h
        obtain rfl : n = 0 := by omega
        rw [Nat.digits_zero, List.reverse_nil]
      · rename_i h
        rw [Nat.digits_def' (by omega) (by omega), List.reverse_cons,
          ih _ (Nat.div_lt_self (by omega) (by omega))]

/-- The digits of a number do not begin with a zero. -/
theorem head?_digits_ne_zero (hb : 2 ≤ base) (n : Nat) : (digits base n).head? ≠ some 0 := by
  rw [digits_eq_reverse hb, List.head?_reverse]
  intro h
  have hne : Nat.digits base n ≠ [] := by
    intro hnil
    rw [hnil] at h
    cases h
  rw [List.getLast?_eq_some_getLast hne] at h
  have hn : n ≠ 0 := by
    rintro rfl
    exact hne (Nat.digits_zero base)
  exact Nat.getLast_digit_ne_zero base hn (Option.some.inj h)

/-- **Digits without a leading zero** are those of their value. -/
theorem digits_value (hb : 2 ≤ base) (hlt : ∀ d ∈ ds, d < base) (hhead : ds.head? ≠ some 0) :
    digits base (value base ds) = ds := by
  rw [digits_eq_reverse hb, value_eq_ofDigits, Nat.digits_ofDigits base (by omega),
    List.reverse_reverse]
  · exact fun d hd => hlt d (List.mem_reverse.mp hd)
  · intro hne hlast
    rw [List.getLast_reverse] at hlast
    have hds : ds ≠ [] := by
      intro hnil
      exact hne (by rw [hnil, List.reverse_nil])
    exact hhead (by rw [List.head?_eq_some_head hds, hlast])

/-- Zeros in front do not count. -/
theorem value_replicate_zero_append (k : Nat) (ds : List Nat) :
    value base (List.replicate k 0 ++ ds) = value base ds := by
  rw [value_eq_ofDigits, value_eq_ofDigits, List.reverse_append, List.reverse_replicate,
    Nat.ofDigits_append_replicate_zero]

/-- A value lies below the power of the base for the number of digits. -/
theorem value_lt (hb : 2 ≤ base) (hlt : ∀ d ∈ ds, d < base) :
    value base ds < base ^ ds.length := by
  rw [value_eq_ofDigits, ← List.length_reverse]
  exact Nat.ofDigits_lt_base_pow_length (by omega) fun d hd => hlt d (List.mem_reverse.mp hd)

/-- A value of digits without a leading zero is at least the power of the base for the other
digits. -/
theorem pow_length_le_value (base : Nat) {d : Nat} (hd : d ≠ 0) (ds : List Nat) :
    base ^ ds.length ≤ value base (d :: ds) := by
  rw [value_eq_ofDigits, List.reverse_cons, Nat.ofDigits_append, Nat.ofDigits_singleton,
    List.length_reverse]
  exact Nat.le_add_left_of_le (Nat.le_mul_of_pos_right _ (Nat.pos_of_ne_zero hd))

/-! ### Hexadecimal texts -/

/-- The hexadecimal digits by value, with small letters and with capitals. -/
def hexAlphabets : List (List Char) :=
  ["0123456789abcdef".toList, "0123456789ABCDEF".toList]

/-- A character is the **hexadecimal digit** of a value when one of the alphabets has it at that
place. -/
def IsHexDigitOf (d : Nat) (c : Char) : Prop :=
  ∃ alphabet ∈ hexAlphabets, alphabet[d]? = some c

/-- A text **writes a number in hexadecimal**: one or more digits, the most significant one
first. -/
def WritesHex (n : Nat) (cs : List Char) : Prop :=
  cs ≠ [] ∧ ∃ ds, List.Forall₂ IsHexDigitOf ds cs ∧ n = Nat.ofDigits 16 ds.reverse

/-- A character out of a run of code points stands at its distance in an alphabet. -/
theorem getElem?_of_run {alphabet : List Char} (first count place : Nat)
    (hrun : ∀ j ∈ List.range count, alphabet[place + j]? = some (Char.ofNat (first + j)))
    (hfirst : first ≤ c.toNat) (hlast : c.toNat < first + count) :
    alphabet[c.toNat - first + place]? = some c := by
  have hc := hrun (c.toNat - first) (List.mem_range.mpr (by omega))
  rwa [Nat.add_sub_cancel' hfirst, Char.ofNat_toNat, Nat.add_comm place] at hc

theorem hexDigit?_eq_some_iff {d : Nat} : hexDigit? c = some d ↔ IsHexDigitOf d c := by
  constructor
  · intro h
    have hlt : ∀ {a : Char}, c ≤ a → c.toNat < a.toNat + 1 := fun h => Nat.lt_succ_of_le h
    rw [hexDigit?] at h
    split_ifs at h with hdigit hsmall hcapital
    all_goals obtain rfl := Option.some.inj h
    · exact ⟨"0123456789abcdef".toList, by simp [hexAlphabets],
        getElem?_of_run 48 10 0 (by decide) hdigit.1 (hlt hdigit.2)⟩
    · exact ⟨"0123456789abcdef".toList, by simp [hexAlphabets],
        getElem?_of_run 97 6 10 (by decide) hsmall.1 (hlt hsmall.2)⟩
    · exact ⟨"0123456789ABCDEF".toList, by simp [hexAlphabets],
        getElem?_of_run 65 6 10 (by decide) hcapital.1 (hlt hcapital.2)⟩
  · rintro ⟨alphabet, hmem, hc⟩
    have hall : ∀ alphabet ∈ hexAlphabets, alphabet.length = 16 ∧
        ∀ d ∈ List.range 16, alphabet[d]?.bind hexDigit? = some d := by decide
    obtain ⟨hlength, hread⟩ := hall alphabet hmem
    have hd := (List.getElem?_eq_some_iff.mp hc).1
    have h := hread d (List.mem_range.mpr (by omega))
    rwa [hc, Option.bind_some] at h

theorem IsHexDigitOf.lt {d : Nat} (h : IsHexDigitOf d c) : d < 16 := by
  obtain ⟨alphabet, hmem, hc⟩ := h
  have hall : ∀ alphabet ∈ hexAlphabets, alphabet.length = 16 := by decide
  have hd := (List.getElem?_eq_some_iff.mp hc).1
  rwa [hall alphabet hmem] at hd

/-- **What is read in hexadecimal** is what is written so. -/
theorem readHex?_eq_some_iff : readHex? cs = some n ↔ WritesHex n cs := by
  have hmap : cs ≠ [] → readHex? cs = (cs.mapM hexDigit?).map (value 16) := by
    intro hne
    obtain ⟨c, cs, rfl⟩ := List.exists_cons_of_ne_nil hne
    rfl
  constructor
  · intro h
    obtain ⟨hne, -⟩ := isHexDigit_of_readHex? h
    obtain ⟨ds, hds, rfl⟩ := Option.map_eq_some_iff.mp (hmap hne ▸ h)
    refine ⟨hne, ds, ?_, value_eq_ofDigits 16 ds⟩
    exact (mapM_eq_some_iff.mp hds).flip.imp fun _ _ => hexDigit?_eq_some_iff.mp
  · rintro ⟨hne, ds, hds, rfl⟩
    rw [hmap hne, Option.map_eq_some_iff]
    refine ⟨ds, mapM_eq_some_iff.mpr ?_, value_eq_ofDigits 16 ds⟩
    exact hds.flip.imp fun _ _ => hexDigit?_eq_some_iff.mpr

/-- A run of digits writes some number. -/
theorem exists_writesHex (hne : cs ≠ []) (h : ∀ c ∈ cs, isHexDigit c) : ∃ n, WritesHex n cs := by
  obtain ⟨ds, hds⟩ := exists_mapM h
  obtain ⟨c, cs, rfl⟩ := List.exists_cons_of_ne_nil hne
  exact ⟨value 16 ds, readHex?_eq_some_iff.mp (Option.map_eq_some_iff.mpr ⟨ds, hds, rfl⟩)⟩

/-- The leading digit bounds a number. -/
theorem WritesHex.lt_of_cons {d : Nat} (h : WritesHex n (c :: cs)) (hc : hexDigit? c = some d) :
    n < (d + 1) * 16 ^ cs.length := by
  obtain ⟨-, ds, hds, rfl⟩ := h
  cases hds with
  | @cons d' _ ds _ hd' hds =>
      obtain rfl : d = d' := Option.some.inj (hc.symm.trans (hexDigit?_eq_some_iff.mpr hd'))
      have hlt : ∀ e ∈ ds, e < 16 := by
        exact ((List.forall₂_and_left _ _).mp (hds.imp fun _ _ he => ⟨he.lt, he⟩)).1
      have hvalue := value_lt (by decide) hlt
      rw [value_eq_ofDigits, hds.length_eq] at hvalue
      rw [List.reverse_cons, Nat.ofDigits_append, Nat.ofDigits_singleton, List.length_reverse,
        hds.length_eq, Nat.add_one_mul, Nat.mul_comm d]
      omega

end Numeral

end MarketRegistry
