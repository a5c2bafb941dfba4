import MarketRegistry.Address.Basic
import MarketRegistry.Proofs.Numerals

/-!
# Base 58 texts of addresses

A change of base keeps the leading zeros and the value, so that it can be undone. The length of
a numeral follows from its value, which bounds the texts of 32 bytes from both sides: every
leading zero is one character, and the bytes after them take no fewer characters than bytes and
at most twelve more.

## Main results

* `Base58.rebase_rebase` — a change of base is undone by the change back.
* `Address.ofText?_toText` — the text of an address is read back.
* `Address.length_toText` — the text of an address has 32 to 44 characters.
* `Base58.Writes`, `Base58.writes_iff` — what the text of bytes is, and that there is one.
* `Base58.decode?_eq_some_iff` — what a text is read as.
* `Base58.length_of_decode?` — the characters that bytes take at least.
-/

namespace MarketRegistry

namespace Base58

variable {base target : Nat} {ds : List Nat}

/-! ### Changes of base -/

/-- Digits are some zeros, and then digits that do not begin with one. -/
theorem exists_zeros {α : Type} [Zero α] (ds : List α) :
    ∃ k rest, ds = List.replicate k 0 ++ rest ∧ rest.head? ≠ some 0 := by
  induction ds with
  | nil => exact ⟨0, [], rfl, by simp⟩
  | cons d ds ih =>
      by_cases hd : d = 0
      · obtain ⟨k, rest, rfl, hrest⟩ := ih
        exact ⟨k + 1, rest, by rw [hd, List.replicate_succ, List.cons_append], hrest⟩
      · exact ⟨0, d :: ds, rfl, by simpa using hd⟩

/-- A change of base keeps the zeros and writes the rest anew. -/
theorem rebase_zeros (base target k : Nat) {rest : List Nat} (h : rest.head? ≠ some 0) :
    rebase base target (List.replicate k 0 ++ rest) =
      List.replicate k 0 ++ Numeral.digits target (Numeral.value base rest) := by
  have hnil : rest.takeWhile (· == 0) = [] := by
    cases rest with
    | nil => rfl
    | cons d rest => exact List.takeWhile_cons_of_neg (by simpa using h)
  rw [rebase, List.takeWhile_append_of_pos (by simp), hnil, List.append_nil,
    Numeral.value_replicate_zero_append]

/-- **A change of base** is undone by the change back. -/
theorem rebase_rebase (hb : 2 ≤ base) (ht : 2 ≤ target) (h : ∀ d ∈ ds, d < base) :
    rebase target base (rebase base target ds) = ds := by
  obtain ⟨k, rest, rfl, hrest⟩ := exists_zeros ds
  have hlt : ∀ d ∈ rest, d < base := by
    intro d hd
    exact h d (List.mem_append_right _ hd)
  rw [rebase_zeros base target k hrest,
    rebase_zeros target base k (Numeral.head?_digits_ne_zero ht _), Numeral.value_digits ht,
    Numeral.digits_value hb hlt hrest]

theorem lt_of_mem_rebase (ht : 2 ≤ target) {d : Nat} (h : d ∈ rebase base target ds) :
    d < target := by
  rcases List.mem_append.mp h with h | h
  · have hzero : d = 0 := by simpa using List.all_eq_true.mp List.all_takeWhile d h
    omega
  · exact Numeral.lt_of_mem_digits h

/-! ### Digits -/

theorem digit?_digitChar {d : Nat} (h : d < 58) : digit? (digitChar d) = some d := by
  have hall : ∀ d ∈ List.range 58, digit? (digitChar d) = some d := by decide
  exact hall d (List.mem_range.mpr h)

theorem digit?_eq_some_iff {c : Char} {d : Nat} : digit? c = some d ↔ d < 58 ∧ digitChar d = c := by
  constructor
  · intro h
    obtain ⟨hd, hc, -⟩ := List.findIdx?_eq_some_iff_getElem.mp h
    refine ⟨hd, ?_⟩
    rw [digitChar, List.getD_eq_getElem?_getD, List.getElem?_eq_getElem hd, Option.getD_some]
    exact beq_iff_eq.mp hc
  · rintro ⟨hd, rfl⟩
    exact digit?_digitChar hd

theorem getElem?_alphabet_iff {c : Char} {d : Nat} :
    alphabet[d]? = some c ↔ d < 58 ∧ digitChar d = c := by
  constructor
  · intro h
    obtain ⟨hd, -⟩ := List.getElem?_eq_some_iff.mp h
    exact ⟨hd, by rw [digitChar, List.getD_eq_getElem?_getD, h, Option.getD_some]⟩
  · rintro ⟨hd, rfl⟩
    have hd : d < alphabet.length := hd
    rw [digitChar, List.getD_eq_getElem?_getD, List.getElem?_eq_getElem hd, Option.getD_some]

/-- The characters of digits, one by one. -/
theorem forall₂_digitChar_iff {ds : List Nat} {cs : List Char} :
    List.Forall₂ (fun d c => d < 58 ∧ digitChar d = c) ds cs ↔
      (∀ d ∈ ds, d < 58) ∧ cs = ds.map digitChar := by
  rw [List.forall₂_and_left, ← List.forall₂_map_left_iff (R := Eq), List.forall₂_eq_eq_eq, eq_comm]

theorem mapM_digit?_eq_some_iff {ds : List Nat} {cs : List Char} :
    cs.mapM digit? = some ds ↔ (∀ d ∈ ds, d < 58) ∧ cs = ds.map digitChar := by
  rw [mapM_eq_some_iff, ← forall₂_digitChar_iff]
  simp only [digit?_eq_some_iff]
  exact ⟨List.Forall₂.flip, List.Forall₂.flip⟩

theorem digitChar_mem (d : Nat) : digitChar d ∈ alphabet := by
  rw [digitChar, List.getD_eq_getElem?_getD]
  cases h : alphabet[d]? with
  | none => decide
  | some c => exact List.mem_of_getElem? h

/-! ### Bytes -/

variable {bytes : List UInt8} {cs : List Char}

theorem lt_of_mem_toNat {d : Nat} (h : d ∈ bytes.map UInt8.toNat) : d < 256 := by
  obtain ⟨b, -, rfl⟩ := List.mem_map.mp h
  exact b.toNat_lt

theorem mem_alphabet_of_mem_encode {c : Char} (h : c ∈ encode bytes) : c ∈ alphabet := by
  obtain ⟨d, -, rfl⟩ := List.mem_map.mp h
  exact digitChar_mem d

/-- **The text of bytes** is read back. -/
theorem decode?_encode (bytes : List UInt8) : decode? (encode bytes) = some bytes := by
  have hdigits : (encode bytes).mapM digit? = some (rebase 256 58 (bytes.map UInt8.toNat)) :=
    mapM_digit?_eq_some_iff.mpr ⟨fun d => lt_of_mem_rebase (by decide), rfl⟩
  rw [decode?, hdigits, Option.map_some,
    rebase_rebase (by decide) (by decide) fun d => lt_of_mem_toNat, List.map_map]
  have hid : UInt8.ofNat ∘ UInt8.toNat = id := funext fun b => UInt8.ofNat_toNat
  rw [hid, List.map_id]

/-! ### Writing -/

/-- A text **writes bytes in base 58** when it has a one for every leading zero byte, and then
the digits, without a leading zero, of the number that the other bytes are in base 256. -/
def Writes (bytes : List UInt8) (cs : List Char) : Prop :=
  ∃ k rest ds digits, bytes = List.replicate k 0 ++ rest ∧ rest.head? ≠ some 0 ∧
    cs = List.replicate k '1' ++ digits ∧
    List.Forall₂ (fun d c => alphabet[d]? = some c) ds digits ∧ ds.head? ≠ some 0 ∧
    Nat.ofDigits 58 ds.reverse = Nat.ofDigits 256 (rest.map UInt8.toNat).reverse

theorem head?_map_toNat_ne_zero {rest : List UInt8} (h : rest.head? ≠ some 0) :
    (rest.map UInt8.toNat).head? ≠ some 0 := by
  rw [List.head?_map, ne_eq, Option.map_eq_some_iff]
  rintro ⟨b, hb, hzero⟩
  exact h (hb.trans (congrArg some (UInt8.toNat_inj.mp hzero)))

/-- The text of bytes, by its leading zeros. -/
theorem encode_zeros (k : Nat) {rest : List UInt8} (h : rest.head? ≠ some 0) :
    encode (List.replicate k 0 ++ rest) = List.replicate k '1' ++
      (Numeral.digits 58 (Numeral.value 256 (rest.map UInt8.toNat))).map digitChar := by
  rw [encode, List.map_append, List.map_replicate, UInt8.toNat_zero,
    rebase_zeros 256 58 k (head?_map_toNat_ne_zero h), List.map_append, List.map_replicate]
  rfl

/-- **The text of bytes** is the one that writes them. -/
theorem writes_iff : Writes bytes cs ↔ cs = encode bytes := by
  simp only [Writes, getElem?_alphabet_iff, forall₂_digitChar_iff]
  constructor
  · rintro ⟨k, rest, ds, digits, rfl, hrest, rfl, ⟨hlt, rfl⟩, hhead, hvalue⟩
    rw [encode_zeros k hrest, Numeral.value_eq_ofDigits, ← hvalue, ← Numeral.value_eq_ofDigits,
      Numeral.digits_value (by decide) hlt hhead]
  · rintro rfl
    obtain ⟨k, rest, rfl, hrest⟩ := exists_zeros bytes
    refine ⟨k, rest, _, _, rfl, hrest, encode_zeros k hrest,
      ⟨fun d => Numeral.lt_of_mem_digits, rfl⟩, Numeral.head?_digits_ne_zero (by decide) _, ?_⟩
    rw [← Numeral.value_eq_ofDigits, Numeral.value_digits (by decide), Numeral.value_eq_ofDigits]

/-- **What a text is read as** are the bytes whose text it is. -/
theorem decode?_eq_some_iff : decode? cs = some bytes ↔ cs = encode bytes := by
  refine ⟨fun h => ?_, fun h => h ▸ decode?_encode bytes⟩
  obtain ⟨ds, hds, rfl⟩ := Option.map_eq_some_iff.mp h
  obtain ⟨hlt, rfl⟩ := mapM_digit?_eq_some_iff.mp hds
  have hbytes : ((rebase 58 256 ds).map UInt8.ofNat).map UInt8.toNat = rebase 58 256 ds := by
    have hid : ∀ d ∈ rebase 58 256 ds, (UInt8.toNat ∘ UInt8.ofNat) d = d := by
      intro d hd
      have hlt := lt_of_mem_rebase (by decide) hd
      rw [Function.comp_apply, UInt8.toNat_ofNat', Nat.mod_eq_of_lt hlt]
    rw [List.map_map, List.map_congr_left hid, List.map_id']
  rw [encode, hbytes, rebase_rebase (by decide) (by decide) hlt]

/-! ### Lengths -/

/-- A number lies below the power of the base for its digits. -/
theorem lt_pow_length_digits (hb : 2 ≤ base) (n : Nat) :
    n < base ^ (Numeral.digits base n).length := by
  have h := Numeral.value_lt hb fun d (hd : d ∈ Numeral.digits base n) =>
    Numeral.lt_of_mem_digits hd
  rwa [Numeral.value_digits hb] at h

/-- The power of the base for all digits but one does not exceed their value. -/
theorem pow_pred_length_le (base : Nat) (hne : ds ≠ []) (hhead : ds.head? ≠ some 0) :
    base ^ (ds.length - 1) ≤ Numeral.value base ds := by
  cases ds with
  | nil => exact absurd rfl hne
  | cons d ds => exact Numeral.pow_length_le_value base (by simpa using hhead) ds

theorem pow_pred_length_digits_le (hb : 2 ≤ base) {n : Nat} (hne : Numeral.digits base n ≠ []) :
    base ^ ((Numeral.digits base n).length - 1) ≤ n := by
  have h := pow_pred_length_le base hne (Numeral.head?_digits_ne_zero hb n)
  rwa [Numeral.value_digits hb] at h

/-- The characters that bytes take beyond the leading zeros. -/
theorem length_digits_value {rest : List Nat} (hlt : ∀ d ∈ rest, d < 256)
    (hhead : rest.head? ≠ some 0) (hlen : rest.length ≤ 32) :
    rest.length ≤ (Numeral.digits 58 (Numeral.value 256 rest)).length ∧
      (Numeral.digits 58 (Numeral.value 256 rest)).length ≤ 12 + rest.length := by
  have hupper := Numeral.value_lt (by decide) hlt
  have hlower := lt_pow_length_digits (show 2 ≤ 58 by decide) (Numeral.value 256 rest)
  have hpow : ∀ r ∈ List.range 33, 256 ^ r ≤ 58 ^ (12 + r) := by decide
  constructor
  · by_cases hnil : rest = []
    · simp [hnil]
    · have hvalue := pow_pred_length_le 256 hnil hhead
      have hmono := Nat.pow_le_pow_left (show 58 ≤ 256 by decide)
        (Numeral.digits 58 (Numeral.value 256 rest)).length
      have hlt := (Nat.pow_lt_pow_iff_right (show 1 < 256 by decide)).mp
        (hvalue.trans_lt (hlower.trans_le hmono))
      omega
  · by_cases hnil : Numeral.digits 58 (Numeral.value 256 rest) = []
    · simp [hnil]
    · have hvalue := pow_pred_length_digits_le (by decide) hnil
      have hle := hpow rest.length (List.mem_range.mpr (by omega))
      have hlt := (Nat.pow_lt_pow_iff_right (show 1 < 58 by decide)).mp
        (hvalue.trans_lt (hupper.trans_le hle))
      omega

/-- Four bytes or more take more characters than bytes. -/
theorem length_lt_length_digits_value {rest : List Nat} (hhead : rest.head? ≠ some 0)
    (hlong : 4 ≤ rest.length) :
    rest.length < (Numeral.digits 58 (Numeral.value 256 rest)).length := by
  have hne : rest ≠ [] := List.ne_nil_of_length_pos (by omega)
  have hlower := pow_pred_length_le 256 hne hhead
  have hupper := lt_pow_length_digits (show 2 ≤ 58 by decide) (Numeral.value 256 rest)
  obtain ⟨m, hm⟩ := Nat.exists_eq_add_of_le hlong
  have hpow : 58 ^ rest.length ≤ 256 ^ (rest.length - 1) :=
    calc 58 ^ rest.length = 58 ^ 4 * 58 ^ m := by rw [hm, pow_add]
      _ ≤ 256 ^ 3 * 256 ^ m :=
        Nat.mul_le_mul (by decide) (Nat.pow_le_pow_left (by decide) m)
      _ = 256 ^ (rest.length - 1) := by rw [← pow_add, show 3 + m = rest.length - 1 by omega]
  exact (Nat.pow_lt_pow_iff_right (show 1 < 58 by decide)).mp
    (hpow.trans_lt (hlower.trans_lt hupper))

/-- A text without a leading zero has the characters that the bytes it writes take at least. -/
theorem length_of_decode? (h : decode? cs = some bytes) (hhead : cs.head? ≠ some '1')
    (hne : bytes ≠ []) : 256 ^ (bytes.length - 1) < 58 ^ cs.length := by
  obtain ⟨ds, hds, rfl⟩ := Option.map_eq_some_iff.mp h
  obtain ⟨hlt, rfl⟩ := mapM_digit?_eq_some_iff.mp hds
  have hzero : ds.head? ≠ some 0 := by
    intro hds
    exact hhead (by rw [List.head?_map, hds]; rfl)
  have hrebase : rebase 58 256 ds = Numeral.digits 256 (Numeral.value 58 ds) :=
    rebase_zeros 58 256 0 hzero
  rw [hrebase] at hne ⊢
  rw [List.length_map, List.length_map]
  refine (pow_pred_length_digits_le (by decide) fun hnil => ?_).trans_lt
    (Numeral.value_lt (by decide) hlt)
  exact hne (by rw [hnil, List.map_nil])

end Base58

namespace Address

/-- **The text of an address** is read back. -/
theorem ofText?_toText (a : Address) : ofText? a.toText = some a := by
  rw [ofText?, toText, Base58.decode?_encode, Option.bind_some, ofBytes?_bytes]

/-- **The address of a text** is the one whose text it is. -/
theorem ofText?_eq_some_iff {cs : List Char} {a : Address} :
    ofText? cs = some a ↔ cs = a.toText := by
  refine ⟨fun h => ?_, fun h => h ▸ ofText?_toText a⟩
  obtain ⟨bytes, hbytes, ha⟩ := Option.bind_eq_some_iff.mp h
  rw [toText, ofBytes?_eq_some ha, ← Base58.decode?_eq_some_iff, hbytes]

/-- **The text of an address** has 32 to 44 characters. -/
theorem length_toText (a : Address) : 32 ≤ a.toText.length ∧ a.toText.length ≤ 44 := by
  obtain ⟨k, rest, hbytes, hrest⟩ := Base58.exists_zeros a.bytes
  have hlength := congrArg List.length hbytes
  rw [a.length_bytes, List.length_append, List.length_replicate] at hlength
  have hbounds := Base58.length_digits_value (fun d => Base58.lt_of_mem_toNat)
    (Base58.head?_map_toNat_ne_zero hrest) (by rw [List.length_map]; omega)
  rw [List.length_map] at hbounds
  rw [toText, hbytes, Base58.encode_zeros k hrest, List.length_append, List.length_replicate,
    List.length_map]
  omega

/-- A text of 32 characters is that of an address with 29 zeros in front at least. -/
theorem exists_zeros_of_length_toText {a : Address} (h : a.toText.length = 32) :
    ∃ k rest digits, 29 ≤ k ∧ a.bytes = List.replicate k 0 ++ rest ∧
      a.toText = List.replicate k '1' ++ digits := by
  obtain ⟨k, rest, hbytes, hrest⟩ := Base58.exists_zeros a.bytes
  have htext : a.toText = _ := (congrArg Base58.encode hbytes).trans (Base58.encode_zeros k hrest)
  have hlength := congrArg List.length hbytes
  rw [htext, List.length_append, List.length_replicate, List.length_map] at h
  rw [a.length_bytes, List.length_append, List.length_replicate] at hlength
  refine ⟨k, rest, _, ?_, hbytes, htext⟩
  by_contra hfew
  have hlong := Base58.length_lt_length_digits_value (Base58.head?_map_toNat_ne_zero hrest)
    (by rw [List.length_map]; omega)
  rw [List.length_map] at hlong
  omega

end Address

end MarketRegistry
