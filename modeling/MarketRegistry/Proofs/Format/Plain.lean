import MarketRegistry.Proofs.Format.Names
import MarketRegistry.Proofs.Json.Syntax
import MarketRegistry.Proofs.Numerals
import Mathlib.Data.List.Nodup

/-!
# Decoding plain values

A plain value has one written form, which is all that its decoder accepts; a variant has two,
since the case of its first letter does not matter.

## Main results

* `decodeBytes_eq_ok_iff`, `decodeBuffer_eq_ok_iff`, `decodeAddress_eq_ok_iff` — arrays of bytes.
* `decodeVariant_eq_ok_iff` — variants.
-/

namespace MarketRegistry

theorem ok_bind {ε α β : Type} (a : α) (f : α → Except ε β) : (.ok a >>= f) = f a := rfl

/-- **One step after another** succeeds when both do. -/
theorem bind_eq_ok_iff {ε α β : Type} {x : Except ε α} {f : α → Except ε β} {b : β} :
    (x >>= f) = .ok b ↔ ∃ a, x = .ok a ∧ f a = .ok b := by
  cases x with
  | error e => simp [bind, Except.bind]
  | ok a => simp [bind, Except.bind]

/-- **One step after another** fails when the first does, or else the second. -/
theorem bind_eq_error_iff {ε α β : Type} {x : Except ε α} {f : α → Except ε β} {e : ε} :
    (x >>= f) = .error e ↔ x = .error e ∨ ∃ a, x = .ok a ∧ f a = .error e := by
  cases x with
  | error e' => simp [bind, Except.bind]
  | ok a => simp [bind, Except.bind]

variable {path : Path} {j : Json}

theorem decodeInt_eq_ok_iff {i : Int} : decodeInt path j = .ok i ↔ j = .number (.int i) := by
  constructor
  · intro h
    unfold decodeInt at h
    split at h
    · rw [Except.ok.inj h]
    · cases h
  · rintro rfl
    rfl

theorem decodeBool_eq_ok_iff {b : Bool} : decodeBool path j = .ok b ↔ j = .bool b := by
  constructor
  · intro h
    unfold decodeBool at h
    split at h
    · rw [Except.ok.inj h]
    · cases h
  · rintro rfl
    rfl

/-! ### Bytes -/

theorem decodeInts_eq_ok_iff {js : List Json} {n : Nat} {is : List Int} :
    decodeInts path n js = .ok is ↔ js = is.map fun i => .number (.int i) := by
  induction js generalizing n is with
  | nil =>
      rw [decodeInts, Except.ok.injEq, eq_comm, eq_comm (a := []), List.map_eq_nil_iff]
  | cons j js ih =>
      simp only [decodeInts, bind_eq_ok_iff, decodeInt_eq_ok_iff, ih]
      constructor
      · rintro ⟨i, rfl, is', rfl, h⟩
        cases h
        rfl
      · intro h
        cases is with
        | nil => cases h
        | cons i is =>
            rw [List.map_cons, List.cons.injEq] at h
            exact ⟨i, h.1, is, h.2, rfl⟩

theorem byte?_eq_some_iff {i : Int} {b : UInt8} : byte? i = some b ↔ i = b.toNat := by
  have hb := b.toNat_lt
  constructor
  · intro h
    rw [byte?] at h
    split at h
    · rename_i hi
      rw [← Option.some.inj h, UInt8.toNat_ofNat']
      omega
    · cases h
  · rintro rfl
    rw [byte?, if_pos (by omega), Int.toNat_natCast, UInt8.ofNat_toNat]

theorem mapM_byte?_eq_some_iff {is : List Int} {bytes : List UInt8} :
    is.mapM byte? = some bytes ↔ is = bytes.map fun b => (b.toNat : Int) := by
  rw [mapM_eq_some_iff]
  constructor
  · intro h
    induction h with
    | nil => rfl
    | cons hb _ ih => rw [List.map_cons, ← ih, byte?_eq_some_iff.mp hb]
  · rintro rfl
    induction bytes with
    | nil => exact .nil
    | cons b bytes ih => exact .cons (byte?_eq_some_iff.mpr rfl) ih

/-- Integers are not all bytes when one of them is out of range. -/
theorem mapM_byte?_eq_none_iff {is : List Int} :
    is.mapM byte? = none ↔ ∃ i ∈ is, ¬(0 ≤ i ∧ i ≤ 255) := by
  have hsome : ∀ i, (byte? i).isSome ↔ 0 ≤ i ∧ i ≤ 255 := fun i => by simp [byte?]
  constructor
  · intro h
    by_contra hrange
    simp only [not_exists, not_and, not_not, ← hsome] at hrange
    obtain ⟨bytes, hbytes⟩ := exists_mapM hrange
    rw [h] at hbytes
    cases hbytes
  · rintro ⟨i, hi, hout⟩
    refine Option.eq_none_iff_forall_ne_some.mpr fun bytes hbytes => ?_
    exact hout ((hsome i).mp (isSome_of_mapM hbytes i hi))

/-- **Bytes** are decoded from their values. -/
theorem decodeBytes_eq_ok_iff {bytes : List UInt8} :
    decodeBytes path j = .ok bytes ↔ j = .array (Json.ofBytes bytes) := by
  have hbytes : Json.ofBytes bytes =
      (bytes.map fun b => (b.toNat : Int)).map fun i => .number (.int i) := by
    rw [List.map_map]
    rfl
  constructor
  · intro h
    unfold decodeBytes at h
    split at h
    · obtain ⟨is, his, h⟩ := bind_eq_ok_iff.mp h
      split at h
      · rename_i bs hbs
        cases h
        rw [decodeInts_eq_ok_iff.mp his, mapM_byte?_eq_some_iff.mp hbs, hbytes]
      · cases h
    · cases h
  · rintro rfl
    refine bind_eq_ok_iff.mpr ⟨_, decodeInts_eq_ok_iff.mpr hbytes, ?_⟩
    rw [mapM_byte?_eq_some_iff.mpr rfl]

/-- **Buffers** are decoded from the values of their bytes. -/
theorem decodeBuffer_eq_ok_iff {n : Nat} {b : Buffer n} :
    decodeBuffer n path j = .ok b ↔ j = .array (Json.ofBytes b.bytes) := by
  simp only [decodeBuffer, bind_eq_ok_iff, decodeBytes_eq_ok_iff]
  constructor
  · rintro ⟨bytes, rfl, h⟩
    split at h
    · cases h
      rfl
    · cases h
  · rintro rfl
    exact ⟨b.bytes, rfl, dif_pos b.length_bytes⟩

/-- **Addresses** are decoded from the values of their bytes. -/
theorem decodeAddress_eq_ok_iff {a : Address} :
    decodeAddress path j = .ok a ↔ j = .array (Json.ofBytes a.bytes) := by
  simp only [decodeAddress, bind_eq_ok_iff, decodeBytes_eq_ok_iff]
  constructor
  · rintro ⟨bytes, rfl, h⟩
    split at h
    · rename_i a' ha'
      cases h
      rw [Address.ofBytes?_eq_some ha']
    · cases h
  · rintro rfl
    refine ⟨a.bytes, rfl, ?_⟩
    rw [Address.ofBytes?_bytes]

/-! ### Variants -/

variable {α : Type} {e : Enumeration α} {a : α}

/-- A label finds its variant, and no other label does. -/
theorem Enumeration.find?_eq_some_iff {label : List Char} :
    e.find? label = some a ↔ (e.label a).toList = label := by
  constructor
  · intro h
    simpa using List.find?_some h
  · rintro rfl
    cases h : e.find? (e.label a).toList with
    | none =>
        have hnone := List.find?_eq_none.mp h a (e.complete a)
        simp at hnone
    | some a' =>
        have hlabel : (e.label a').toList = (e.label a).toList := by simpa using List.find?_some h
        rw [List.inj_on_of_nodup_map e.nodup_labels (e.complete a') (e.complete a)
          (String.toList_injective hlabel)]

/-- The characters of a text that holds no lone half. -/
theorem Text.toChars?_eq_some_iff {t : Text} {cs : List Char} :
    t.toChars? = some cs ↔ t = ofChars cs := by
  constructor
  · intro h
    fun_induction toChars? t generalizing cs with
    | case1 =>
        cases h
        rfl
    | case2 c t ih =>
        obtain ⟨ds, hds, rfl⟩ := Option.map_eq_some_iff.mp h
        rw [ih hds]
        rfl
    | case3 => cases h
  · rintro rfl
    exact toChars?_ofChars cs

theorem Text.ofChars_inj {cs ds : List Char} : ofChars cs = ofChars ds ↔ cs = ds := by
  refine ⟨fun h => ?_, congrArg ofChars⟩
  have hchars := toChars?_eq_some_iff.mpr h
  rw [toChars?_ofChars] at hchars
  exact Option.some.inj hchars

theorem isVariantName_of_label {c : Char} {cs : List Char}
    (h : (e.label a).toList = capital c :: cs) : isVariantName (c :: cs) := by
  have hlabel := e.isLabel_label a
  rw [isLabel, h, Bool.and_eq_true] at hlabel
  rw [isVariantName, hlabel.2, Bool.and_true, Bool.or_eq_true]
  by_cases hc : isSmall c
  · exact .inr hc
  · rw [capital_of_not_isSmall hc] at hlabel
    exact .inl hlabel.1

/-- **Variants** are decoded from their labels, the first letter in either case. -/
theorem decodeVariant_eq_ok_iff : decodeVariant e path j = .ok a ↔
    ∃ c cs, j = .string (Text.ofChars (c :: cs)) ∧ (e.label a).toList = capital c :: cs := by
  constructor
  · intro h
    unfold decodeVariant at h
    split at h
    · rename_i t
      split at h
      · cases h
      · rename_i name hname
        obtain ⟨hchars, hvariant⟩ := Option.filter_eq_some_iff.mp hname
        split at h
        · rename_i a' ha'
          cases h
          rw [Text.toChars?_eq_some_iff.mp hchars]
          cases name with
          | nil => cases hvariant
          | cons c cs => exact ⟨c, cs, rfl, Enumeration.find?_eq_some_iff.mp ha'⟩
        · cases h
    · cases h
  · rintro ⟨c, cs, rfl, hlabel⟩
    have hname : (Text.ofChars (c :: cs)).toChars?.filter isVariantName = some (c :: cs) :=
      Option.filter_eq_some_iff.mpr ⟨Text.toChars?_ofChars _, isVariantName_of_label hlabel⟩
    have hfind : e.find? (capitalized (c :: cs)) = some a :=
      Enumeration.find?_eq_some_iff.mpr hlabel
    simp only [decodeVariant, hname, hfind]

end MarketRegistry
