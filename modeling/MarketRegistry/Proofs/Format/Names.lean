import MarketRegistry.Format.Decode
import MarketRegistry.Proofs.Json.Decimal

/-!
# Names in two cases

The camel case form of a name in snake case, and the laws that make it the inverse of
`snakeCase`: a key in camel case names at most one field, and each field has one key.

## Main results

* `camelCase` — a name in snake case as a key.
* `camelCase_snakeCase`, `snakeCase_camelCase` — the two forms determine each other.
-/

namespace MarketRegistry

/-! ### Letters -/

/-- An ASCII capital as a small letter. -/
def small (c : Char) : Char :=
  Char.ofNat (c.toNat + 32)

variable {c : Char} {cs : List Char}

theorem isCapital_iff : isCapital c ↔ 65 ≤ c.toNat ∧ c.toNat ≤ 90 := by
  rw [isCapital, Bool.and_eq_true, decide_eq_true_eq, decide_eq_true_eq]
  exact Iff.rfl

theorem isSmall_iff : isSmall c ↔ 97 ≤ c.toNat ∧ c.toNat ≤ 122 := by
  rw [isSmall, Bool.and_eq_true, decide_eq_true_eq, decide_eq_true_eq]
  exact Iff.rfl

theorem isLetterOrDigit_iff : isLetterOrDigit c ↔
    (65 ≤ c.toNat ∧ c.toNat ≤ 90) ∨ (97 ≤ c.toNat ∧ c.toNat ≤ 122) ∨
      (48 ≤ c.toNat ∧ c.toNat ≤ 57) := by
  have hdigit : ('0' ≤ c ∧ c ≤ '9') ↔ 48 ≤ c.toNat ∧ c.toNat ≤ 57 := Iff.rfl
  simp only [isLetterOrDigit, Bool.or_eq_true, Bool.and_eq_true, decide_eq_true_eq, isCapital_iff,
    isSmall_iff, hdigit, or_assoc]

theorem toNat_ofNat_of_lt {n : Nat} (h : n < 128) : (Char.ofNat n).toNat = n := by
  have hvalid : n.isValidChar := .inl (by omega)
  have hchar : Char.ofNat n = Char.ofNatAux n hvalid := dif_pos hvalid
  rw [hchar]
  rfl

theorem toNat_small (h : isCapital c) : (small c).toNat = c.toNat + 32 := by
  have hc := isCapital_iff.mp h
  exact toNat_ofNat_of_lt (by omega)

theorem toNat_capital (h : isSmall c) : (capital c).toNat = c.toNat - 32 := by
  have hc := isSmall_iff.mp h
  rw [capital, if_pos h]
  exact toNat_ofNat_of_lt (by omega)

theorem isSmall_small (h : isCapital c) : isSmall (small c) := by
  have hc := isCapital_iff.mp h
  rw [isSmall_iff, toNat_small h]
  omega

theorem isCapital_capital (h : isSmall c) : isCapital (capital c) := by
  have hc := isSmall_iff.mp h
  rw [isCapital_iff, toNat_capital h]
  omega

theorem capital_small (h : isCapital c) : capital (small c) = c := by
  rw [capital, if_pos (isSmall_small h), toNat_small h, Nat.add_sub_cancel, Char.ofNat_toNat]

theorem small_capital (h : isSmall c) : small (capital c) = c := by
  have hc := isSmall_iff.mp h
  rw [small, toNat_capital h, Nat.sub_add_cancel (by omega), Char.ofNat_toNat]

/-- A capital is left alone, and so is a digit. -/
theorem capital_of_not_isSmall (h : ¬isSmall c) : capital c = c := by
  rw [capital, if_neg h]

theorem not_isCapital_of_isSmall (h : isSmall c) : ¬isCapital c := by
  have hc := isSmall_iff.mp h
  rw [isCapital_iff]
  omega

theorem isLetterOrDigit_of_isCapital (h : isCapital c) : isLetterOrDigit c := by
  simp [isLetterOrDigit, h]

theorem isLetterOrDigit_of_isSmall (h : isSmall c) : isLetterOrDigit c := by
  simp [isLetterOrDigit, h]

theorem ne_underscore_of_isLetterOrDigit (h : isLetterOrDigit c) : c ≠ '_' := by
  rintro rfl
  exact absurd h (by decide)

theorem all_isLetterOrDigit_of_isCamelCase (h : isCamelCase cs) : cs.all isLetterOrDigit := by
  cases cs with
  | nil => cases h
  | cons c cs =>
      rw [isCamelCase, Bool.and_eq_true] at h
      rw [List.all_cons, isLetterOrDigit_of_isSmall h.1, h.2]
      rfl

/-! ### Lower case -/

/-- The lower case of ASCII text, character by character. -/
theorem lowerFrom_ascii (before : List Char) (h : ∀ c ∈ cs, c.toNat < 128) :
    lowerFrom before cs = cs.map fun c => if isCapital c then small c else c := by
  induction cs generalizing before with
  | nil => rfl
  | cons c cs ih =>
      obtain ⟨hc, hcs⟩ := List.forall_mem_cons.mp h
      have hsigma : c ≠ '\u03A3' := by
        rintro rfl
        exact absurd hc (by decide)
      have hlower : lowerChar c = [if isCapital c then small c else c] := by
        rw [lowerChar, if_pos hc]
        simp only [isCapital_iff, Bool.and_eq_true, decide_eq_true_eq]
        rfl
      simp only [lowerFrom, beq_iff_eq, hsigma, if_false]
      rw [hlower, ih _ hcs, List.map_cons, List.singleton_append]

/-- What a letter or digit of a key becomes in snake case. -/
def snakeStep (c : Char) : List Char :=
  if isCapital c then ['_', small c] else [c]

theorem flatMap_snakeStep_of_isCapital (h : isCapital c) (cs : List Char) :
    (c :: cs).flatMap snakeStep = '_' :: small c :: cs.flatMap snakeStep := by
  rw [List.flatMap_cons, snakeStep, if_pos h]
  rfl

theorem flatMap_snakeStep_of_not_isCapital (h : ¬isCapital c) (cs : List Char) :
    (c :: cs).flatMap snakeStep = c :: cs.flatMap snakeStep := by
  rw [List.flatMap_cons, snakeStep, if_neg h]
  rfl

/-- **The snake case form of a key**, character by character. -/
theorem snakeCase_cons (hc : isSmall c) (hcs : cs.all isLetterOrDigit) :
    snakeCase (c :: cs) = c :: cs.flatMap snakeStep := by
  have hascii : ∀ d ∈ c :: cs.flatMap (fun c => if isCapital c then ['_', c] else [c]),
      d.toNat < 128 := by
    intro d hd
    rcases List.mem_cons.mp hd with rfl | hd
    · have := isSmall_iff.mp hc
      omega
    · obtain ⟨e, he, hde⟩ := List.mem_flatMap.mp hd
      have hletter := isLetterOrDigit_iff.mp (List.all_eq_true.mp hcs e he)
      have hcase : d = '_' ∨ d = e := by
        split at hde <;> simp_all
      rcases hcase with rfl | rfl
      · decide
      · omega
  have hfirst : (if isCapital c then small c else c) = c :=
    if_neg (not_isCapital_of_isSmall hc)
  rw [snakeCase, markCapitals, lowerCase, lowerFrom_ascii [] hascii, List.map_cons, hfirst,
    List.map_flatMap]
  congr 2
  funext d
  by_cases hd : isCapital d
  · simp [snakeStep, hd, show isCapital '_' = false from rfl]
  · simp [snakeStep, hd]

theorem snakeCase_eq_flatMap (h : isCamelCase cs) : snakeCase cs = cs.flatMap snakeStep := by
  cases cs with
  | nil => cases h
  | cons c cs =>
      rw [isCamelCase, Bool.and_eq_true] at h
      rw [snakeCase_cons h.1 h.2,
        flatMap_snakeStep_of_not_isCapital (not_isCapital_of_isSmall h.1)]

/-! ### Camel case -/

/-- The **camel case form** of a name in snake case. -/
def camelCase : List Char → List Char
  | '_' :: c :: cs => capital c :: camelCase cs
  | c :: cs => c :: camelCase cs
  | [] => []

theorem camelCase_cons (h : c ≠ '_') (cs : List Char) :
    camelCase (c :: cs) = c :: camelCase cs := by
  rw [camelCase]
  rintro d ds rfl
  exact fun _ => h rfl

/-- What may stand in a name in snake case after the first letter: small letters, digits, and
underscores in front of small letters. -/
def isSnakeTail : List Char → Bool
  | '_' :: c :: cs => isSmall c && isSnakeTail cs
  | c :: cs => (isSmall c || Numeral.isDecimalDigit c) && isSnakeTail cs
  | [] => true

/-- A name in **snake case**. -/
def isSnakeCase : List Char → Bool
  | [] => false
  | c :: cs => isSmall c && isSnakeTail cs

theorem camelCase_flatMap_snakeStep (h : cs.all isLetterOrDigit) :
    camelCase (cs.flatMap snakeStep) = cs := by
  induction cs with
  | nil => rfl
  | cons c cs ih =>
      rw [List.all_cons, Bool.and_eq_true] at h
      obtain ⟨hc, hcs⟩ := h
      by_cases hcap : isCapital c
      · rw [flatMap_snakeStep_of_isCapital hcap, camelCase, capital_small hcap, ih hcs]
      · rw [flatMap_snakeStep_of_not_isCapital hcap,
          camelCase_cons (ne_underscore_of_isLetterOrDigit hc), ih hcs]

/-- **A key** is the camel case form of the name that it stands for. -/
theorem camelCase_snakeCase (h : isCamelCase cs) : camelCase (snakeCase cs) = cs := by
  rw [snakeCase_eq_flatMap h,
    camelCase_flatMap_snakeStep (all_isLetterOrDigit_of_isCamelCase h)]

/-- **Two keys** never have one name. -/
theorem snakeCase_inj {cs' : List Char} (h : isCamelCase cs) (h' : isCamelCase cs')
    (heq : snakeCase cs = snakeCase cs') : cs = cs' := by
  rw [← camelCase_snakeCase h, heq, camelCase_snakeCase h']

/-- The tail of a name and that of its key. -/
theorem camelCase_of_isSnakeTail (h : isSnakeTail cs) :
    (camelCase cs).all isLetterOrDigit ∧ (camelCase cs).flatMap snakeStep = cs := by
  fun_induction isSnakeTail cs with
  | case1 c cs ih =>
      rw [Bool.and_eq_true] at h
      obtain ⟨hall, hflat⟩ := ih h.2
      have hcap := isCapital_capital h.1
      rw [camelCase, List.all_cons, flatMap_snakeStep_of_isCapital hcap, small_capital h.1, hflat,
        isLetterOrDigit_of_isCapital hcap, hall]
      exact ⟨rfl, rfl⟩
  | case2 c cs _ ih =>
      rw [Bool.and_eq_true, Bool.or_eq_true] at h
      obtain ⟨hall, hflat⟩ := ih h.2
      have hrange := h.1
      rw [isSmall_iff, Numeral.isDecimalDigit_iff] at hrange
      have hcap : ¬isCapital c := by
        rw [isCapital_iff]
        omega
      have hletter : isLetterOrDigit c := isLetterOrDigit_iff.mpr (.inr hrange)
      rw [camelCase_cons (ne_underscore_of_isLetterOrDigit hletter), List.all_cons,
        flatMap_snakeStep_of_not_isCapital hcap, hflat, hletter, hall]
      exact ⟨rfl, rfl⟩
  | case3 => exact ⟨rfl, rfl⟩

/-- **A name** is the snake case form of its key. -/
theorem snakeCase_camelCase (h : isSnakeCase cs) :
    isCamelCase (camelCase cs) ∧ snakeCase (camelCase cs) = cs := by
  cases cs with
  | nil => cases h
  | cons c cs =>
      rw [isSnakeCase, Bool.and_eq_true] at h
      obtain ⟨hc, hcs⟩ := h
      obtain ⟨hall, hflat⟩ := camelCase_of_isSnakeTail hcs
      have hne := ne_underscore_of_isLetterOrDigit (isLetterOrDigit_of_isSmall hc)
      rw [camelCase_cons hne, isCamelCase, hc, hall, snakeCase_cons hc hall, hflat]
      exact ⟨rfl, rfl⟩

end MarketRegistry
