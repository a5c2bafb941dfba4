/-!
# Positional numerals

Numbers as lists of digits in a base, the most significant digit first.

## Main definitions

* `Numeral.value` — the number that digits write.
* `Numeral.digits` — the digits of a number, without leading zeros.
* `Numeral.decimalDigit?`, `Numeral.hexDigit?` — the digits that characters stand for.
* `Numeral.decimal`, `Numeral.signedDecimal` — the decimal text of a number.
-/

namespace MarketRegistry.Numeral

/-- The number that digits write in a base. -/
def value (base : Nat) (ds : List Nat) : Nat :=
  ds.foldl (fun n d => n * base + d) 0

/-- The digits of a number in a base, without leading zeros: none for zero. -/
def digits (base n : Nat) : List Nat :=
  if n = 0 ∨ base < 2 then [] else digits base (n / base) ++ [n % base]
termination_by n
decreasing_by
  rename_i h
  exact Nat.div_lt_self (by omega) (by omega)

/-- The decimal digit that an ASCII character stands for. -/
def decimalDigit? (c : Char) : Option Nat :=
  if '0' ≤ c ∧ c ≤ '9' then some (c.toNat - '0'.toNat) else none

/-- The hexadecimal digit that an ASCII character stands for, in either case. -/
def hexDigit? (c : Char) : Option Nat :=
  if '0' ≤ c ∧ c ≤ '9' then some (c.toNat - '0'.toNat)
  else if 'a' ≤ c ∧ c ≤ 'f' then some (c.toNat - 'a'.toNat + 10)
  else if 'A' ≤ c ∧ c ≤ 'F' then some (c.toNat - 'A'.toNat + 10)
  else none

/-- Whether a character is an ASCII decimal digit. -/
def isDecimalDigit (c : Char) : Bool :=
  (decimalDigit? c).isSome

/-- Whether a character is an ASCII hexadecimal digit. -/
def isHexDigit (c : Char) : Bool :=
  (hexDigit? c).isSome

/-- The number that one or more characters write in decimal. -/
def readDecimal? : List Char → Option Nat
  | [] => none
  | cs => (cs.mapM decimalDigit?).map (value 10)

/-- The number that one or more characters write in hexadecimal. -/
def readHex? : List Char → Option Nat
  | [] => none
  | cs => (cs.mapM hexDigit?).map (value 16)

/-- The decimal text of a number. -/
def decimal (n : Nat) : List Char :=
  Nat.toDigits 10 n

/-- The decimal text of an integer, with a sign when it is negative. -/
def signedDecimal (i : Int) : List Char :=
  if i < 0 then '-' :: decimal i.natAbs else decimal i.natAbs

/-- The integer that a decimal text with an optional sign writes. -/
def readSignedDecimal? : List Char → Option Int
  | '-' :: cs => (readDecimal? cs).map fun n => -(n : Int)
  | cs => (readDecimal? cs).map Int.ofNat

@[simp]
theorem value_nil (base : Nat) : value base [] = 0 := rfl

theorem value_append_singleton (base : Nat) (ds : List Nat) (d : Nat) :
    value base (ds ++ [d]) = value base ds * base + d := by
  simp [value, List.foldl_append]

/-- The digits of a number write it. -/
theorem value_digits {base : Nat} (hb : 2 ≤ base) (n : Nat) :
    value base (digits base n) = n := by
  induction n using Nat.strongRecOn with
  | _ n ih =>
    rw [digits]
    split
    · rename_i h
      have : n = 0 := by omega
      simp [this]
    · rename_i h
      rw [value_append_singleton, ih _ (Nat.div_lt_self (by omega) (by omega)), Nat.mul_comm]
      exact Nat.div_add_mod n base

/-- Every digit is below the base. -/
theorem lt_of_mem_digits {base n d : Nat} (h : d ∈ digits base n) : d < base := by
  induction n using Nat.strongRecOn with
  | _ n ih =>
    rw [digits] at h
    split at h
    · simp at h
    · rename_i hn
      rcases List.mem_append.mp h with h | h
      · exact ih _ (Nat.div_lt_self (by omega) (by omega)) h
      · rw [List.mem_singleton.mp h]
        exact Nat.mod_lt _ (by omega)

end MarketRegistry.Numeral
