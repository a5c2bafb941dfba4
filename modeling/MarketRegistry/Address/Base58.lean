import MarketRegistry.Numeral

/-!
# Base 58

Bytes as text over 58 letters and digits that are hard to confuse. The bytes are a numeral in
base 256 and the text one in base 58; since a numeral loses its leading zeros, these are kept
one by one. Writing and reading are the same operation with the bases exchanged.

## Main definitions

* `Base58.rebase` — a numeral in another base, leading zeros kept.
* `Base58.encode`, `Base58.decode?` — bytes to text and back.
-/

namespace MarketRegistry.Base58

/-- The 58 digits, by value. -/
def alphabet : List Char :=
  "123456789ABCDEFGHJKLMNPQRSTUVWXYZabcdefghijkmnopqrstuvwxyz".toList

/-- The character of a digit. -/
def digitChar (d : Nat) : Char :=
  alphabet.getD d '1'

/-- The digit that a character stands for. -/
def digit? (c : Char) : Option Nat :=
  alphabet.idxOf? c

/-- A numeral in another base: leading zeros are kept one by one, the rest is written anew. -/
def rebase (base target : Nat) (ds : List Nat) : List Nat :=
  ds.takeWhile (· == 0) ++ Numeral.digits target (Numeral.value base ds)

/-- The text of bytes. -/
def encode (bytes : List UInt8) : List Char :=
  (rebase 256 58 (bytes.map UInt8.toNat)).map digitChar

/-- The bytes that a text writes, when all its characters are digits. -/
def decode? (cs : List Char) : Option (List UInt8) :=
  (cs.mapM digit?).map fun ds => (rebase 58 256 ds).map UInt8.ofNat

end MarketRegistry.Base58
