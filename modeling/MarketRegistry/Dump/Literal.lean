import MarketRegistry.Address.Basic
import MarketRegistry.Dump.UnitVariant

/-!
# Quoted literals

A dump quotes big integers in hexadecimal and addresses in base 58. What a quoted literal
stands for is read off its characters, in this order:

1. a text with a leading minus, or an even run of hexadecimal digits, is tried as a signed
   integer of 128 bits in base 16;
2. a text of at most 44 characters that writes 32 bytes in base 58 is an address;
3. anything else is text, with the casing of two field names put right.

Text that happens to be an even run of hexadecimal digits becomes an integer.

## Main definitions

* `Literal`, `Literal.render` — a literal and its json text.
* `Literal.classify` — the literal that a quoted text stands for.
* `fixCasing` — the two spellings put right.
* `reinterpret` — all string tokens replaced by their literals, with the number that are not
  text.
-/

namespace MarketRegistry

/-- What a quoted text stands for. -/
inductive Literal where
  | integer (value : Int)
  | key (address : Address)
  | text (chars : List Char)
  deriving DecidableEq

/-! ### Integers -/

/-- The integers of 128 bits, in two's complement. -/
def isInt128 (i : Int) : Bool :=
  -(Nat.pow 2 127 : Int) ≤ i && i ≤ (Nat.pow 2 127 : Int) - 1

/-- The integer that hexadecimal digits with an optional minus write. -/
def readSignedHex? : List Char → Option Int
  | '-' :: cs => (Numeral.readHex? cs).map fun (n : Nat) => -(n : Int)
  | cs => (Numeral.readHex? cs).map Int.ofNat

/-- Texts that are tried as integers: those with a leading minus and the even runs of
hexadecimal digits. -/
def looksLikeInteger (cs : List Char) : Bool :=
  cs.head? == some '-' || (cs.length % 2 == 0 && cs.all Numeral.isHexDigit)

/-- The 128-bit integer that a literal writes. -/
def integer? (cs : List Char) : Option Int :=
  if looksLikeInteger cs then (readSignedHex? cs).filter isInt128 else none

/-! ### Addresses -/

/-- No address has a longer text. -/
def maxAddressLength : Nat := 44

/-- The address that a literal writes. White space at its end counts for the length, but is
not read. -/
def address? (cs : List Char) : Option Address :=
  if cs.length ≤ maxAddressLength then Address.ofText? (trimEnd cs) else none

/-! ### Casing -/

/-- A text with every `5Min` written `5min`. -/
def fixMinutes : List Char → List Char
  | '5' :: 'M' :: 'i' :: 'n' :: cs => '5' :: 'm' :: 'i' :: 'n' :: fixMinutes cs
  | c :: cs => c :: fixMinutes cs
  | [] => []

/-- A text with every `24H` written `24h`. -/
def fixHours : List Char → List Char
  | '2' :: '4' :: 'H' :: cs => '2' :: '4' :: 'h' :: fixHours cs
  | c :: cs => c :: fixHours cs
  | [] => []

/-- The **casing fixes**, first that of minutes, then that of hours. -/
def fixCasing (cs : List Char) : List Char :=
  fixHours (fixMinutes cs)

/-! ### Classification -/

namespace Literal

/-- The **literal** that a quoted text stands for. -/
def classify (cs : List Char) : Literal :=
  match integer? cs with
  | some i => .integer i
  | none =>
    match address? cs with
    | some a => .key a
    | none => .text (fixCasing cs)

/-- The json text of a list of bytes, without white space. -/
def renderBytes (bytes : List UInt8) : List Char :=
  '[' :: [','].intercalate (bytes.map fun b => Numeral.decimal b.toNat) ++ [']']

/-- The json text of a literal. -/
def render : Literal → List Char
  | integer i => Numeral.signedDecimal i
  | key a => renderBytes a.bytes
  | text cs => '"' :: cs ++ ['"']

/-- The token of a literal: text stays a string. -/
def token (l : Literal) : Token :=
  match l with
  | text _ => ⟨.string, l.render⟩
  | _ => ⟨.bare, l.render⟩

/-- Whether a literal is more than text. -/
def isConverted : Literal → Bool
  | text _ => false
  | _ => true

end Literal

/-- All string tokens replaced by the tokens of their literals. The number counts the literals
that are not text. -/
def reinterpret (ts : List Token) : Edited :=
  { tokens := ts.map fun t => if t.kind = .string then (Literal.classify t.content).token else t
    count := ts.countP fun t => t.kind = .string && (Literal.classify t.content).isConverted }

end MarketRegistry
