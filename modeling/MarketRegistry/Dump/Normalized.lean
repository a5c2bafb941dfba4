import MarketRegistry.Dump.Literal
import MarketRegistry.Logged

/-!
# Normalization

A dump is almost json. Collapsing its unit variants and replacing its quoted literals, both on
tokens, makes it json that the decoder reads.

## Main definitions

* `Normalized`, `normalizeTokens` — the two edits and their counts.
* `normalize` — the normalized text of a dump, with its record.
-/

namespace MarketRegistry

/-- A normalized dump: its text and the counts of the two edits. -/
structure Normalized where
  text : List Char
  collapsed : Nat
  converted : Nat
  deriving DecidableEq, Repr

/-- Both edits on the tokens of a dump. -/
def normalizeTokens (ts : List Token) : Normalized :=
  let variants := collapse ts
  let literals := reinterpret variants.tokens
  ⟨plainText literals.tokens, variants.count, literals.count⟩

/-- The **normalized text** of a dump. Its record is written once the dump has been cut into
tokens, which is the only step that fails. -/
def normalize (dump : List Char) : Logged UnterminatedString (List Char) := do
  let ts ← tokenize dump
  let n := normalizeTokens ts
  Logged.record (.normalized n.collapsed n.converted)
  return n.text

end MarketRegistry
