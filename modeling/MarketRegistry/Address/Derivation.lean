import MarketRegistry.Address.Basic
import MarketRegistry.Curve
import MarketRegistry.Sha256

/-!
# Derived addresses

The accounts of the exchange program have addresses that follow from what they are for: the
digest of some seed texts, a bump byte, the program's own address and a marker. The first bump
from 255 down to 1 whose digest is not a point of the curve decides.

## Main definitions

* `Account` — the kinds of derived accounts, those of a market with its index.
* `DerivationError` — why an account has no address.
* `indexBytes` — a market index as a seed.
* `Account.preimage` — the bytes that are hashed for one bump.
* `Account.address` — the derived address under a program.
-/

namespace MarketRegistry

/-- The derived accounts. -/
inductive Account where
  | spotMarket (index : Int)
  | spotMarketVault (index : Int)
  | perpMarket (index : Int)
  | state
  | signer
  deriving DecidableEq, Repr

/-- Why an account has no address: its index does not fit two bytes, or every bump gives a
point of the curve. -/
inductive DerivationError where
  | indexTooBig
  | indexNegative
  | noBump
  deriving DecidableEq, Repr

/-- The wording of a derivation error. -/
def DerivationError.message : DerivationError → String
  | indexTooBig => "int too big to convert"
  | indexNegative => "can't convert negative int to unsigned"
  | noBump => "unable to find a viable program address bump seed"

/-- A market **index as a seed**: two bytes, the low one first. -/
def indexBytes (index : Int) : Except DerivationError (List UInt8) :=
  if index < 0 then .error .indexNegative
  else if 65536 ≤ index then .error .indexTooBig
  else .ok [UInt8.ofNat (index.toNat % 256), UInt8.ofNat (index.toNat / 256)]

/-- The bytes of an ASCII text. -/
def asciiBytes (s : String) : List UInt8 :=
  s.toList.map fun c => UInt8.ofNat c.toNat

namespace Account

/-- The seeds of an account: the text of its kind, then the index if it has one. -/
def seeds : Account → Except DerivationError (List (List UInt8))
  | spotMarket i => do return [asciiBytes "spot_market", ← indexBytes i]
  | spotMarketVault i => do return [asciiBytes "spot_market_vault", ← indexBytes i]
  | perpMarket i => do return [asciiBytes "perp_market", ← indexBytes i]
  | state => .ok [asciiBytes "drift_state"]
  | signer => .ok [asciiBytes "drift_signer"]

/-- The bytes that are hashed for one bump: seeds, bump, program and marker with nothing
between them. -/
def preimage (seeds : List (List UInt8)) (bump : UInt8) (program : Address) : List UInt8 :=
  seeds.flatten ++ bump :: program.bytes ++ asciiBytes "ProgramDerivedAddress"

/-- The address that one bump gives, unless it is a point of the curve. -/
def candidate? (seeds : List (List UInt8)) (program : Address) (bump : UInt8) : Option Address :=
  let digest := Sha256.digest (preimage seeds bump program)
  if Curve.isPoint digest then none else some ⟨digest, Sha256.length_digest _⟩

/-- The bumps in the order in which they are tried: every byte but zero. -/
def bumps : List UInt8 :=
  (List.range' 1 255).reverse.map UInt8.ofNat

/-- The **derived address** of an account under a program. -/
def address (program : Address) (account : Account) : Except DerivationError Address := do
  let seeds ← account.seeds
  match bumps.findSome? (candidate? seeds program) with
  | some a => .ok a
  | none => .error .noBump

end Account

end MarketRegistry
