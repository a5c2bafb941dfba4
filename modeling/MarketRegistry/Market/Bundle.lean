import MarketRegistry.Market.Format
import MarketRegistry.Program

/-!
# Market bundles

A normalized bundle is a json array with one wrapper for each market. A wrapper holds the
account of the market and may hold its public key. The place of a wrapper in the array is the
index of its market; without a public key, the address is derived from the index.

A text that is no json is reported as such, with one exception: containers nested too deep for
the stack of calls end the reading with a failure that is none of the configuration.

## Main definitions

* `MarketKind` — what tells spot and perp markets apart.
* `decodeWrapper` — one market at its index.
* `decodeBundleWithin` — all markets of a bundle, with a limit for the nesting of its text.
* `decodeBundle` — the same with the limit of a call from the outermost level.
-/

namespace MarketRegistry

/-- What a bundle of one **kind of markets** holds: records with a name for messages, a format
once index and address are known, and an account from which the address is derived. -/
structure MarketKind (α : Type) where
  recordName : String
  format : Int → Address → Format α
  account : Int → Account

/-- Spot markets. -/
def MarketKind.spot : MarketKind SpotMarket where
  recordName := "SpotMarketAccount"
  format index key := SpotMarket.format (some index) (some (some key))
  account := .spotMarket

/-- Perp markets. -/
def MarketKind.perp : MarketKind PerpMarket where
  recordName := "PerpMarketAccount"
  format index key := PerpMarket.format (some index) (some (some key))
  account := .perpMarket

/-- The key of a wrapper that holds the account. -/
def accountKey : Text := Text.ofString "account"

/-- The key of a wrapper that holds the public key. -/
def publicKeyKey : Text := Text.ofString "publicKey"

/-- A decoding as part of the library's failures. -/
def located {α : Type} (r : Except DecodeError α) : Except Failure α :=
  r.mapError fun e => .config (.located e)

variable {α : Type}

/-- Where the market with an index stands in messages. -/
def MarketKind.path (kind : MarketKind α) (index : Nat) : Path :=
  .index (.root kind.recordName) index

/-- The address of a market: what its wrapper says, and otherwise the derived one. -/
def marketAddress (kind : MarketKind α) (index : Nat) (members : List (Text × Json)) :
    Except Failure Address :=
  match Json.member? publicKeyKey members with
  | some j => located (decodeAddress ((kind.path index).field "pubkey") j)
  | none => ((kind.account index).address Program.exchange).mapError .derivation

/-- The account in a wrapper and all its members, when it has no other keys than it may. -/
def wrapperParts (path : Path) : Json → Except DecodeError (Json × List (Text × Json))
  | .object members =>
    match Json.member? accountKey members with
    | none => .error ⟨path, .notWrapper⟩
    | some account =>
      match (Json.keys members).filter fun k => k != accountKey && k != publicKeyKey with
      | [] => .ok (account, members)
      | k :: ks => .error ⟨path, .unknownWrapperFields (Text.sorted (k :: ks))⟩
  | _ => .error ⟨path, .notWrapper⟩

/-- The **market in a wrapper** at an index. -/
def decodeWrapper (kind : MarketKind α) (index : Nat) (wrapper : Json) : Except Failure α := do
  let path := kind.path index
  let (account, members) ← located (wrapperParts path wrapper)
  let key ← marketAddress kind index members
  located ((kind.format index key).decode path account)

/-- The markets in wrappers, the first of which is at an index. -/
def decodeWrappers (kind : MarketKind α) : Nat → List Json → Except Failure (List α)
  | _, [] => .ok []
  | index, wrapper :: wrappers => do
    let market ← decodeWrapper kind index wrapper
    let markets ← decodeWrappers kind (index + 1) wrappers
    return market :: markets

/-- The failure of a bundle whose text is not read. -/
def unread : LimitedError → Failure
  | .unreadable e => .config (.notJson e)
  | .tooDeep container => .tooDeep container

/-- The **markets of a bundle**, given as normalized text, when at most `limit` containers may be
open at once. -/
def decodeBundleWithin (limit : Nat) (kind : MarketKind α) (text : List Char) :
    Except Failure (List α) := do
  match ← (Json.parseWithin limit text).mapError unread with
  | .array wrappers => decodeWrappers kind 0 wrappers
  | j => .error (.config (.notArray j))

/-- The markets of a bundle that is decoded at the outermost level. -/
def decodeBundle (kind : MarketKind α) (text : List Char) : Except Failure (List α) :=
  decodeBundleWithin Json.nestingLimit kind text

end MarketRegistry
