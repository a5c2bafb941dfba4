import MarketRegistry.Dump.Normalized
import MarketRegistry.Bundled.Dumps
import MarketRegistry.LookupTable
import MarketRegistry.Market.Bundle

/-!
# The registry

The markets of the exchange on one network with their lookup table. A registry is built from
two dumps, spot before perp, and either as a whole or not at all. Building one leaves records
in the log, also when it fails.

## Main definitions

* `Registry` — the markets and the lookup table.
* `Registry.ofDumps`, `Registry.ofNetwork`, `Registry.load` — three ways to build one.
* `Registry.isInitialized`, `Registry.spotMarketAt?`, `Registry.perpMarketAt?` — questions.
* `Build`, `Registry.after` — a way to build a registry as data, and the registry that is current
  after it.
-/

namespace MarketRegistry

/-- The **registry** of markets. A market stands at the place of its index. -/
structure Registry where
  spotMarkets : List SpotMarket
  perpMarkets : List PerpMarket
  lookupTable : LookupTable
  deriving DecidableEq

/-- The markets in a dump: normalized first, then decoded. -/
def loadDump {α : Type} (kind : MarketKind α) (dump : List Char) : Logged Failure (List α) := do
  let text ← (normalize dump).mapError fun s => Failure.config (.unterminated s)
  decodeBundle kind text

namespace Registry

/-- The registry before any other: no markets, and the empty lookup table. -/
def empty : Registry :=
  ⟨[], [], .empty⟩

/-- A registry from **two dumps**. -/
def ofDumps (spot perp : List Char) (table : LookupTable) : Logged Failure Registry := do
  let spotMarkets ← loadDump .spot spot
  let perpMarkets ← loadDump .perp perp
  return ⟨spotMarkets, perpMarkets, table⟩

/-- A registry from the **bundled dumps** of a network. -/
def ofNetwork (context : Context) (table : LookupTable) : Logged Failure Registry := do
  let spot ← context.spotDump.mapError Failure.context
  let perp ← context.perpDump.mapError Failure.context
  let registry ← ofDumps spot perp table
  let env ← context.env.mapError Failure.context
  Logged.record (.loaded registry.spotMarkets.length registry.perpMarkets.length env)
  return registry

/-- A registry from the bundled dumps of a network and its **lookup table on the chain**. -/
def load (connection : Connection) (context : Context) : Logged Failure Registry := do
  let key ← context.lookupTable.mapError Failure.context
  match (LookupTable.fetch connection key).table with
  | some table => ofNetwork context table
  | none => Logged.ofExcept (.error (.lookupTableNotFound key))

/-! ### Questions -/

/-- Whether a registry is more than the one before any other. -/
def isInitialized (r : Registry) : Bool :=
  !(r.lookupTable.key == .zero && r.spotMarkets.isEmpty && r.perpMarkets.isEmpty)

/-- The element of a list at an integer place. -/
def at? {α : Type} (l : List α) (i : Int) : Option α :=
  if i < 0 then none else l[i.toNat]?

/-- The spot market with an index. -/
def spotMarketAt? (r : Registry) (index : Int) : Option SpotMarket :=
  at? r.spotMarkets index

/-- The perp market with an index. -/
def perpMarketAt? (r : Registry) (index : Int) : Option PerpMarket :=
  at? r.perpMarkets index

end Registry

/-! ### Builds -/

/-- A **way to build** a registry. -/
inductive Build where
  | empty
  | ofDumps (spot perp : List Char) (table : LookupTable)
  | ofNetwork (context : Context) (table : LookupTable)
  | load (connection : Connection) (context : Context)

/-- The registry that a build makes. -/
def Build.run : Build → Logged Failure Registry
  | empty => Logged.ofExcept (.ok Registry.empty)
  | ofDumps spot perp table => Registry.ofDumps spot perp table
  | ofNetwork context table => Registry.ofNetwork context table
  | load connection context => Registry.load connection context

/-- The **current registry after a build**: a build that fails changes nothing. -/
def Registry.after (current : Registry) (build : Build) : Registry :=
  match build.run.outcome with
  | .ok registry => registry
  | .error _ => current

end MarketRegistry
