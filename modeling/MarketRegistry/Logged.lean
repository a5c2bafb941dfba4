import MarketRegistry.Numeral

/-!
# Logged computations

Building a registry leaves a trail: records of what was read, which stay even when a later
step fails. A logged computation is its records together with its value or error.

## Main definitions

* `LogRecord` — what is worth a record, with its wording `LogRecord.line`.
* `Logged` — records and an outcome; `Logged.andThen` runs one computation after another.
-/

namespace MarketRegistry

/-- A record of the log. -/
inductive LogRecord where
  /-- A dump was normalized. -/
  | normalized (collapsed converted : Nat)
  /-- A registry was loaded for a network. -/
  | loaded (spotMarkets perpMarkets : Nat) (network : String)
  deriving DecidableEq, Repr

/-- The line of a record: its level and its text. -/
def LogRecord.line : LogRecord → String
  | normalized collapsed converted =>
    s!"DEBUG normalized market bundle: {collapsed} enum variants collapsed, " ++
      s!"{converted} literals reinterpreted"
  | loaded spotMarkets perpMarkets network =>
    s!"INFO loaded {spotMarkets} spot markets and {perpMarkets} perp markets for {network}"

/-- A **logged computation**: its records, oldest first, and its outcome. -/
structure Logged (ε α : Type) where
  log : List LogRecord
  outcome : Except ε α

namespace Logged

variable {ε α β : Type}

/-- An outcome without records. -/
def ofExcept (outcome : Except ε α) : Logged ε α :=
  ⟨[], outcome⟩

/-- A record on its own. -/
def record (r : LogRecord) : Logged ε Unit :=
  ⟨[r], .ok ()⟩

/-- One computation after another. A failure ends the computation and keeps the records. -/
def andThen (x : Logged ε α) (f : α → Logged ε β) : Logged ε β :=
  match x.outcome with
  | .error e => ⟨x.log, .error e⟩
  | .ok a => ⟨x.log ++ (f a).log, (f a).outcome⟩

/-- The same records with another error. -/
def mapError {ε' : Type} (f : ε → ε') (x : Logged ε α) : Logged ε' α :=
  ⟨x.log, x.outcome.mapError f⟩

instance : Monad (Logged ε) where
  pure a := ⟨[], .ok a⟩
  bind := andThen

instance : MonadLift (Except ε) (Logged ε) where
  monadLift := ofExcept

end Logged

end MarketRegistry
