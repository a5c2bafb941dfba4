import MarketRegistry.Address.Derivation
import MarketRegistry.Dump.Token
import MarketRegistry.Format.Fault
import MarketRegistry.Json.Nesting

/-!
# Failures

Why a registry, or a part of it, cannot be built. Each kind of failure has its own type, with
the wording in one function; `Failure` joins them.

## Main definitions

* `ConfigError` — a dump or a name is not what it should be.
* `ContextError` — a network is unknown.
* `Failure` — any failure of the library.
-/

namespace MarketRegistry

/-- The market configuration cannot be normalized or decoded. -/
inductive ConfigError where
  | unterminated (string : UnterminatedString)
  | notJson (error : ReadError)
  | notArray (got : Json)
  | located (error : DecodeError)
  | nameNotUtf8

/-- The wording of a configuration error. -/
def ConfigError.message : ConfigError → String
  | unterminated string =>
    "unterminated string literal at offset " ++ String.ofList (Numeral.decimal string.offset)
  | notJson .malformed => "market bundle is not valid json"
  | notJson (.constant c) =>
    "market bundle is not valid json: non-standard json constant " ++ c.text
  | notArray got => "market bundle must be an array, got " ++ got.kindName
  | located error => error.message
  | nameNotUtf8 => "name is not valid utf-8"

/-- A network, or the environment it is named by, is unknown. -/
inductive ContextError where
  | unknownEnv (env : String)
  | unknownContext (context : String)
  | noLookupTable (context : String)
  | noConfig (env : String)
  deriving DecidableEq, Repr

/-- The wording of a context error. -/
def ContextError.message : ContextError → String
  | unknownEnv env => "unknown drift env: " ++ env
  | unknownContext context => "unknown context: " ++ context
  | noLookupTable context => "no market lookup table for context: " ++ context
  | noConfig env => "no config for drift env: " ++ env

/-- Any **failure** of the library. -/
inductive Failure where
  | config (error : ConfigError)
  | context (error : ContextError)
  | derivation (error : DerivationError)
  | lookupTableNotFound (key : Address)
  | nameTooLong
  | tooDeep (container : Container)

/-- The wording of a failure. -/
def Failure.message : Failure → String
  | config error => error.message
  | context error => error.message
  | derivation error => error.message
  | lookupTableNotFound key =>
    "market lookup table " ++ String.ofList key.toText ++ " not found"
  | nameTooLong => "name too long"
  | tooDeep container =>
    "maximum recursion depth exceeded while decoding a JSON " ++ container.name ++
      " from a unicode string"

end MarketRegistry
