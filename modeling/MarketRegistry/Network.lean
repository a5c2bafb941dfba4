import MarketRegistry.Failure

/-!
# Networks

The two networks of the exchange and how to reach them. Callers name a network by a context,
which may turn out to be no network, or by the name of its environment.

## Main definitions

* `Network`, `Context` — a network, and what a caller gives for one.
* `NetworkConfig`, `Network.config` — the endpoints and the lookup table of a network.
* `NetworkConfig.resolve` — the configuration that a caller and the environment ask for.
-/

namespace MarketRegistry

/-- The **networks** of the exchange. -/
inductive Network where
  | devNet
  | mainNet
  deriving DecidableEq, Repr

namespace Network

/-- The name of a network as a context. -/
def label : Network → String
  | devNet => "DevNet"
  | mainNet => "MainNet"

/-- The name of a network's environment. -/
def env : Network → String
  | devNet => "devnet"
  | mainNet => "mainnet"

/-- The network of an environment. -/
def ofEnv? (env : String) : Option Network :=
  [devNet, mainNet].find? fun n => n.env == env

/-- The network of an environment, or the error that there is none. -/
def ofEnv (env : String) : Except ContextError Network :=
  match ofEnv? env with
  | some n => .ok n
  | none => .error (.unknownEnv env)

end Network

/-- What a caller gives for a network: a network, or a text that is none. -/
inductive Context where
  | network (n : Network)
  | text (s : String)
  deriving DecidableEq, Repr

namespace Context

/-- The class of a context: the label of its network, and one class for all texts. -/
def className : Context → String
  | network n => n.label
  | text _ => "str"

/-- Whether a context is of a class. -/
def isVariant (c : Context) (name : String) : Bool :=
  name == c.className

/-- The environment of a context. -/
def env : Context → Except ContextError String
  | network n => .ok n.env
  | text s => .error (.unknownContext s)

end Context

/-! ### Configurations -/

/-- How to reach a network. -/
structure NetworkConfig where
  network : Network
  http : String
  websocket : String
  lookupTable : Address
  deriving DecidableEq

/-- The default configuration of a network. -/
def Network.config : Network → NetworkConfig
  | devNet =>
    { network := devNet
      http := "https://api.devnet.solana.com"
      websocket := "wss://api.devnet.solana.com"
      lookupTable :=
        ⟨[216, 142, 226, 205, 21, 174, 253, 206, 17, 125, 51, 82, 64, 243, 126, 87,
          145, 141, 101, 76, 91, 168, 34, 183, 125, 215, 70, 144, 128, 85, 212, 196], rfl⟩ }
  | mainNet =>
    { network := mainNet
      http := "https://api.mainnet-beta.solana.com"
      websocket := "wss://api.mainnet-beta.solana.com"
      lookupTable :=
        ⟨[180, 129, 92, 17, 5, 189, 205, 5, 149, 17, 22, 31, 230, 73, 16, 238,
          206, 66, 225, 35, 188, 61, 24, 151, 189, 45, 44, 158, 231, 141, 200, 77], rfl⟩ }

/-- The lookup tables by their texts. -/
example : Network.devNet.config.lookupTable.toText =
      "FaMS3U4uBojvGn5FSDEPimddcXsCfwkKsFgMVVnDdxGb".toList ∧
    Network.mainNet.config.lookupTable.toText =
      "D9cnvzswDikQDf53k4HpQ3KJ9y1Fv3HGGDFYMXnK5T6c".toList := by
  decide +kernel

/-- The market lookup table of a context. -/
def Context.lookupTable : Context → Except ContextError Address
  | network n => .ok n.config.lookupTable
  | text s => .error (.noLookupTable s)

/-- The settings of the environment that are heeded: the name of the default network's
environment, and an endpoint. -/
structure Settings where
  driftEnv : Option String
  rpcUrl : Option String

/-- A text that is given and not empty. -/
def nonEmpty? (s : Option String) : Option String :=
  s.filter fun s => s != ""

/-- The name of the environment to use: the caller's, unless it is empty; then that of the
settings, even if empty; then the main network's. -/
def Settings.envName (settings : Settings) (env : Option String) : String :=
  match nonEmpty? env with
  | some e => e
  | none => settings.driftEnv.getD Network.mainNet.env

/-- The **configuration** that a caller and the settings ask for. An endpoint of the settings
that is not empty takes the place of the default one. -/
def NetworkConfig.resolve (settings : Settings) (env : Option String) :
    Except ContextError NetworkConfig :=
  let name := settings.envName env
  match Network.ofEnv? name with
  | none => .error (.noConfig name)
  | some n =>
    match nonEmpty? settings.rpcUrl with
    | some url => .ok { n.config with http := url }
    | none => .ok n.config

end MarketRegistry
