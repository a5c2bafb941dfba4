import MarketRegistry.Bundled.DevnetPerp
import MarketRegistry.Bundled.DevnetSpot
import MarketRegistry.Bundled.MainnetPerp
import MarketRegistry.Bundled.MainnetSpot
import MarketRegistry.Network

/-!
# The bundled dumps

Dumps of the market accounts of both networks come with the library.

## Main definitions

* `Network.spotDump`, `Network.perpDump` — the dumps of a network.
* `Context.spotDump`, `Context.perpDump` — the dumps that a context asks for.
-/

namespace MarketRegistry

/-- Lines as one text. Only the last line has no line feed after it. -/
def joinLines (lines : List String) : List Char :=
  ['\n'].intercalate (lines.map String.toList)

/-- The dump of a network's spot markets. -/
def Network.spotDump : Network → List Char
  | devNet => joinLines Bundled.devnetSpotLines
  | mainNet => joinLines Bundled.mainnetSpotLines

/-- The dump of a network's perp markets. -/
def Network.perpDump : Network → List Char
  | devNet => joinLines Bundled.devnetPerpLines
  | mainNet => joinLines Bundled.mainnetPerpLines

/-- The dump of the spot markets of a context. -/
def Context.spotDump : Context → Except ContextError (List Char)
  | network n => .ok n.spotDump
  | text s => .error (.unknownContext s)

/-- The dump of the perp markets of a context. -/
def Context.perpDump : Context → Except ContextError (List Char)
  | network n => .ok n.perpDump
  | text s => .error (.unknownContext s)

end MarketRegistry
