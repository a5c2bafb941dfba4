import MarketRegistry.Address.Basic

/-!
# Programs

The addresses of the two programs that the exchange consists of.
-/

namespace MarketRegistry.Program

/-- The exchange. -/
def exchange : Address :=
  ⟨[9, 84, 219, 190, 158, 201, 96, 201, 138, 122, 41, 63, 226, 19, 54, 150,
    111, 225, 128, 209, 81, 174, 75, 129, 121, 86, 31, 137, 133, 74, 83, 246], rfl⟩

/-- The program of the tokens that are traded. -/
def token : Address :=
  ⟨[6, 221, 246, 225, 215, 101, 161, 147, 217, 203, 225, 70, 206, 235, 121, 172,
    28, 180, 133, 237, 95, 91, 55, 145, 58, 140, 245, 133, 126, 255, 0, 169], rfl⟩

theorem toText_exchange :
    exchange.toText = "dRiftyHA39MWEi3m9aunc5MzRF1JYuBsbn6VPcn33UH".toList := by
  decide +kernel

example : token.toText = "TokenkegQfeZyiNwAJbNbGKPFXCWuBvf9Ss623VQ5DA".toList := by
  decide +kernel

end MarketRegistry.Program
