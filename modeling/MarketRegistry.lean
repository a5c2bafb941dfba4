import MarketRegistry.WriteOnce.System
import MarketRegistry.Precision
import MarketRegistry.Registry
import MarketRegistry.Proofs.Address.Separation
import MarketRegistry.Proofs.Dump.Casing
import MarketRegistry.Proofs.Dump.Faithful
import MarketRegistry.Proofs.Dump.Occurrences
import MarketRegistry.Proofs.Dump.Shadowed
import MarketRegistry.Proofs.Format.KeyNames
import MarketRegistry.Proofs.LookupTable
import MarketRegistry.Proofs.Market.Faults
import MarketRegistry.Proofs.Market.Name
import MarketRegistry.Proofs.Market.WrittenKeys
import MarketRegistry.Proofs.Registry.Stages
import MarketRegistry.Proofs.WriteOnce.Calls
