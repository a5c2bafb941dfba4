import MarketRegistry.Address.Basic
import MarketRegistry.Slices

/-!
# Lookup tables

An address lookup table is an account whose data is a header of 56 bytes and then one address
after the other.

## Main definitions

* `LookupTable` — a key and addresses.
* `LookupTable.ofData` — the table in an account's data.
* `Connection`, `LookupTable.fetch` — the table of an account, asked for by its key.
-/

namespace MarketRegistry

/-- A **lookup table**: the key of its account, and addresses. -/
structure LookupTable where
  key : Address
  addresses : List Address
  deriving DecidableEq

namespace LookupTable

/-- The number of bytes before the first address. -/
def headerSize : Nat := 56

/-- The addresses in bytes, one after the other. A rest that is too short for an address is
dropped. -/
def addressesIn (data : List UInt8) : List Address :=
  (slices 32 data).attach.map fun s => ⟨s.val, length_of_mem_slices s.property⟩

/-- The **table in an account's data**. Data that ends within the header holds no address. -/
def ofData (key : Address) (data : List UInt8) : LookupTable :=
  ⟨key, addressesIn (data.drop headerSize)⟩

/-- The table without addresses, under the zero address. -/
def empty : LookupTable :=
  ⟨.zero, []⟩

end LookupTable

/-- A connection to the chain, as far as it matters here: the data of the accounts that
exist. -/
abbrev Connection := Address → Option (List UInt8)

/-- What came of asking for a table: the keys that were asked for, and the table, if its account
exists. -/
structure Fetched where
  requested : List Address
  table : Option LookupTable

/-- The lookup table of a key, with one request. An account may exist and hold no data. -/
def LookupTable.fetch (connection : Connection) (key : Address) : Fetched :=
  ⟨[key], (connection key).map (LookupTable.ofData key)⟩

end MarketRegistry
