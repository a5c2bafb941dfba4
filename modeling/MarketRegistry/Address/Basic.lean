import MarketRegistry.Address.Base58

/-!
# Addresses

An address names an account: 32 bytes, written in base 58.

## Main definitions

* `Address` — 32 bytes.
* `Address.toText`, `Address.ofText?` — its base 58 text and back.
-/

namespace MarketRegistry

/-- An **address**: 32 bytes. -/
structure Address where
  bytes : List UInt8
  length_bytes : bytes.length = 32
  deriving DecidableEq

namespace Address

/-- The address of 32 bytes. -/
def ofBytes? (bytes : List UInt8) : Option Address :=
  if h : bytes.length = 32 then some ⟨bytes, h⟩ else none

/-- The address whose bytes are all zero. -/
def zero : Address :=
  ⟨List.replicate 32 0, by rw [List.length_replicate]⟩

/-- The base 58 text of an address. -/
def toText (a : Address) : List Char :=
  Base58.encode a.bytes

/-- The address that a base 58 text writes. -/
def ofText? (cs : List Char) : Option Address :=
  (Base58.decode? cs).bind ofBytes?

instance : ToString Address :=
  ⟨fun a => String.ofList a.toText⟩

theorem ofBytes?_bytes (a : Address) : ofBytes? a.bytes = some a :=
  dif_pos a.length_bytes

theorem ofBytes?_eq_some {bs : List UInt8} {a : Address} (h : ofBytes? bs = some a) :
    a.bytes = bs := by
  unfold ofBytes? at h
  split at h
  · exact (Option.some.inj h) ▸ rfl
  · simp at h

end Address

end MarketRegistry
