import MarketRegistry.LookupTable
import MarketRegistry.Proofs.Numerals

/-!
# Lookup tables are read without loss

The addresses of a lookup table are read at offsets that start behind the header and advance by
the size of an address, as long as the offset is below a bound. The bound is what decides whether
the last slice is full; it is negative when the data is short. Slice by slice, this reading gives
the complete slices of what follows the header, so it never meets a slice that is too short to be
an address.

## Main definitions

* `LookupTable.offsetsBelow`, `LookupTable.sliceAt` — where addresses are read, and what is read
  there.
* `LookupTable.read?` — the table read slice by slice, which fails at a slice that is no address.
* `LookupTable.HeldIn` — a table and the data that it is held in.

## Main results

* `exists_flatten_slices`, `slices_flatten_append` — slices lose nothing but a short rest.
* `LookupTable.map_sliceAt` — the slices at the offsets are those of what follows the header.
* `LookupTable.tables_read_without_loss` — reading succeeds, and gives what is held.
-/

namespace MarketRegistry

/-! ### Slices -/

section Slices

variable {α : Type} {n : Nat} {l s rest : List α} {ss : List (List α)}

/-- There is no slice in too short a list. -/
theorem slices_of_length_lt (h : l.length < n) : slices n l = [] := by
  rw [slices, if_pos (.inr h)]

/-- A full slice in front comes first. -/
theorem slices_append (hn : 0 < n) (hs : s.length = n) :
    slices n (s ++ l) = s :: slices n l := by
  have hlong : ¬(n = 0 ∨ (s ++ l).length < n) := by
    rw [List.length_append]
    omega
  rw [slices, if_neg hlong, List.take_left' hs, List.drop_left' hs]

/-- **Full slices** that are joined are found again. -/
theorem slices_flatten_append (hn : 0 < n) (hss : ∀ s ∈ ss, s.length = n) (rest : List α) :
    slices n (ss.flatten ++ rest) = ss ++ slices n rest := by
  induction ss with
  | nil => rfl
  | cons s ss ih =>
      obtain ⟨hs, hss⟩ := List.forall_mem_cons.mp hss
      rw [List.flatten_cons, List.append_assoc, slices_append hn hs, ih hss, List.cons_append]

/-- **Slices lose nothing** but a rest that is shorter than they are. -/
theorem exists_flatten_slices (hn : 0 < n) (l : List α) :
    ∃ rest, (slices n l).flatten ++ rest = l ∧ rest.length < n := by
  fun_induction slices n l with
  | case1 l h => exact ⟨l, rfl, by omega⟩
  | case2 l h ih =>
      obtain ⟨rest, hl, hrest⟩ := ih
      refine ⟨rest, ?_, hrest⟩
      rw [List.flatten_cons, List.append_assoc, hl, List.take_append_drop]

theorem length_flatten_of_mem (hss : ∀ s ∈ ss, s.length = n) :
    ss.flatten.length = n * ss.length := by
  rw [List.length_flatten, List.map_congr_left hss, List.map_const', List.sum_replicate_nat,
    Nat.mul_comm]

theorem length_slices (hn : 0 < n) (l : List α) : (slices n l).length = l.length / n := by
  obtain ⟨rest, hl, hrest⟩ := exists_flatten_slices hn l
  have hlength := congrArg List.length hl
  rw [List.length_append, length_flatten_of_mem fun s => length_of_mem_slices] at hlength
  rw [← hlength, Nat.mul_add_div hn, Nat.div_eq_of_lt hrest, Nat.add_zero]

theorem flatten_slices (hn : 0 < n) (l : List α) :
    (slices n l).flatten = l.take (n * (slices n l).length) := by
  obtain ⟨rest, hl, -⟩ := exists_flatten_slices hn l
  rw [← length_flatten_of_mem fun s => length_of_mem_slices, ← List.prefix_iff_eq_take]
  exact ⟨rest, hl⟩

end Slices

namespace LookupTable

variable {as : List Address} {data header tail : List UInt8} {i m : Nat}

/-! ### Reading slice by slice -/

/-- The **offsets** at which addresses are read: from one on in steps of 32, below a bound. -/
def offsetsBelow (bound : Int) (i : Nat) : List Nat :=
  if (i : Int) < bound then i :: offsetsBelow bound (i + 32) else []
termination_by (bound - i).toNat

/-- The bytes that are read at an offset: 32, or what is left of the data. -/
def sliceAt (data : List UInt8) (i : Nat) : List UInt8 :=
  (data.drop i).take 32

/-- The offsets in data of some length. The last one is followed by at least 31 bytes. -/
def offsets (data : List UInt8) : List Nat :=
  offsetsBelow (data.length - 31) headerSize

/-- The **table read slice by slice**. Reading fails at a slice that is no address. -/
def read? (key : Address) (data : List UInt8) : Option LookupTable :=
  ((offsets data).mapM fun i => Address.ofBytes? (sliceAt data i)).map fun as => ⟨key, as⟩

/-- **What is read at the offsets** are the slices of the data from the first one on. -/
theorem map_sliceAt (data : List UInt8) (i : Nat) :
    (offsetsBelow (data.length - 31) i).map (sliceAt data) = slices 32 (data.drop i) := by
  induction hk : data.length - i using Nat.strongRecOn generalizing i with
  | _ k ih =>
    rw [offsetsBelow]
    split
    · rename_i hi
      have hfull : ((data.drop i).take 32).length = 32 := by
        rw [List.length_take, List.length_drop]
        omega
      rw [List.map_cons, ih (data.length - (i + 32)) (by omega) (i + 32) rfl, sliceAt,
        ← List.drop_drop]
      conv_rhs => rw [← List.take_append_drop 32 (data.drop i)]
      rw [slices_append (by decide) hfull]
    · rename_i hi
      rw [List.map_nil, slices_of_length_lt]
      rw [List.length_drop]
      omega

/-- **Every slice** that is read has 32 bytes. -/
theorem length_sliceAt (h : i ∈ offsets data) : (sliceAt data i).length = 32 := by
  refine length_of_mem_slices (l := data.drop headerSize) ?_
  rw [← map_sliceAt]
  exact List.mem_map_of_mem h

/-! ### The addresses that are read -/

theorem map_bytes_addressesIn (data : List UInt8) :
    (addressesIn data).map Address.bytes = slices 32 data := by
  rw [addressesIn, List.map_map]
  exact List.attach_map_subtype_val _

theorem bytes_injective : Function.Injective Address.bytes := by
  rintro ⟨bs, hbs⟩ ⟨bs', hbs'⟩ rfl
  rfl

/-- **The addresses of data** are those with the slices for bytes. -/
theorem addressesIn_eq_iff : addressesIn data = as ↔ slices 32 data = as.map Address.bytes := by
  rw [← map_bytes_addressesIn, (List.map_injective_iff.mpr bytes_injective).eq_iff]

theorem mapM_ofBytes? (as : List Address) :
    (as.map Address.bytes).mapM Address.ofBytes? = some as := by
  rw [mapM_eq_some_iff, List.forall₂_map_left_iff, List.forall₂_same]
  exact fun a _ => a.ofBytes?_bytes

/-- **Reading slice by slice succeeds**, with the table in the data. -/
theorem read?_eq_some (key : Address) (data : List UInt8) :
    read? key data = some (ofData key data) := by
  have hread : (offsets data).mapM (fun i => Address.ofBytes? (sliceAt data i)) =
      some (addressesIn (data.drop headerSize)) := by
    rw [← mapM_ofBytes?, map_bytes_addressesIn, ← map_sliceAt, List.mapM_map]
    rfl
  rw [read?, hread]
  rfl

/-! ### What is held in data -/

/-- A table that is **held in data**, and how it is read there. -/
structure HeldIn (table : LookupTable) (key : Address) (data : List UInt8) : Prop where
  key_eq : table.key = key
  /-- There is an address for each 32 bytes behind the header, if that is complete. -/
  length : table.addresses.length = if data.length < 56 then 0 else (data.length - 56) / 32
  /-- The addresses are the bytes behind the header, one after another. -/
  bytes : table.addresses.flatMap Address.bytes =
    (data.drop 56).take (32 * table.addresses.length)
  /-- The addresses are read at the offsets, one at each. -/
  slices : table.addresses.map Address.bytes = (offsets data).map (sliceAt data)
  /-- Nothing short is read. -/
  full : ∀ i ∈ offsets data, (sliceAt data i).length = 32

theorem heldIn_ofData (key : Address) (data : List UInt8) : (ofData key data).HeldIn key data where
  key_eq := rfl
  length := by
    have hslices : (ofData key data).addresses.length = (data.length - 56) / 32 := by
      rw [← List.length_map, ofData, map_bytes_addressesIn, length_slices (by decide),
        List.length_drop]
      rfl
    rw [hslices]
    split <;> omega
  bytes := by
    rw [List.flatMap_def, ← List.length_map Address.bytes, ofData,
      map_bytes_addressesIn, flatten_slices (by decide)]
    rfl
  slices := by rw [offsets, map_sliceAt, ofData, map_bytes_addressesIn]
  full := fun i => length_sliceAt

/-- **Addresses behind a header** are found there, whatever short rest follows. -/
theorem ofData_append (key : Address) (as : List Address) (hheader : header.length = 56)
    (htail : tail.length < 32) :
    ofData key (header ++ as.flatMap Address.bytes ++ tail) = ⟨key, as⟩ := by
  have hfull : ∀ s ∈ as.map Address.bytes, s.length = 32 :=
    List.forall_mem_map.mpr fun a _ => a.length_bytes
  have haddresses : addressesIn (as.flatMap Address.bytes ++ tail) = as := by
    rw [addressesIn_eq_iff, List.flatMap_def, slices_flatten_append (by decide) hfull,
      slices_of_length_lt htail, List.append_nil]
  rw [ofData, headerSize, List.append_assoc, List.drop_left' hheader, haddresses]

/-- Data that ends with an address splits into a header and addresses. -/
theorem exists_of_length (h : data.length = 56 + 32 * m) :
    ∃ (header : List UInt8) (as : List Address),
      header.length = 56 ∧ data = header ++ as.flatMap Address.bytes := by
  obtain ⟨rest, hrest, hshort⟩ := exists_flatten_slices (by decide : 0 < 32) (data.drop 56)
  have hlength := congrArg List.length hrest
  rw [List.length_append, length_flatten_of_mem fun s => length_of_mem_slices, List.length_drop]
    at hlength
  obtain rfl : rest = [] := List.eq_nil_of_length_eq_zero (by omega)
  refine ⟨data.take 56, addressesIn (data.drop 56), by rw [List.length_take]; omega, ?_⟩
  rw [List.flatMap_def, map_bytes_addressesIn, ← List.append_nil (slices _ _).flatten,
    hrest, List.take_append_drop]

/-- **Tables are read without loss.** Reading the addresses slice by slice succeeds for any data:
every slice is full, and the table has the given key and the addresses that the bytes behind the
header hold, as many as are complete. So a header, addresses and a short rest are read as just
these addresses, and 32 bytes more behind complete addresses are one address more. -/
theorem tables_read_without_loss (key : Address) :
    (∀ data, read? key data = some (ofData key data) ∧ (ofData key data).HeldIn key data) ∧
      (∀ header as tail, header.length = 56 → tail.length < 32 →
        read? key (header ++ as.flatMap Address.bytes ++ tail) = some ⟨key, as⟩) ∧
      ∀ data m a, data.length = 56 + 32 * m →
        read? key (data ++ a.bytes) = some ⟨key, (ofData key data).addresses ++ [a]⟩ := by
  refine ⟨fun data => ⟨read?_eq_some key data, heldIn_ofData key data⟩, ?_, ?_⟩
  · intro header as tail hheader htail
    rw [read?_eq_some, ofData_append key as hheader htail]
  · intro data m a hdata
    obtain ⟨header, as, hheader, rfl⟩ := exists_of_length hdata
    have hshort : ([] : List UInt8).length < 32 := by decide
    have hbefore := ofData_append key as hheader hshort
    have hafter := ofData_append key (as ++ [a]) hheader hshort
    rw [List.append_nil] at hbefore hafter
    rw [List.flatMap_append, List.flatMap_singleton, ← List.append_assoc] at hafter
    rw [read?_eq_some, hbefore, hafter]

/-- Data that ends one byte before the end of its second address holds one. -/
example : (ofData .zero (List.replicate 119 7)).addresses =
    [⟨List.replicate 32 7, by decide⟩] := by decide +kernel

end LookupTable

end MarketRegistry
