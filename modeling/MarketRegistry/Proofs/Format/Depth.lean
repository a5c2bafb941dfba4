import MarketRegistry.Proofs.Format.Exact
import MarketRegistry.Proofs.Json.Nesting

/-!
# The depth of formats

A format bounds how deep the containers of a written value are nested, whatever the value, and so
it does for every variation of the written form.

## Main definitions

* `Format.depth` — how deep the values of a format may be nested.

## Main results

* `Format.depth_le_of_alike` — no variation of a written form is nested deeper.
-/

namespace MarketRegistry

mutual

/-- **How deep** the values of a format may be nested. -/
def Format.depth : {α : Type} → Format α → Nat
  | _, .int | _, .bool | _, .variant _ | _, .unsupported _ => 0
  | _, .bytes | _, .buffer _ | _, .address => 1
  | _, .optional format => format.depth
  | _, .record fields _ => fields.depth + 1

/-- How deep the values of fields may be nested. -/
def Fields.depth : {α : Type} → Fields α → Nat
  | _, .nil => 0
  | _, .read _ format _ rest => max format.depth rest.depth
  | _, .given _ _ rest => rest.depth

end

theorem Fields.depth_readUnless_le {α β : Type} {name : String} {value : Option α}
    {format : Format α} {default : Option α} {rest : Fields β} :
    (Fields.readUnless name value format default rest).depth ≤ max format.depth rest.depth := by
  cases value with
  | none => exact Nat.le_refl _
  | some v => exact Nat.le_max_right _ _

theorem Json.depth_ofBytes_le (bytes : List UInt8) :
    (Json.array (Json.ofBytes bytes)).depth ≤ 1 := by
  refine Nat.succ_le_succ (Json.depthItems_le_iff.mpr fun j hj => ?_)
  obtain ⟨b, -, rfl⟩ := List.mem_map.mp hj
  exact Nat.le_refl _

mutual

/-- **A variation of a written form** is nested no deeper than its format. -/
theorem Format.depth_le_of_alike {α : Type} (format : Format α) (hwf : format.WellFormed)
    (a : α) {o : Json} (h : format.Alike (format.encode a) o) : o.depth ≤ format.depth := by
  match format, a with
  | .int, _ | .bool, _ =>
      obtain rfl := h
      exact Nat.le_refl _
  | .bytes, _ | .buffer _, _ | .address, _ =>
      obtain rfl := h
      exact Json.depth_ofBytes_le _
  | .optional format, none =>
      obtain rfl : o = .null := by
        rcases h with ⟨-, rfl⟩ | h
        · rfl
        · exact format.eq_null_of_alike hwf.2 h
      exact Nat.zero_le _
  | .optional format, some a =>
      rcases h with ⟨-, rfl⟩ | h
      · exact Nat.zero_le _
      · exact format.depth_le_of_alike hwf.1 a h
  | .variant e, a =>
      obtain ⟨c, d, cs, -, rfl, -⟩ := h
      exact Nat.le_refl _
  | .record fields shape, a =>
      obtain ⟨ms, os, os', hencode, rfl, hperm, hfields⟩ := h
      obtain rfl := Json.object.inj hencode
      refine Nat.succ_le_succ (Json.depthMembers_le_iff.mpr fun m hm => ?_)
      exact fields.depth_le_of_alike hwf.1 _ hfields m (hperm.mem_iff.mpr hm)

/-- Variations of written members are nested no deeper than the fields. -/
theorem Fields.depth_le_of_alike {α : Type} (fields : Fields α) (hwf : fields.WellFormed) (a : α)
    {os : List (Text × Json)} (h : fields.Alike (fields.encode a) os) :
    ∀ m ∈ os, m.2.depth ≤ fields.depth := by
  match fields, a with
  | .nil, () =>
      obtain ⟨-, rfl⟩ := h
      exact nofun
  | .read name format default rest, (a, b) =>
      obtain ⟨-, hformat, -, hrest⟩ := hwf
      obtain ⟨k, v, ms', hms, hmember⟩ := h
      cases hms
      have hlater : ∀ os, rest.Alike (rest.encode b) os →
          ∀ m ∈ os, m.2.depth ≤ max format.depth rest.depth := fun os hos m hm =>
        (rest.depth_le_of_alike hrest b hos m hm).trans (Nat.le_max_right _ _)
      rcases hmember with ⟨o, os', rfl, hvalue, hos'⟩ | ⟨-, hos⟩
      · have hfirst := format.depth_le_of_alike hformat a hvalue
        exact List.forall_mem_cons.mpr
          ⟨hfirst.trans (Nat.le_max_left _ _), hlater os' hos'⟩
      · exact hlater os hos
  | .given name value rest, (a, b) => exact rest.depth_le_of_alike hwf b h

end

end MarketRegistry
