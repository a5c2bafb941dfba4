import MarketRegistry.Proofs.Format.Exact

/-!
# Faults are located

A fault that decoding reports stands in the value that is decoded: its path goes through the
path of the value, so that the message begins with the text of that path.

## Main definitions

* `Path.Within` — a path that goes through another.
* `FailsWithin` — a decoding whose faults stand within a path.

## Main results

* `Path.Within.exists_text` — the text of a path begins with the text of what it goes through.
* `Format.decode_failsWithin`, `Fields.decode_failsWithin` — every format keeps to its path.
-/

namespace MarketRegistry

variable {α β : Type} {path path' : Path}

/-- A path **within** another: it goes on from there through fields and indexes. -/
inductive Path.Within (path : Path) : Path → Prop where
  | refl : path.Within path
  | field {path' : Path} (h : path.Within path') (name : String) : path.Within (path'.field name)
  | index {path' : Path} (h : path.Within path') (i : Nat) : path.Within (path'.index i)

theorem Path.Within.trans {path'' : Path} (h : path.Within path') (h' : path'.Within path'') :
    path.Within path'' := by
  induction h' with
  | refl => exact h
  | field _ name ih => exact ih.field name
  | index _ i ih => exact ih.index i

/-- **The text of a path** begins with that of any path that it goes through. -/
theorem Path.Within.exists_text (h : path.Within path') :
    ∃ rest, path'.text = path.text ++ rest := by
  induction h with
  | refl => exact ⟨"", String.append_empty.symm⟩
  | field _ name ih =>
      obtain ⟨rest, hrest⟩ := ih
      refine ⟨rest ++ "." ++ name, ?_⟩
      rw [text, hrest, String.append_assoc, String.append_assoc, String.append_assoc]
  | index _ i ih =>
      obtain ⟨rest, hrest⟩ := ih
      refine ⟨rest ++ "[" ++ String.ofList (Numeral.decimal i) ++ "]", ?_⟩
      rw [text, hrest]
      simp only [String.append_assoc]

/-! ### Decodings that keep to a path -/

/-- A decoding **fails within** a path: whatever fault it reports stands there. -/
def FailsWithin (path : Path) (x : Except DecodeError α) : Prop :=
  ∀ e, x = .error e → path.Within e.path

namespace FailsWithin

theorem ok (a : α) : FailsWithin path (.ok a) := nofun

theorem error (fault : Fault) : FailsWithin path (.error ⟨path, fault⟩ : Except DecodeError α) := by
  rintro e ⟨⟩
  exact .refl

theorem bind {x : Except DecodeError α} {f : α → Except DecodeError β} (hx : FailsWithin path x)
    (hf : ∀ a, FailsWithin path (f a)) : FailsWithin path (x >>= f) := by
  intro e he
  rcases bind_eq_error_iff.mp he with he | ⟨a, -, he⟩
  · exact hx e he
  · exact hf a e he

/-- What stands within a path stands within every path that it goes through. -/
theorem of_within {x : Except DecodeError α} (hx : FailsWithin path' x)
    (h : path.Within path') : FailsWithin path x :=
  fun e he => h.trans (hx e he)

end FailsWithin

/-! ### Plain values -/

theorem decodeInt_failsWithin (path : Path) (j : Json) : FailsWithin path (decodeInt path j) := by
  unfold decodeInt
  split
  · exact .ok _
  · exact .error _

theorem decodeBool_failsWithin (path : Path) (j : Json) :
    FailsWithin path (decodeBool path j) := by
  unfold decodeBool
  split
  · exact .ok _
  · exact .error _

theorem decodeInts_failsWithin (path : Path) (i : Nat) (js : List Json) :
    FailsWithin path (decodeInts path i js) := by
  induction js generalizing i with
  | nil => exact .ok _
  | cons j js ih =>
      refine .bind ((decodeInt_failsWithin _ j).of_within (.index .refl i)) fun n => ?_
      exact .bind (ih (i + 1)) fun ns => .ok _

theorem decodeBytes_failsWithin (path : Path) (j : Json) :
    FailsWithin path (decodeBytes path j) := by
  unfold decodeBytes
  split
  · refine .bind (decodeInts_failsWithin path 0 _) fun ns => ?_
    split
    · exact .ok _
    · exact .error _
  · exact .error _

theorem decodeBuffer_failsWithin (n : Nat) (path : Path) (j : Json) :
    FailsWithin path (decodeBuffer n path j) := by
  refine .bind (decodeBytes_failsWithin path j) fun bytes => ?_
  split
  · exact .ok _
  · exact .error _

theorem decodeAddress_failsWithin (path : Path) (j : Json) :
    FailsWithin path (decodeAddress path j) := by
  refine .bind (decodeBytes_failsWithin path j) fun bytes => ?_
  split
  · exact .ok _
  · exact .error _

theorem decodeVariant_failsWithin (e : Enumeration α) (path : Path) (j : Json) :
    FailsWithin path (decodeVariant e path j) := by
  unfold decodeVariant
  split
  · split
    · exact .error _
    · split
      · exact .ok _
      · exact .error _
  · exact .error _

/-! ### Records -/

theorem fieldMembers_failsWithin (names : List String) (path : Path) (j : Json) :
    FailsWithin path (fieldMembers names path j) := by
  unfold fieldMembers
  split
  · split
    · exact .error _
    · split
      · exact .ok _
      · exact .error _
  · exact .error _

mutual

/-- **Every format keeps to the path** of the value that it decodes. -/
theorem Format.decode_failsWithin {α : Type} (format : Format α) (path : Path) (j : Json) :
    FailsWithin path (format.decode path j) := by
  match format, j with
  | .int, j => exact decodeInt_failsWithin path j
  | .bool, j => exact decodeBool_failsWithin path j
  | .bytes, j => exact decodeBytes_failsWithin path j
  | .buffer n, j => exact decodeBuffer_failsWithin n path j
  | .address, j => exact decodeAddress_failsWithin path j
  | .optional format, j =>
      by_cases hj : j = .null
      · rw [hj]
        exact .ok none
      · rw [format.decode_optional path hj]
        exact .bind (format.decode_failsWithin path j) fun a => .ok _
  | .variant e, j => exact decodeVariant_failsWithin e path j
  | .record fields shape, j =>
      refine .bind (fieldMembers_failsWithin fields.names path j) fun members => ?_
      exact .bind (fields.decode_failsWithin path members) fun values => .ok _
  | .unsupported name, j => exact .error _

/-- The fields of a record keep to the path of the record. -/
theorem Fields.decode_failsWithin {α : Type} (fields : Fields α) (path : Path)
    (members : List (List Char × Json)) : FailsWithin path (fields.decode path members) := by
  match fields with
  | .nil => exact .ok ()
  | .read name format default rest =>
      have hrest := rest.decode_failsWithin path members
      simp only [Fields.decode]
      split
      · refine .bind ?_ fun value => .bind hrest fun values => .ok _
        exact (format.decode_failsWithin (path.field name) _).of_within (.field .refl name)
      · split
        · exact .bind (.ok _) fun value => .bind hrest fun values => .ok _
        · exact .bind (.error _) fun value => .bind hrest fun values => .ok _
  | .given name value rest =>
      exact .bind (rest.decode_failsWithin path members) fun values => .ok _

end

end MarketRegistry
