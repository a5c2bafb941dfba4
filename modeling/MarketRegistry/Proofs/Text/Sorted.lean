import Mathlib.Data.List.Lex
import Mathlib.Data.List.Sort
import MarketRegistry.Text.CodePoint

/-!
# Texts in code point order

Sorting puts texts in the order of the numbers of their code points. It does not depend on the
order that it finds, and texts that all differ come out as the one list of them in strict order.

## Main definitions

* `Text.codes` — the numbers of a text, which order it.
* `Text.Lists` — the list of the texts with a property.

## Main results

* `Text.sorted_eq_of_perm` — sorting does not depend on the order of what is sorted.
* `Text.lists_sorted`, `Text.Lists.unique` — sorting makes the one list there is.
-/

namespace MarketRegistry

theorem CodePoint.value_injective : Function.Injective value := by
  -- A character is never a half, whose numbers fill the gap that characters leave.
  have hgap : ∀ c : Char, c.toNat < 0xD800 ∨ 0xE000 ≤ c.toNat := by
    intro c
    have hvalid := c.valid
    simp only [UInt32.isValidChar, Nat.isValidChar] at hvalid
    change c.val.toNat < 0xD800 ∨ 0xE000 ≤ c.val.toNat
    omega
  intro p q h
  cases p <;> cases q <;> simp only [value] at h
  case scalar.scalar c d => rw [Char.toNat_inj.mp h]
  case high.high u v => rw [Fin.ext (by omega : u.val = v.val)]
  case low.low u v => rw [Fin.ext (by omega : u.val = v.val)]
  case scalar.high c u => have := hgap c; omega
  case scalar.low c u => have := hgap c; omega
  case high.scalar u c => have := hgap c; omega
  case low.scalar u c => have := hgap c; omega
  case high.low u v => omega
  case low.high u v => omega

namespace Text

variable {s t : Text} {ts ts' : List Text} {p : Text → Prop}

/-- The **numbers of a text**, code point by code point. Texts are ordered as these are. -/
def codes (t : Text) : List Nat :=
  t.map CodePoint.value

theorem codes_injective : Function.Injective codes :=
  List.map_injective_iff.mpr CodePoint.value_injective

theorem le_iff_codes : le s t ↔ s.codes ≤ t.codes := by
  rw [le_iff_lt_or_eq, codes_injective.eq_iff]
  induction s generalizing t with
  | nil => cases t <;> simp [le, codes]
  | cons a s ih =>
      cases t with
      | nil => simp [le, codes]
      | cons b t =>
          have hvalue : a = b ↔ a.value = b.value := CodePoint.value_injective.eq_iff.symm
          simp only [le, codes, List.map_cons, List.cons_lt_cons_iff, List.cons.injEq,
            Bool.or_eq_true, Bool.and_eq_true, decide_eq_true_eq, beq_iff_eq, ih, hvalue]
          tauto

/-! ### Sorting -/

theorem insertSorted_eq_orderedInsert (t : Text) (ts : List Text) :
    insertSorted t ts = ts.orderedInsert (fun s t => s.codes ≤ t.codes) t := by
  induction ts with
  | nil => rfl
  | cons s ts ih =>
      rw [insertSorted, List.orderedInsert_cons, ih]
      simp only [le_iff_codes]

theorem sorted_eq_insertionSort (ts : List Text) :
    sorted ts = ts.insertionSort fun s t => s.codes ≤ t.codes := by
  induction ts with
  | nil => rfl
  | cons t ts ih =>
      rw [List.insertionSort_cons, ← ih, ← insertSorted_eq_orderedInsert]
      rfl

theorem perm_sorted (ts : List Text) : (sorted ts).Perm ts := by
  rw [sorted_eq_insertionSort]
  exact List.perm_insertionSort _ ts

theorem pairwise_sorted (ts : List Text) :
    (sorted ts).Pairwise fun s t => s.codes ≤ t.codes := by
  have : Std.Total fun s t : Text => s.codes ≤ t.codes := ⟨fun s t => le_total s.codes t.codes⟩
  have : IsTrans Text fun s t => s.codes ≤ t.codes := ⟨fun _ _ _ => le_trans⟩
  rw [sorted_eq_insertionSort]
  exact List.pairwise_insertionSort _ ts

/-- **Sorting** does not depend on the order of what is sorted. -/
theorem sorted_eq_of_perm (h : ts.Perm ts') : sorted ts = sorted ts' := by
  have hperm : (sorted ts).Perm (sorted ts') :=
    (perm_sorted ts).trans (h.trans (perm_sorted ts').symm)
  refine hperm.eq_of_pairwise (fun s t _ _ hst hts => ?_) (pairwise_sorted ts) (pairwise_sorted ts')
  exact codes_injective (le_antisymm hst hts)

/-! ### Lists of texts with a property -/

/-- The **list of the texts** with a property: all of them, each once, in code point order. -/
structure Lists (p : Text → Prop) (ts : List Text) : Prop where
  pairwise : ts.Pairwise fun s t => s.codes < t.codes
  mem_iff : ∀ t, t ∈ ts ↔ p t

/-- Texts that all differ are listed by sorting them. -/
theorem lists_sorted (h : ts.Nodup) (hp : ∀ t, t ∈ ts ↔ p t) : Lists p (sorted ts) where
  pairwise := by
    have hne : (sorted ts).Pairwise (· ≠ ·) := (perm_sorted ts).nodup_iff.mpr h
    refine ((pairwise_sorted ts).and hne).imp fun hst => ?_
    exact lt_of_le_of_ne hst.1 fun heq => hst.2 (codes_injective heq)
  mem_iff t := ((perm_sorted ts).mem_iff).trans (hp t)

/-- There is one list of the texts with a property. -/
theorem Lists.unique (h : Lists p ts) (h' : Lists p ts') : ts = ts' := by
  have : Std.Irrefl fun s t : Text => s.codes < t.codes := ⟨fun s => lt_irrefl s.codes⟩
  have : Std.Antisymm fun s t : Text => s.codes < t.codes :=
    ⟨fun _ _ hst hts => absurd hts hst.asymm⟩
  exact h.pairwise.eq_of_mem_iff h'.pairwise fun t => (h.mem_iff t).trans (h'.mem_iff t).symm

end Text

end MarketRegistry
