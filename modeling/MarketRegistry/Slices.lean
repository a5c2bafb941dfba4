/-!
# Slices of a list

Consecutive slices of one length, for data that is a row of records of fixed size.

## Main definitions

* `slices` — the complete slices of a list; a shorter rest is dropped.
* `length_of_mem_slices` — every slice has the full length.
-/

namespace MarketRegistry

/-- The consecutive slices of `n` elements. What is left when fewer than `n` remain is
dropped; there are none for `n = 0`. -/
def slices {α : Type} (n : Nat) (l : List α) : List (List α) :=
  if n = 0 ∨ l.length < n then [] else l.take n :: slices n (l.drop n)
termination_by l.length
decreasing_by
  simp only [List.length_drop]
  omega

/-- **No slice is short.** -/
theorem length_of_mem_slices {α : Type} {n : Nat} {l s : List α} (h : s ∈ slices n l) :
    s.length = n := by
  induction hk : l.length using Nat.strongRecOn generalizing l with
  | _ k ih =>
    rw [slices] at h
    split at h
    · simp at h
    · rename_i hn
      rcases List.mem_cons.mp h with rfl | h
      · simp only [List.length_take]
        omega
      · exact ih (l.drop n).length (by simp only [List.length_drop]; omega) h rfl

end MarketRegistry
