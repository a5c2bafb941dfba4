import MarketRegistry.Json.Basic
import Mathlib.Data.List.Nodup

/-!
# Values without repeated keys

The value of a document has no repeated keys at any level, and a document without repeated keys
is its own value. In such a value the members of an object may be looked up in any order.

## Main results

* `Json.Distinct` — no repeated keys at any level.
* `Json.distinct_lastWins` — the value of a document has none.
* `Json.lastWins_of_distinct` — a document that has none is its own value.
* `lookup_eq_some_iff_mem`, `lookup_perm` — looking up members whose keys are distinct.
* `Json.lookup_resolve` — looking up members whose repeated keys are resolved.
-/

namespace MarketRegistry

namespace Json

mutual

/-- **No repeated keys** at any level. -/
def Distinct : Json → Prop
  | .array items => DistinctItems items
  | .object ms => (keys ms).Nodup ∧ DistinctMembers ms
  | .null | .bool _ | .number _ | .string _ => True

/-- No repeated keys inside the elements of an array. -/
def DistinctItems : List Json → Prop
  | [] => True
  | j :: js => j.Distinct ∧ DistinctItems js

/-- No repeated keys inside the values of an object. -/
def DistinctMembers : List (Text × Json) → Prop
  | [] => True
  | (_, v) :: ms => v.Distinct ∧ DistinctMembers ms

end

variable {ms : List (Text × Json)} {k : Text} {v : Json}

theorem distinctMembers_iff : DistinctMembers ms ↔ ∀ m ∈ ms, m.2.Distinct := by
  induction ms with
  | nil => simp [DistinctMembers]
  | cons m ms ih =>
      obtain ⟨k, v⟩ := m
      rw [DistinctMembers, ih, List.forall_mem_cons]

theorem distinctItems_iff {js : List Json} : DistinctItems js ↔ ∀ j ∈ js, j.Distinct := by
  induction js with
  | nil => simp [DistinctItems]
  | cons j js ih => rw [DistinctItems, ih, List.forall_mem_cons]

/-! ### Repeated keys resolved -/

theorem keys_cons (k : Text) (v : Json) (ms : List (Text × Json)) :
    keys ((k, v) :: ms) = k :: keys ms := rfl

/-- A member put in keeps the keys, or adds its own at the end. -/
theorem keys_put (k : Text) (v : Json) (ms : List (Text × Json)) :
    keys (put k v ms) = if k ∈ keys ms then keys ms else keys ms ++ [k] := by
  induction ms with
  | nil => rfl
  | cons m ms ih =>
      obtain ⟨k', v'⟩ := m
      rw [put]
      by_cases hk : k' = k
      · subst hk
        simp [keys_cons]
      · rw [if_neg hk, keys_cons, ih, keys_cons]
        by_cases hmem : k ∈ keys ms
        · rw [if_pos hmem, if_pos (List.mem_cons_of_mem k' hmem)]
        · rw [if_neg hmem, if_neg (by simp [Ne.symm hk, hmem]), List.cons_append]

theorem nodup_keys_put (h : (keys ms).Nodup) (k : Text) (v : Json) :
    (keys (put k v ms)).Nodup := by
  rw [keys_put]
  split
  · exact h
  · rename_i hk
    rw [← List.concat_eq_append]
    exact List.Nodup.concat hk h

theorem mem_put {m : Text × Json} (h : m ∈ put k v ms) : m = (k, v) ∨ m ∈ ms := by
  induction ms with
  | nil => exact .inl (List.mem_singleton.mp h)
  | cons m' ms ih =>
      obtain ⟨k', v'⟩ := m'
      rw [put] at h
      split at h
      · rename_i hk
        subst hk
        exact (List.mem_cons.mp h).imp id (List.mem_cons_of_mem _)
      · rcases List.mem_cons.mp h with rfl | h
        · exact .inr List.mem_cons_self
        · exact (ih h).imp id (List.mem_cons_of_mem _)

/-- A member with a new key is put in at the end. -/
theorem put_of_not_mem (h : k ∉ keys ms) : put k v ms = ms ++ [(k, v)] := by
  induction ms with
  | nil => rfl
  | cons m ms ih =>
      obtain ⟨k', v'⟩ := m
      rw [keys_cons, List.mem_cons, not_or] at h
      rw [put, if_neg (Ne.symm h.1), ih h.2, List.cons_append]

/-- Members put in one after another: their keys are distinct, and nothing new comes in. -/
theorem foldl_put_spec (ms acc : List (Text × Json)) (h : (keys acc).Nodup) :
    (keys (ms.foldl (fun acc m => put m.1 m.2 acc) acc)).Nodup ∧
      ∀ m ∈ ms.foldl (fun acc m => put m.1 m.2 acc) acc, m ∈ acc ∨ m ∈ ms := by
  induction ms generalizing acc with
  | nil => exact ⟨h, fun m hm => .inl hm⟩
  | cons m ms ih =>
      obtain ⟨hnodup, hmem⟩ := ih (put m.1 m.2 acc) (nodup_keys_put h m.1 m.2)
      refine ⟨hnodup, fun m' hm' => ?_⟩
      rcases hmem m' hm' with hacc | hms
      · rcases mem_put hacc with rfl | hacc
        · exact .inr List.mem_cons_self
        · exact .inl hacc
      · exact .inr (List.mem_cons_of_mem m hms)

/-- Distinct members are put in as they are. -/
theorem foldl_put_of_nodup (ms acc : List (Text × Json)) (h : (keys (acc ++ ms)).Nodup) :
    ms.foldl (fun acc m => put m.1 m.2 acc) acc = acc ++ ms := by
  induction ms generalizing acc with
  | nil => simp
  | cons m ms ih =>
      obtain ⟨k, v⟩ := m
      have hsplit : acc ++ (k, v) :: ms = acc ++ [(k, v)] ++ ms := by simp
      have hk : k ∉ keys acc := by
        simp only [keys, List.map_append, List.map_cons] at h
        exact fun hk => (List.disjoint_of_nodup_append h) hk List.mem_cons_self
      rw [List.foldl_cons, put_of_not_mem hk, hsplit]
      exact ih _ (by rwa [← hsplit])

mutual

/-- **The value of a document** has no repeated keys. -/
theorem distinct_lastWins (j : Json) : j.lastWins.Distinct := by
  match j with
  | .null | .bool _ | .number _ | .string _ => trivial
  | .array items => exact distinctItems_lastWins items
  | .object ms =>
      obtain ⟨hnodup, hmem⟩ := foldl_put_spec (lastWinsMembers ms) [] List.nodup_nil
      refine ⟨hnodup, distinctMembers_iff.mpr fun m hm => ?_⟩
      rcases hmem m hm with hm | hm
      · cases hm
      · exact distinctMembers_iff.mp (distinctMembers_lastWins ms) m hm

theorem distinctItems_lastWins (js : List Json) : DistinctItems (lastWinsItems js) := by
  match js with
  | [] => trivial
  | j :: js => exact ⟨distinct_lastWins j, distinctItems_lastWins js⟩

theorem distinctMembers_lastWins (ms : List (Text × Json)) :
    DistinctMembers (lastWinsMembers ms) := by
  match ms with
  | [] => trivial
  | (k, v) :: ms => exact ⟨distinct_lastWins v, distinctMembers_lastWins ms⟩

end

mutual

/-- **A document without repeated keys** is its own value. -/
theorem lastWins_of_distinct (j : Json) (h : j.Distinct) : j.lastWins = j := by
  match j with
  | .null | .bool _ | .number _ | .string _ => rfl
  | .array items => rw [lastWins, lastWinsItems_of_distinct items h]
  | .object ms =>
      rw [lastWins, lastWinsMembers_of_distinct ms h.2, resolve,
        foldl_put_of_nodup ms [] h.1, List.nil_append]

theorem lastWinsItems_of_distinct (js : List Json) (h : DistinctItems js) :
    lastWinsItems js = js := by
  match js with
  | [] => rfl
  | j :: js =>
      rw [lastWinsItems, lastWins_of_distinct j h.1, lastWinsItems_of_distinct js h.2]

theorem lastWinsMembers_of_distinct (ms : List (Text × Json)) (h : DistinctMembers ms) :
    lastWinsMembers ms = ms := by
  match ms with
  | [] => rfl
  | (k, v) :: ms =>
      rw [lastWinsMembers, lastWins_of_distinct v h.1, lastWinsMembers_of_distinct ms h.2]

end

end Json

/-! ### Looking up -/

section Lookup

variable {α β : Type} [BEq α] [LawfulBEq α] {l l' : List (α × β)} {a : α} {b : β}

theorem mem_of_lookup (h : l.lookup a = some b) : (a, b) ∈ l := by
  obtain ⟨l₁, l₂, rfl, -⟩ := List.lookup_eq_some_iff.mp h
  exact List.mem_append_right l₁ List.mem_cons_self

theorem lookup_cons_eq_ite [DecidableEq α] (a k : α) (b : β) (l : List (α × β)) :
    ((k, b) :: l).lookup a = if a = k then some b else l.lookup a := by
  rw [List.lookup_cons]
  by_cases h : a = k
  · rw [if_pos h, beq_iff_eq.mpr h]
  · rw [if_neg h, beq_false_of_ne h]

/-- With distinct keys, looking up is membership. -/
theorem lookup_eq_some_iff_mem (h : (l.map Prod.fst).Nodup) :
    l.lookup a = some b ↔ (a, b) ∈ l := by
  refine ⟨mem_of_lookup, fun hmem => ?_⟩
  induction l with
  | nil => cases hmem
  | cons m l ih =>
      obtain ⟨a', b'⟩ := m
      rw [List.map_cons, List.nodup_cons] at h
      rcases List.mem_cons.mp hmem with heq | htail
      · cases heq
        exact List.lookup_cons_self
      · have ha : a ≠ a' := by
          rintro rfl
          exact h.1 (List.mem_map.mpr ⟨(a, b), htail, rfl⟩)
        rw [List.lookup_cons, beq_false_of_ne ha]
        exact ih h.2 htail

theorem lookup_eq_none_iff_keys : l.lookup a = none ↔ a ∉ l.map Prod.fst := by
  rw [List.lookup_eq_none_iff]
  simp only [List.mem_map, bne_iff_ne, ne_eq, not_exists, not_and]
  exact ⟨fun h m hm heq => h m hm heq.symm, fun h m hm heq => h m hm heq.symm⟩

/-- **With distinct keys**, the order does not matter for looking up. -/
theorem lookup_perm (h : (l.map Prod.fst).Nodup) (hl : l.Perm l') (a : α) :
    l.lookup a = l'.lookup a := by
  have h' : (l'.map Prod.fst).Nodup := (hl.map Prod.fst).nodup_iff.mp h
  cases hb : l'.lookup a with
  | some b => exact (lookup_eq_some_iff_mem h).mpr (hl.mem_iff.mpr (mem_of_lookup hb))
  | none =>
      rw [lookup_eq_none_iff_keys] at hb ⊢
      exact fun hmem => hb ((hl.map Prod.fst).mem_iff.mp hmem)

end Lookup

theorem member?_eq_lookup (key : Text) (ms : List (Text × Json)) :
    Json.member? key ms = ms.lookup key := by
  induction ms with
  | nil => rfl
  | cons m ms ih =>
      obtain ⟨k, v⟩ := m
      rw [Json.member?, List.lookup_cons, ih]
      by_cases h : k = key
      · simp [h]
      · rw [if_neg h, beq_false_of_ne (Ne.symm h)]

namespace Json

variable {ms : List (Text × Json)} {k k' : Text} {v : Json}

theorem lookup_put : (put k v ms).lookup k' = if k' = k then some v else ms.lookup k' := by
  induction ms with
  | nil => rw [put, lookup_cons_eq_ite]
  | cons m ms ih =>
      obtain ⟨l, w⟩ := m
      rw [put]
      by_cases hl : l = k
      · subst hl
        rw [if_pos rfl, lookup_cons_eq_ite, lookup_cons_eq_ite]
        by_cases h : k' = l
        · rw [if_pos h, if_pos h]
        · rw [if_neg h, if_neg h, if_neg h]
      · rw [if_neg hl, lookup_cons_eq_ite, lookup_cons_eq_ite, ih]
        by_cases h : k' = l
        · subst h
          rw [if_pos rfl, if_neg hl, if_pos rfl]
        · rw [if_neg h, if_neg h]

/-- **Repeated keys resolved**: a key has the value of its last member. -/
theorem lookup_resolve (ms : List (Text × Json)) (k : Text) :
    (resolve ms).lookup k = ms.reverse.lookup k := by
  have hfold : ∀ acc : List (Text × Json), (ms.foldl (fun acc m => put m.1 m.2 acc) acc).lookup k =
      (ms.reverse.lookup k).or (acc.lookup k) := by
    induction ms with
    | nil => exact fun acc => rfl
    | cons m ms ih =>
        intro acc
        rw [List.foldl_cons, ih, lookup_put, List.reverse_cons, List.lookup_append, Option.or_assoc,
          lookup_cons_eq_ite]
        by_cases h : k = m.1
        · rw [if_pos h, if_pos h, Option.some_or]
        · rw [if_neg h, if_neg h, List.lookup_nil, Option.none_or]
  rw [resolve, hfold, List.lookup_nil, Option.or_none]

theorem nodup_keys_resolve (ms : List (Text × Json)) : (keys (resolve ms)).Nodup :=
  (foldl_put_spec ms [] List.nodup_nil).1

theorem mem_keys_resolve_iff : k ∈ keys (resolve ms) ↔ k ∈ keys ms := by
  have hnone := lookup_resolve ms k
  rw [← not_iff_not, keys, ← lookup_eq_none_iff_keys, hnone, lookup_eq_none_iff_keys,
    List.map_reverse, List.mem_reverse, keys]

end Json

end MarketRegistry
