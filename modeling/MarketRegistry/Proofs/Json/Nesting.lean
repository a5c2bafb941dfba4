import MarketRegistry.Json.Nesting
import MarketRegistry.Proofs.Json.Pieces
import MarketRegistry.Proofs.Json.Syntax

/-!
# Texts that nest within a limit

A text nests within a limit when none of its beginnings leaves more containers open than that.
Such a text is read as if there were no limit, and every other text fails for the container that
opens too deep. Beginnings are told by their lexemes, and those that cannot be read count for
nothing: a text that is ill-formed before it nests too deep fails as an ill-formed one.

For the text of a tree no beginnings have to be looked at. Its containers are nested as deep as
those of the tree.

Containers are not all that takes up room on the stack. To report a fault takes calls as well,
down to the writing of the value in a message, and they begin where the containers end. These
calls are not counted. Instead, a text is said to leave room when it keeps away from the limit by
more than they are.

## Main definitions

* `Reading.StaysWithin`, `Json.NestsWithin` — lexemes and texts that nest within a limit.
* `Json.LeavesRoom` — texts that keep away from it.
* `Json.depth` — how deep the containers of a tree are nested.

## Main results

* `Json.parseWithin_of_nestsWithin` — what nests within the limit is read as without one.
* `Json.exists_tooDeep_of_not_nestsWithin` — nothing else is read.
* `Json.nestsWithin_iff_of_read` — the text of a tree nests as deep as the tree.
* `Json.nestsWithin_replicate_iff` — opening brackets nest as deep as there are many.
-/

namespace MarketRegistry

namespace Reading

variable {limit : Nat} {r s : Reading} {l : Lexeme} {ls : List Lexeme} {e : ReadError}

/-- Lexemes **stay within a limit** from where a reader is: none of their beginnings that can be
read leaves more containers open. -/
def StaysWithin (limit : Nat) (r : Reading) (ls : List Lexeme) : Prop :=
  ∀ before s, before <+: ls → run r before = .ok s → s.depth ≤ limit

theorem StaysWithin.depth_le (h : StaysWithin limit r ls) : r.depth ≤ limit :=
  h [] r List.nil_prefix rfl

theorem staysWithin_nil_iff : StaysWithin limit r [] ↔ r.depth ≤ limit := by
  refine ⟨StaysWithin.depth_le, fun hr before s hbefore hrun => ?_⟩
  obtain rfl := List.prefix_nil.mp hbefore
  cases hrun
  exact hr

theorem staysWithin_cons_iff (h : step r l = .ok s) :
    StaysWithin limit r (l :: ls) ↔ r.depth ≤ limit ∧ StaysWithin limit s ls := by
  constructor
  · intro hstays
    refine ⟨hstays.depth_le, fun before s' hbefore hrun => ?_⟩
    exact hstays (l :: before) s' (List.cons_prefix_cons.mpr ⟨rfl, hbefore⟩)
      ((Json.run_cons h).trans hrun)
  · rintro ⟨hr, hstays⟩ before s' hbefore hrun
    rcases List.prefix_cons_iff.mp hbefore with rfl | ⟨before', rfl, hbefore'⟩
    · cases hrun
      exact hr
    · exact hstays before' s' hbefore' ((Json.run_cons h).symm.trans hrun)

/-- A lexeme that cannot be read ends the matter. -/
theorem staysWithin_cons_of_error (h : step r l = .error e) (hr : r.depth ≤ limit) :
    StaysWithin limit r (l :: ls) := by
  intro before s hbefore hrun
  rcases List.prefix_cons_iff.mp hbefore with rfl | ⟨before', rfl, -⟩
  · cases hrun
    exact hr
  · rw [run, List.foldlM_cons, h] at hrun
    cases hrun

theorem StaysWithin.mono {limit' : Nat} (h : StaysWithin limit r ls) (hle : limit ≤ limit') :
    StaysWithin limit' r ls :=
  fun before s hbefore hrun => (h before s hbefore hrun).trans hle

/-! ### One lexeme more -/

theorem depth_startValue {frames : List Frame} (h : startValue frames l = .ok s)
    (hl : l.opens? = none) : s.depth = frames.length := by
  cases l <;> cases h <;> first | rfl | cases hl

theorem depth_afterValue {frames : List Frame} {j : Json} (h : afterValue j frames l = .ok s) :
    s.depth ≤ frames.length := by
  unfold afterValue at h
  split at h <;> cases h
  · exact Nat.le_refl _
  · exact Nat.le_succ _
  · exact Nat.le_refl _
  · exact Nat.le_succ _

/-- **Only an opening lexeme** leaves more containers open. -/
theorem depth_step (h : step r l = .ok s) (hl : l.opens? = none) : s.depth ≤ r.depth := by
  unfold step at h
  split at h
  · exact (depth_startValue h hl).le
  · cases h
    exact Nat.le_succ _
  · exact (depth_startValue h hl).le
  · cases h
    exact Nat.le_succ _
  · cases h
    exact Nat.le_refl _
  · cases h
    exact Nat.le_refl _
  · cases h
    exact Nat.le_refl _
  · exact depth_afterValue h
  · cases h

theorem stepWithin_of_depth_le (h : step r l = .ok s) (hs : s.depth ≤ limit) :
    stepWithin limit r l = .ok s := by
  simp only [stepWithin, h, Except.mapError, bind, Except.bind]
  cases l.opens? with
  | none => rfl
  | some container => exact if_pos hs

theorem stepWithin_of_error (h : step r l = .error e) :
    stepWithin limit r l = .error (.unreadable e) := by
  rw [stepWithin, h]
  rfl

theorem exists_tooDeep_of_step (h : step r l = .ok s) (hr : r.depth ≤ limit)
    (hs : ¬s.depth ≤ limit) :
    ∃ container, l.opens? = some container ∧
      stepWithin limit r l = .error (.tooDeep container) := by
  cases hl : l.opens? with
  | none => exact absurd ((depth_step h hl).trans hr) hs
  | some container =>
      refine ⟨container, rfl, ?_⟩
      simp only [stepWithin, h, hl, Except.mapError, bind, Except.bind]
      exact if_neg hs

/-! ### Several lexemes more -/

/-- **Lexemes that stay within the limit** are read as without one. -/
theorem runWithin_of_staysWithin (h : StaysWithin limit r ls) :
    runWithin limit r ls = (run r ls).mapError .unreadable := by
  induction ls generalizing r with
  | nil => rfl
  | cons l ls ih =>
      rw [runWithin, run, List.foldlM_cons, List.foldlM_cons]
      cases hstep : step r l with
      | error e =>
          rw [stepWithin_of_error hstep]
          rfl
      | ok s =>
          have hstays := ((staysWithin_cons_iff hstep).mp h).2
          rw [stepWithin_of_depth_le hstep hstays.depth_le]
          exact ih hstays

/-- **Lexemes that do not stay within the limit** fail for one that opens a container. -/
theorem exists_tooDeep_of_not_staysWithin (hr : r.depth ≤ limit) (h : ¬StaysWithin limit r ls) :
    ∃ l ∈ ls, ∃ container, l.opens? = some container ∧
      runWithin limit r ls = .error (.tooDeep container) := by
  induction ls generalizing r with
  | nil => exact absurd (staysWithin_nil_iff.mpr hr) h
  | cons l ls ih =>
      rw [runWithin, List.foldlM_cons]
      cases hstep : step r l with
      | error e => exact absurd (staysWithin_cons_of_error hstep hr) h
      | ok s =>
          by_cases hs : s.depth ≤ limit
          · have hnot : ¬StaysWithin limit s ls := fun hstays =>
              h ((staysWithin_cons_iff hstep).mpr ⟨hr, hstays⟩)
            obtain ⟨l', hl', hdeep⟩ := ih hs hnot
            rw [stepWithin_of_depth_le hstep hs]
            exact ⟨l', List.mem_cons_of_mem l hl', hdeep⟩
          · obtain ⟨container, hl, hdeep⟩ := exists_tooDeep_of_step hstep hr hs
            rw [hdeep]
            exact ⟨l, List.mem_cons_self, container, hl, rfl⟩

end Reading

namespace Json

variable {limit : Nat} {cs : List Char}

/-! ### Texts -/

/-- A text **nests within a limit** when none of its beginnings that can be read leaves more
containers open. -/
def NestsWithin (limit : Nat) (cs : List Char) : Prop :=
  Reading.StaysWithin limit (.value []) (lexemes cs)

/-- The levels of a limit that are **kept in reserve** for the calls that are not counted: what
reading and decoding take besides the open containers, and what it takes to report a fault. -/
def reserve : Nat :=
  32

/-- A text **leaves room** when it nests within a limit less the reserve. -/
def LeavesRoom (limit : Nat) (cs : List Char) : Prop :=
  reserve ≤ limit ∧ NestsWithin (limit - reserve) cs

theorem LeavesRoom.nestsWithin (h : LeavesRoom limit cs) : NestsWithin limit cs :=
  h.2.mono (Nat.sub_le limit reserve)

/-- **A text that nests within the limit** is read as without one. -/
theorem parseWithin_of_nestsWithin (h : NestsWithin limit cs) :
    parseWithin limit cs = (parse cs).mapError .unreadable := by
  rw [parseWithin, Reading.runWithin_of_staysWithin h, parse, read, ofLexemes]
  cases Reading.run (.value []) (lexemes cs) with
  | error e => rfl
  | ok r =>
      change (r.result.mapError LimitedError.unreadable >>= fun j => .ok j.lastWins) =
        (r.result.map lastWins).mapError .unreadable
      cases r.result with
      | error e => rfl
      | ok j => rfl

/-- **A text that does not nest within the limit** fails for a container that it opens. -/
theorem exists_tooDeep_of_not_nestsWithin (h : ¬NestsWithin limit cs) :
    ∃ l ∈ lexemes cs, ∃ container, l.opens? = some container ∧
      parseWithin limit cs = .error (.tooDeep container) := by
  obtain ⟨l, hl, container, hopens, hrun⟩ :=
    Reading.exists_tooDeep_of_not_staysWithin (Nat.zero_le limit) h
  refine ⟨l, hl, container, hopens, ?_⟩
  rw [parseWithin, hrun]
  rfl

/-! ### The text of a tree -/

mutual

/-- **How deep** the containers of a tree are nested. -/
def depth : Json → Nat
  | .array items => depthItems items + 1
  | .object ms => depthMembers ms + 1
  | .null | .bool _ | .number _ | .string _ => 0

/-- How deep the containers in the elements of an array are nested. -/
def depthItems : List Json → Nat
  | [] => 0
  | j :: js => max j.depth (depthItems js)

/-- How deep the containers in the values of an object are nested. -/
def depthMembers : List (Text × Json) → Nat
  | [] => 0
  | (_, v) :: ms => max v.depth (depthMembers ms)

end

theorem depthItems_le_iff {n : Nat} {js : List Json} :
    depthItems js ≤ n ↔ ∀ j ∈ js, j.depth ≤ n := by
  induction js with
  | nil => simp [depthItems]
  | cons j js ih => rw [depthItems, Nat.max_le, ih, List.forall_mem_cons]

theorem depthMembers_le_iff {n : Nat} {ms : List (Text × Json)} :
    depthMembers ms ≤ n ↔ ∀ m ∈ ms, m.2.depth ≤ n := by
  induction ms with
  | nil => simp [depthMembers]
  | cons m ms ih =>
      obtain ⟨k, v⟩ := m
      rw [depthMembers, Nat.max_le, ih, List.forall_mem_cons]

open Reading

/-- At the first place of an array, anything but its end is read as an element. -/
theorem staysWithin_firstItem_iff {frames : List Frame} {l : Lexeme} {ls : List Lexeme}
    (h : l ≠ .bracketClose) : StaysWithin limit (.firstItem frames) (l :: ls) ↔
      StaysWithin limit (.value (.array [] :: frames)) (l :: ls) := by
  have hstep : step (.firstItem frames) l = step (.value (.array [] :: frames)) l := by
    cases l <;> first | rfl | exact absurd rfl h
  cases hnext : step (.value (.array [] :: frames)) l with
  | error e =>
      exact ⟨fun hstays => staysWithin_cons_of_error hnext hstays.depth_le,
        fun hstays => staysWithin_cons_of_error (hstep.trans hnext) hstays.depth_le⟩
  | ok s =>
      rw [staysWithin_cons_iff hnext, staysWithin_cons_iff (hstep.trans hnext)]
      exact Iff.rfl

mutual

/-- **A written tree** stays within what its depth adds to the open containers. -/
theorem staysWithin_toLexemes_iff (j : Json) (frames : List Frame) (ls : List Lexeme) :
    StaysWithin limit (.value frames) (j.toLexemes ++ ls) ↔
      frames.length + j.depth ≤ limit ∧ StaysWithin limit (.after frames j) ls := by
  match j with
  | .null | .bool _ | .number _ | .string _ => exact staysWithin_cons_iff rfl
  | .array [] =>
      rw [toLexemes, List.cons_append, staysWithin_cons_iff (s := .firstItem frames) rfl,
        List.singleton_append, staysWithin_cons_iff (s := .after frames (.array [])) rfl]
      simp only [Reading.depth, depth, depthItems, ← and_assoc]
      exact and_congr_left fun _ => by omega
  | .object [] =>
      rw [toLexemes, List.cons_append, staysWithin_cons_iff (s := .firstKey frames) rfl,
        List.singleton_append, staysWithin_cons_iff (s := .after frames (.object [])) rfl]
      simp only [Reading.depth, depth, depthMembers, ← and_assoc]
      exact and_congr_left fun _ => by omega
  | .array (j :: js) =>
      obtain ⟨l, ls', hl, hne⟩ := toLexemes_eq_cons j
      have first : StaysWithin limit (.firstItem frames) (j.toLexemes ++ (itemsTail js ++ ls)) ↔
          StaysWithin limit (.value (.array [] :: frames))
            (j.toLexemes ++ (itemsTail js ++ ls)) := by
        rw [hl]
        exact staysWithin_firstItem_iff hne
      rw [toLexemes, List.cons_append, staysWithin_cons_iff (s := .firstItem frames) rfl,
        List.append_assoc, first, staysWithin_toLexemes_iff j, staysWithin_itemsTail_iff js]
      simp only [Reading.depth, depth, depthItems, List.length_cons, List.reverse_nil,
        List.nil_append, ← and_assoc]
      exact and_congr_left fun _ => by omega
  | .object ((k, v) :: ms) =>
      rw [toLexemes, List.cons_append, staysWithin_cons_iff (s := .firstKey frames) rfl,
        List.cons_append, staysWithin_cons_iff (s := .colon frames [] k) rfl,
        List.cons_append, staysWithin_cons_iff (s := .value (.object [] k :: frames)) rfl,
        List.append_assoc, staysWithin_toLexemes_iff v, staysWithin_membersTail_iff ms]
      simp only [Reading.depth, depth, depthMembers, List.length_cons, List.reverse_nil,
        List.nil_append, ← and_assoc]
      exact and_congr_left fun _ => by omega

/-- The further elements of an array stay within what their depth adds. -/
theorem staysWithin_itemsTail_iff (js : List Json) (items : List Json) (j : Json)
    (frames : List Frame) (ls : List Lexeme) :
    StaysWithin limit (.after (.array items :: frames) j) (itemsTail js ++ ls) ↔
      frames.length + 1 + depthItems js ≤ limit ∧
        StaysWithin limit (.after frames (.array (items.reverse ++ j :: js))) ls := by
  match js with
  | [] =>
      rw [itemsTail, List.singleton_append, staysWithin_cons_iff rfl, List.reverse_cons]
      exact Iff.rfl
  | i :: js =>
      rw [itemsTail, List.cons_append, staysWithin_cons_iff rfl, List.append_assoc,
        staysWithin_toLexemes_iff i, staysWithin_itemsTail_iff js, List.reverse_cons,
        List.append_assoc, List.singleton_append]
      simp only [Reading.depth, depthItems, List.length_cons, ← and_assoc]
      exact and_congr_left fun _ => by omega

/-- The further members of an object stay within what their depth adds. -/
theorem staysWithin_membersTail_iff (ms : List (Text × Json)) (members : List (Text × Json))
    (k : Text) (v : Json) (frames : List Frame) (ls : List Lexeme) :
    StaysWithin limit (.after (.object members k :: frames) v) (membersTail ms ++ ls) ↔
      frames.length + 1 + depthMembers ms ≤ limit ∧
        StaysWithin limit (.after frames (.object (members.reverse ++ (k, v) :: ms))) ls := by
  match ms with
  | [] =>
      rw [membersTail, List.singleton_append, staysWithin_cons_iff rfl, List.reverse_cons]
      exact Iff.rfl
  | (k', v') :: ms =>
      rw [membersTail, List.cons_append, staysWithin_cons_iff rfl, List.cons_append,
        staysWithin_cons_iff rfl, List.cons_append, staysWithin_cons_iff rfl, List.append_assoc,
        staysWithin_toLexemes_iff v', staysWithin_membersTail_iff ms, List.reverse_cons,
        List.append_assoc, List.singleton_append]
      simp only [Reading.depth, depthMembers, List.length_cons, ← and_assoc]
      exact and_congr_left fun _ => by omega

end

/-- **The text of a tree** nests as deep as the tree. -/
theorem nestsWithin_iff_of_read {j : Json} (h : read cs = .ok j) :
    NestsWithin limit cs ↔ j.depth ≤ limit := by
  rw [NestsWithin, ofLexemes_eq_ok_iff.mp h, ← List.append_nil j.toLexemes,
    staysWithin_toLexemes_iff, staysWithin_nil_iff]
  simp only [Reading.depth, List.length_nil, Nat.zero_add, Nat.zero_le, and_true]

/-! ### Opening brackets -/

theorem lexemes_replicate (n : Nat) :
    lexemes (List.replicate n '[') = List.replicate n .bracketOpen := by
  induction n with
  | zero => rfl
  | succ n ih =>
      rw [List.replicate_succ, lexemes_mark_cons (m := .bracketOpen) rfl, ih, ← List.replicate_succ]

theorem staysWithin_replicate_iff (n : Nat) (frames : List Frame) :
    StaysWithin limit (.firstItem frames) (List.replicate n .bracketOpen) ↔
      frames.length + 1 + n ≤ limit := by
  induction n generalizing frames with
  | zero => exact staysWithin_nil_iff
  | succ n ih =>
      rw [List.replicate_succ, staysWithin_cons_iff (s := .firstItem (.array [] :: frames)) rfl, ih]
      simp only [Reading.depth, List.length_cons]
      omega

/-- **Opening brackets** nest as deep as there are many. -/
theorem nestsWithin_replicate_iff (n : Nat) :
    NestsWithin limit (List.replicate n '[') ↔ n ≤ limit := by
  rw [NestsWithin, lexemes_replicate]
  cases n with
  | zero => exact staysWithin_nil_iff
  | succ n =>
      rw [List.replicate_succ, staysWithin_cons_iff (s := .firstItem []) rfl,
        staysWithin_replicate_iff]
      simp only [Reading.depth, List.length_nil]
      omega

end Json

end MarketRegistry
