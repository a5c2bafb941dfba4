import Mathlib.Algebra.Group.Embedding
import Mathlib.Data.Finset.Card
import Mathlib.Data.List.Infix
import MarketRegistry.Dump.Literal
import MarketRegistry.Proofs.Dump.Collapse

/-!
# Unit variants where they occur

Collapsing goes through the tokens once and from the left, and jumps over each unit variant that
it finds. That it finds all of them is a matter of the shape: the one brace within a unit
variant at which another could begin is followed by its partner, and not by a string. So two
occurrences never overlap, and the tokens fall into pieces, one for each occurrence and one for
each token outside of them.

## Main results

* `OccursAt` — where a unit variant occurs among tokens.
* `OccursAt.disjoint` — occurrences do not overlap.
* `exists_pieces` — the pieces of the tokens, and what they are collapsed to.
* `collapse_exact` — collapsing replaces all occurrences and nothing else, and reinterpreting
  replaces strings in their places.
-/

namespace MarketRegistry

variable {ts us rest span span' : List Token} {t name name' : Token} {i j : Nat}

/-! ### Where unit variants begin -/

theorem unitVariant?_cons_of_ne (h : t ≠ .mark '\x7b') : unitVariant? (t :: ts) = none := by
  rw [unitVariant?, afterMark?, if_neg h]
  rfl

/-- A brace that is not followed by a string begins no unit variant. -/
theorem unitVariant?_eq_none_of_dropBlanks (h : dropBlanks ts = t :: rest)
    (hkind : t.kind ≠ .string) : unitVariant? (.mark '\x7b' :: ts) = none := by
  rw [Option.eq_none_iff_forall_ne_some]
  rintro ⟨name, rest'⟩ hsome
  obtain ⟨t₁, t₂, t₃, t₄, t₅, hts, ⟨hname, hstring⟩, -⟩ := unitVariant?_eq_some.mp hsome
  rw [← (List.cons.inj hts).2, h] at hname
  exact hkind ((List.cons.inj hname).1 ▸ hstring)

/-- No unit variant **begins among** tokens that stand before others. -/
def BeginsNowhere (ts rest : List Token) : Prop :=
  ∀ us, us <:+ ts → us ≠ [] → unitVariant? (us ++ rest) = none

theorem beginsNowhere_nil : BeginsNowhere [] rest := by
  intro us hus hne
  exact absurd (List.suffix_nil.mp hus) hne

theorem BeginsNowhere.cons (hts : BeginsNowhere ts rest)
    (ht : unitVariant? (t :: ts ++ rest) = none) : BeginsNowhere (t :: ts) rest := by
  intro us hus hne
  rcases List.suffix_cons_iff.mp hus with rfl | hus
  · exact ht
  · exact hts us hus hne

theorem BeginsNowhere.append {bs : List Token} (hts : BeginsNowhere ts rest)
    (hbs : ∀ b ∈ bs, b ≠ .mark '\x7b') : BeginsNowhere (bs ++ ts) rest := by
  induction bs with
  | nil => exact hts
  | cons b bs ih =>
      obtain ⟨hb, hbs⟩ := List.forall_mem_cons.mp hbs
      exact (ih hbs).cons (unitVariant?_cons_of_ne hb)

theorem ne_mark_of_isWhitespace {c : Char} (h : t.isWhitespace) : t ≠ .mark c := by
  rintro rfl
  exact Token.not_isWhitespace_mark c h

/-- **Within a unit variant** no other begins. -/
theorem IsUnitVariant.beginsNowhere (h : IsUnitVariant name span) :
    BeginsNowhere span.tail rest := by
  obtain ⟨b₁, b₂, b₃, b₄, b₅, hkind, hblank, rfl⟩ := h
  simp only [List.forall_mem_append] at hblank
  obtain ⟨⟨⟨⟨hb₁, hb₂⟩, hb₃⟩, hb₄⟩, hb₅⟩ := hblank
  have hblanks : ∀ {bs : List Token}, (∀ b ∈ bs, b.isWhitespace) → ∀ b ∈ bs, b ≠ .mark '\x7b' :=
    fun hbs b hb => ne_mark_of_isWhitespace (hbs b hb)
  have hname : name ≠ .mark '\x7b' := by
    rintro rfl
    cases hkind
  have hend : BeginsNowhere (b₄ ++ .mark '\x7d' :: (b₅ ++ [.mark '\x7d'])) rest :=
    ((((beginsNowhere_nil.cons (unitVariant?_cons_of_ne (by decide))).append (hblanks hb₅)).cons
      (unitVariant?_cons_of_ne (by decide))).append (hblanks hb₄))
  -- the inner brace could begin a unit variant, but no string follows it
  have hinner := hend.cons (t := .mark '\x7b') (by
    rw [List.cons_append, List.append_assoc]
    exact unitVariant?_eq_none_of_dropBlanks
      (dropBlanks_append hb₄ (Token.not_isWhitespace_mark '\x7d')) (by simp))
  exact ((((hinner.append (hblanks hb₃)).cons (unitVariant?_cons_of_ne (by decide))).append
    (hblanks hb₂)).cons (unitVariant?_cons_of_ne hname)).append (hblanks hb₁)

theorem IsUnitVariant.length_pos (h : IsUnitVariant name span) : 0 < span.length := by
  obtain ⟨b₁, b₂, b₃, b₄, b₅, -, -, rfl⟩ := h
  exact Nat.succ_pos _

theorem IsUnitVariant.unitVariant?_append (h : IsUnitVariant name span) (rest : List Token) :
    unitVariant? (span ++ rest) = some (name, rest) :=
  unitVariant?_eq_some_iff.mpr ⟨span, h, rfl⟩

/-! ### Occurrences -/

/-- A unit variant **occurs** among tokens from a position on. -/
def OccursAt (ts : List Token) (i : Nat) (name : Token) (span : List Token) : Prop :=
  IsUnitVariant name span ∧ span <+: ts.drop i

/-- At every position there is one occurrence at most. -/
theorem OccursAt.unique (h : OccursAt ts i name span) (h' : OccursAt ts i name' span') :
    name = name' ∧ span = span' := by
  obtain ⟨hvariant, rest, hrest⟩ := h
  obtain ⟨hvariant', rest', hrest'⟩ := h'
  have hsome := hvariant.unitVariant?_append rest
  rw [hrest, ← hrest', hvariant'.unitVariant?_append, Option.some.injEq, Prod.mk.injEq] at hsome
  obtain ⟨rfl, rfl⟩ := hsome
  exact ⟨rfl, List.append_cancel_right (hrest.trans hrest'.symm)⟩

theorem exists_occursAt_iff :
    (∃ name span, OccursAt ts i name span) ↔ (unitVariant? (ts.drop i)).isSome := by
  rw [Option.isSome_iff_exists]
  constructor
  · rintro ⟨name, span, hvariant, rest, hrest⟩
    exact ⟨(name, rest), hrest ▸ hvariant.unitVariant?_append rest⟩
  · rintro ⟨⟨name, rest⟩, hsome⟩
    obtain ⟨span, hvariant, hts⟩ := unitVariant?_eq_some_iff.mp hsome
    exact ⟨name, span, hvariant, rest, hts.symm⟩

/-- **Occurrences after a token** at which none begins. -/
theorem occursAt_cons (h : unitVariant? (t :: ts) = none) :
    OccursAt (t :: ts) i name span ↔ ∃ j, i = j + 1 ∧ OccursAt ts j name span := by
  cases i with
  | zero =>
      refine iff_of_false (fun hocc => ?_) (by simp)
      have hsome := exists_occursAt_iff.mp ⟨name, span, hocc⟩
      rw [List.drop_zero, h] at hsome
      cases hsome
  | succ i =>
      simp [OccursAt]

/-- **Occurrences after an occurrence**, which none overlaps. -/
theorem occursAt_append (h : IsUnitVariant name' span') :
    OccursAt (span' ++ ts) i name span ↔
      (i = 0 ∧ name = name' ∧ span = span') ∨
        ∃ j, i = span'.length + j ∧ OccursAt ts j name span := by
  constructor
  · intro hocc
    by_cases hzero : i = 0
    · subst hzero
      exact .inl ⟨rfl, hocc.unique ⟨h, List.prefix_append _ _⟩⟩
    · by_cases hlt : i < span'.length
      -- within the other occurrence, what is left of it is a suffix of its tail
      · have hsome := exists_occursAt_iff.mp ⟨name, span, hocc⟩
        have hsuffix : span'.drop i <:+ span'.tail := by
          obtain ⟨k, rfl⟩ := Nat.exists_eq_succ_of_ne_zero hzero
          rw [← List.drop_one, Nat.succ_eq_add_one, Nat.add_comm, ← List.drop_drop]
          exact List.drop_suffix _ _
        rw [List.drop_append_of_le_length hlt.le, h.beginsNowhere _ hsuffix (by simpa using hlt)]
          at hsome
        cases hsome
      · obtain ⟨j, rfl⟩ := Nat.exists_eq_add_of_le (Nat.le_of_not_lt hlt)
        refine .inr ⟨j, rfl, hocc.1, ?_⟩
        have hprefix := hocc.2
        rwa [← List.drop_drop, List.drop_left] at hprefix
  · rintro (⟨rfl, rfl, rfl⟩ | ⟨j, rfl, hocc⟩)
    · exact ⟨h, List.prefix_append _ _⟩
    · refine ⟨hocc.1, ?_⟩
      rw [← List.drop_drop, List.drop_left]
      exact hocc.2

/-- **Occurrences do not overlap.** -/
theorem OccursAt.disjoint (h : OccursAt ts i name span) (h' : OccursAt ts j name' span')
    (hij : i < j) : i + span.length ≤ j := by
  obtain ⟨hvariant, rest, hrest⟩ := h
  obtain ⟨k, rfl⟩ := Nat.exists_eq_add_of_lt hij
  have hocc : OccursAt (span ++ rest) (k + 1) name' span' := by
    refine ⟨h'.1, ?_⟩
    rw [hrest, List.drop_drop]
    exact h'.2
  rcases (occursAt_append hvariant).mp hocc with ⟨hzero, -⟩ | ⟨l, hl, -⟩
  · cases hzero
  · omega

/-! ### Pieces -/

/-- A **piece** of tokens, and the token that it is collapsed to. -/
structure Piece where
  source : List Token
  result : Token

/-- A piece is one token that is kept or a unit variant that collapses to its name. -/
def Piece.Lawful (p : Piece) : Prop :=
  p.source = [p.result] ∨ IsUnitVariant p.result p.source

/-- A piece stands **at** a position of the tokens that the pieces make up. -/
def Piece.At (ps : List Piece) (i : Nat) (p : Piece) : Prop :=
  ∃ before after, ps = before ++ p :: after ∧ (before.flatMap Piece.source).length = i

theorem Piece.at_cons {p q : Piece} {ps : List Piece} :
    Piece.At (q :: ps) i p ↔ (i = 0 ∧ p = q) ∨ ∃ j, i = q.source.length + j ∧ Piece.At ps j p := by
  constructor
  · rintro ⟨before, after, hps, rfl⟩
    cases before with
    | nil => exact .inl ⟨rfl, (List.cons.inj hps).1.symm⟩
    | cons q' before =>
        obtain ⟨rfl, rfl⟩ := List.cons.inj hps
        exact .inr ⟨_, by rw [List.flatMap_cons, List.length_append], before, after, rfl, rfl⟩
  · rintro (⟨rfl, rfl⟩ | ⟨j, rfl, before, after, rfl, rfl⟩)
    · exact ⟨[], ps, rfl, rfl⟩
    · exact ⟨q :: before, after, rfl, by rw [List.flatMap_cons, List.length_append]⟩

/-- **The pieces of tokens**: they make up the tokens, their results are the collapsed tokens,
and they hold every occurrence. -/
theorem exists_pieces (ts : List Token) :
    ∃ ps : List Piece, ps.flatMap Piece.source = ts ∧ ps.map Piece.result = (collapse ts).tokens ∧
      (∀ p ∈ ps, p.Lawful) ∧ ∀ i name span, OccursAt ts i name span ↔
        IsUnitVariant name span ∧ Piece.At ps i ⟨span, name⟩ := by
  -- the positions of `occursAt_append` and `occursAt_cons` are those of `Piece.at_cons`
  induction ts using collapse.induct with
  | case1 ts name' rest h ih =>
      obtain ⟨ps, hsource, hresult, hlawful, hoccurs⟩ := ih
      obtain ⟨span', hvariant, rfl⟩ := unitVariant?_eq_some_iff.mp h
      refine ⟨⟨span', name'⟩ :: ps, by rw [List.flatMap_cons, hsource],
        by rw [List.map_cons, hresult, collapse_of_unitVariant? h],
        List.forall_mem_cons.mpr ⟨.inr hvariant, hlawful⟩, fun i name span => ?_⟩
      simp only [occursAt_append hvariant, Piece.at_cons, hoccurs, Piece.mk.injEq]
      constructor
      · rintro (⟨rfl, rfl, rfl⟩ | ⟨j, rfl, hspan, hat⟩)
        · exact ⟨hvariant, .inl ⟨rfl, rfl, rfl⟩⟩
        · exact ⟨hspan, .inr ⟨j, rfl, hat⟩⟩
      · rintro ⟨hspan, ⟨rfl, rfl, rfl⟩ | ⟨j, rfl, hat⟩⟩
        · exact .inl ⟨rfl, rfl, rfl⟩
        · exact .inr ⟨j, rfl, hspan, hat⟩
  | case2 =>
      refine ⟨[], rfl, by simp, by simp, fun i name span => iff_of_false ?_ ?_⟩
      · rintro ⟨hvariant, hprefix⟩
        rw [List.drop_nil] at hprefix
        have := hvariant.length_pos
        simp [List.prefix_nil.mp hprefix] at this
      · rintro ⟨-, before, after, hps, -⟩
        simp at hps
  | case3 t rest h ih =>
      obtain ⟨ps, hsource, hresult, hlawful, hoccurs⟩ := ih
      refine ⟨⟨[t], t⟩ :: ps, by rw [List.flatMap_cons, hsource, List.singleton_append],
        by rw [List.map_cons, hresult, collapse_cons h],
        List.forall_mem_cons.mpr ⟨.inl rfl, hlawful⟩, fun i name span => ?_⟩
      simp only [occursAt_cons h, Piece.at_cons, hoccurs, Piece.mk.injEq]
      constructor
      · rintro ⟨j, rfl, hspan, hat⟩
        exact ⟨hspan, .inr ⟨j, Nat.add_comm j 1, hat⟩⟩
      · rintro ⟨hspan, ⟨-, rfl, -⟩ | ⟨j, rfl, hat⟩⟩
        · cases h.symm.trans (hspan.unitVariant?_append rest)
        · exact ⟨j, Nat.add_comm 1 j, hspan, hat⟩

/-- **The positions at which unit variants begin** are as many as are collapsed. -/
theorem exists_starts (ts : List Token) :
    ∃ starts : Finset Nat, (∀ i, i ∈ starts ↔ ∃ name span, OccursAt ts i name span) ∧
      starts.card = (collapse ts).count := by
  induction ts using collapse.induct with
  | case1 ts name' rest h ih =>
      obtain ⟨starts, hstarts, hcard⟩ := ih
      obtain ⟨span', hvariant, rfl⟩ := unitVariant?_eq_some_iff.mp h
      have hzero : 0 ∉ starts.map (addLeftEmbedding span'.length) := by
        simp [hvariant.length_pos.ne']
      refine ⟨insert 0 (starts.map (addLeftEmbedding span'.length)), fun i => ?_, ?_⟩
      · simp only [Finset.mem_insert, Finset.mem_map, addLeftEmbedding_apply, hstarts,
          occursAt_append hvariant]
        constructor
        · rintro (rfl | ⟨j, ⟨name, span, hocc⟩, rfl⟩)
          · exact ⟨name', span', .inl ⟨rfl, rfl, rfl⟩⟩
          · exact ⟨name, span, .inr ⟨j, rfl, hocc⟩⟩
        · rintro ⟨name, span, ⟨rfl, -⟩ | ⟨j, rfl, hocc⟩⟩
          · exact .inl rfl
          · exact .inr ⟨j, ⟨name, span, hocc⟩, rfl⟩
      · rw [Finset.card_insert_of_notMem hzero, Finset.card_map, hcard,
          collapse_of_unitVariant? h]
  | case2 =>
      refine ⟨∅, fun i => iff_of_false (Finset.notMem_empty i) ?_, by simp⟩
      rw [exists_occursAt_iff, List.drop_nil]
      exact Bool.false_ne_true
  | case3 t rest h ih =>
      obtain ⟨starts, hstarts, hcard⟩ := ih
      refine ⟨starts.map (addRightEmbedding 1), fun i => ?_, ?_⟩
      · simp only [Finset.mem_map, addRightEmbedding_apply, hstarts, occursAt_cons h]
        constructor
        · rintro ⟨j, ⟨name, span, hocc⟩, rfl⟩
          exact ⟨name, span, j, rfl, hocc⟩
        · rintro ⟨name, span, j, rfl, hocc⟩
          exact ⟨j, ⟨name, span, hocc⟩, rfl⟩
      · rw [Finset.card_map, hcard, collapse_cons h]

/-! ### What stays -/

/-- Of a unit variant, only its name is neither white space nor one of its marks. -/
theorem IsUnitVariant.filter_eq (h : IsUnitVariant name span) {q : Token → Bool}
    (hblank : ∀ t, t.isWhitespace → q t = false)
    (hmark : ∀ c ∈ ['\x7b', ':', '\x7d'], q (.mark c) = false) :
    span.filter q = [name].filter q := by
  obtain ⟨b₁, b₂, b₃, b₄, b₅, -, hblanks, rfl⟩ := h
  simp only [List.forall_mem_append] at hblanks
  obtain ⟨⟨⟨⟨hb₁, hb₂⟩, hb₃⟩, hb₄⟩, hb₅⟩ := hblanks
  have hnil : ∀ {bs : List Token}, (∀ b ∈ bs, b.isWhitespace) → bs.filter q = [] := fun hbs =>
    List.filter_eq_nil_iff.mpr fun b hb => by simp [hblank b (hbs b hb)]
  have hopen := hmark '\x7b' (by simp)
  have hcolon := hmark ':' (by simp)
  have hclose := hmark '\x7d' (by simp)
  simp [List.filter_cons, List.filter_append, hnil hb₁, hnil hb₂, hnil hb₃, hnil hb₄, hnil hb₅,
    hopen, hcolon, hclose]

/-- **Tokens that are neither white space nor marks of unit variants** stay as they are. -/
theorem filter_collapse {q : Token → Bool} (hblank : ∀ t, t.isWhitespace → q t = false)
    (hmark : ∀ c ∈ ['\x7b', ':', '\x7d'], q (.mark c) = false) (ts : List Token) :
    (collapse ts).tokens.filter q = ts.filter q := by
  induction ts using collapse.induct with
  | case1 ts name rest h ih =>
      obtain ⟨span, hvariant, rfl⟩ := unitVariant?_eq_some_iff.mp h
      rw [collapse_of_unitVariant? h, List.filter_append, hvariant.filter_eq hblank hmark, ← ih,
        ← List.filter_append]
      rfl
  | case2 => rw [collapse_nil]
  | case3 t rest h ih => rw [collapse_cons h, List.filter_cons, List.filter_cons, ih]

/-- The marks of a unit variant. -/
def variantMarks : List Char :=
  ['\x7b', ':', '\x7b', '\x7d', '\x7d']

theorem IsUnitVariant.count_mark (h : IsUnitVariant name span) (c : Char) :
    span.count (.mark c) = variantMarks.count c := by
  obtain ⟨b₁, b₂, b₃, b₄, b₅, hkind, hblanks, rfl⟩ := h
  simp only [List.forall_mem_append] at hblanks
  obtain ⟨⟨⟨⟨hb₁, hb₂⟩, hb₃⟩, hb₄⟩, hb₅⟩ := hblanks
  have hzero : ∀ {bs : List Token}, (∀ b ∈ bs, b.isWhitespace) → bs.count (.mark c) = 0 :=
    fun hbs => List.count_eq_zero.mpr fun hmem => Token.not_isWhitespace_mark c (hbs _ hmem)
  have hname : name ≠ .mark c := by
    rintro rfl
    cases hkind
  have hmark : ∀ d : Char, (Token.mark d == Token.mark c) = (d == c) := by
    intro d
    simp [Token.mark]
  simp [List.count_cons, List.count_append, hzero hb₁, hzero hb₂, hzero hb₃, hzero hb₄, hzero hb₅,
    hname, hmark, variantMarks]

/-- **The marks that disappear** are those of the unit variants. -/
theorem count_mark_collapse (ts : List Token) (c : Char) :
    ts.count (.mark c) =
      (collapse ts).tokens.count (.mark c) + (collapse ts).count * variantMarks.count c := by
  induction ts using collapse.induct with
  | case1 ts name rest h ih =>
      obtain ⟨span, hvariant, rfl⟩ := unitVariant?_eq_some_iff.mp h
      obtain ⟨-, -, -, -, -, hkind, -⟩ := id hvariant
      have hname : name ≠ .mark c := by
        rintro rfl
        cases hkind
      rw [collapse_of_unitVariant? h, List.count_append, hvariant.count_mark, ih,
        List.count_cons_of_ne hname, Nat.add_one_mul]
      omega
  | case2 => simp
  | case3 t rest h ih =>
      rw [collapse_cons h, List.count_cons, List.count_cons, ih]
      exact Nat.add_right_comm _ _ _

/-! ### Both edits -/

/-- What it is for tokens to be **collapsed to** others, with their number. -/
structure CollapsedTo (ts : List Token) (out : Edited) : Prop where
  /-- At every position there is one occurrence at most. -/
  unique : ∀ {i : Nat} {name name' : Token} {span span' : List Token},
    OccursAt ts i name span → OccursAt ts i name' span' → name = name' ∧ span = span'
  /-- Occurrences do not overlap. -/
  disjoint : ∀ {i j : Nat} {name name' : Token} {span span' : List Token},
    OccursAt ts i name span → OccursAt ts j name' span' → i < j → i + span.length ≤ j
  /-- The tokens fall into pieces, and each gives one token: an occurrence its name, and any
  other token itself. Every occurrence is one of the pieces. -/
  replaced : ∃ ps : List Piece, ps.flatMap Piece.source = ts ∧ ps.map Piece.result = out.tokens ∧
    (∀ p ∈ ps, p.Lawful) ∧ ∀ i name span, OccursAt ts i name span ↔
      IsUnitVariant name span ∧ Piece.At ps i ⟨span, name⟩
  /-- The number is that of the positions at which there are occurrences. -/
  count : ∃ starts : Finset Nat, (∀ i, i ∈ starts ↔ ∃ name span, OccursAt ts i name span) ∧
    starts.card = out.count
  /-- Strings and bare runs stay, in their order. -/
  values : out.tokens.filter (fun t => t.kind = .string ∨ t.kind = .bare) =
    ts.filter fun t => t.kind = .string ∨ t.kind = .bare
  /-- Brackets and commas stay, in their order. -/
  separators : out.tokens.filter (fun t => t ∈ [.mark '[', .mark ']', .mark ',']) =
    ts.filter fun t => t ∈ [.mark '[', .mark ']', .mark ',']
  /-- Each occurrence takes two opening braces with it. -/
  braceOpen : ts.count (.mark '\x7b') = out.tokens.count (.mark '\x7b') + out.count * 2
  /-- Each occurrence takes two closing braces with it. -/
  braceClose : ts.count (.mark '\x7d') = out.tokens.count (.mark '\x7d') + out.count * 2
  /-- Each occurrence takes one colon with it. -/
  colon : ts.count (.mark ':') = out.tokens.count (.mark ':') + out.count

/-- What it is for tokens to be **reinterpreted as** others, with the number of those that are
no strings any more. -/
structure ReinterpretedAs (ts : List Token) (out : Edited) : Prop where
  length : out.tokens.length = ts.length
  /-- All tokens but strings stay where they are. -/
  kept : ∀ {i : Nat} {t : Token}, ts[i]? = some t → t.kind ≠ .string → out.tokens[i]? = some t
  /-- Strings give way to the tokens of their literals. -/
  literal : ∀ {i : Nat} {t : Token}, ts[i]? = some t → t.kind = .string →
    out.tokens[i]? = some (Literal.classify t.content).token
  /-- The number is that of the strings that become bare. -/
  count : out.count =
    (ts.zip out.tokens).countP fun p => p.1.kind = .string ∧ p.2.kind = .bare

theorem Literal.kind_token (l : Literal) : l.token.kind = .bare ↔ l.isConverted := by
  cases l <;> simp [token, isConverted]

/-- **Reinterpreting** replaces strings in their places. -/
theorem reinterpret_exact (ts : List Token) : ReinterpretedAs ts (reinterpret ts) where
  length := List.length_map _
  kept h hkind := by simp [reinterpret, h, hkind]
  literal h hkind := by simp [reinterpret, h, hkind]
  count := by
    have hzip : ∀ f : Token → Token, ts.zip (ts.map f) = ts.map fun t => (t, f t) := fun f => by
      rw [← List.zip_map', List.map_id']
    rw [reinterpret, hzip, List.countP_map]
    refine List.countP_congr fun t _ => ?_
    by_cases hkind : t.kind = .string <;> simp [hkind, Literal.kind_token]

/-- **Both edits are exact**, whatever the tokens. Collapsing replaces the unit variants by
their names, all of them and nothing else; reinterpreting replaces strings by their literals. -/
theorem collapse_exact (ts : List Token) :
    CollapsedTo ts (collapse ts) ∧ ∀ us, ReinterpretedAs us (reinterpret us) := by
  have hkind : ∀ t : Token, t.isWhitespace → t.kind = .whitespace := fun t ht => by
    simpa [Token.isWhitespace] using ht
  refine ⟨?_, reinterpret_exact⟩
  exact
    { unique := OccursAt.unique
      disjoint := OccursAt.disjoint
      replaced := exists_pieces ts
      count := exists_starts ts
      values := filter_collapse (fun t ht => by simp [hkind t ht]) (by simp) ts
      separators := filter_collapse (fun t ht => by
        simp [ne_mark_of_isWhitespace ht]) (by simp [Token.mark]) ts
      braceOpen := count_mark_collapse ts '\x7b'
      braceClose := count_mark_collapse ts '\x7d'
      colon := by simpa [variantMarks] using count_mark_collapse ts ':' }

/-- A brace that is never closed stays in front of a unit variant. -/
example : (tokenize "\x7b\x7b\"a\" : \x7b\x7d\x7d".toList).map collapse =
    .ok ⟨[.mark '\x7b', ⟨.string, "\"a\"".toList⟩], 1⟩ := by decide +kernel

end MarketRegistry
