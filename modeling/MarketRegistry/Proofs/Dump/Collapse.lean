import MarketRegistry.Dump.UnitVariant
import MarketRegistry.Proofs.Dump.Lexemes
import MarketRegistry.Proofs.Dump.Tree

/-!
# Collapsed tokens

Collapsing unit variants on tokens is collapsing them on lexemes, as long as the white space
between the elements of a unit variant is that of json.

## Main results

* `IsUnitVariant`, `unitVariant?_eq_some_iff` — the tokens of a unit variant.
* `collapse_subset` — collapsing makes no tokens.
* `collapseLexemes_flatMap` — collapsed tokens have the collapsed lexemes.
-/

namespace MarketRegistry

variable {ts rest : List Token} {t : Token}

/-! ### The tokens of a unit variant -/

theorem afterMark?_eq_some {c : Char} : afterMark? c ts = some rest ↔ ts = .mark c :: rest := by
  cases ts with
  | nil => simp [afterMark?]
  | cons t ts => simp [afterMark?]

theorem string?_eq_some : string? ts = some (t, rest) ↔ ts = t :: rest ∧ t.kind = .string := by
  cases ts with
  | nil => simp [string?]
  | cons u ts =>
      simp only [string?, Option.ite_none_right_eq_some, Option.some.injEq, Prod.mk.injEq,
        List.cons.injEq]
      constructor
      · rintro ⟨hkind, rfl, rfl⟩
        exact ⟨⟨rfl, rfl⟩, hkind⟩
      · rintro ⟨⟨rfl, rfl⟩, hkind⟩
        exact ⟨hkind, rfl, rfl⟩

/-- **The tokens of a unit variant**: its string, two pairs of braces and a colon, with white
space between them. -/
theorem unitVariant?_eq_some : unitVariant? ts = some (t, rest) ↔
    ∃ t₁ t₂ t₃ t₄ t₅, ts = .mark '\x7b' :: t₁ ∧ (dropBlanks t₁ = t :: t₂ ∧ t.kind = .string) ∧
      dropBlanks t₂ = .mark ':' :: t₃ ∧ dropBlanks t₃ = .mark '\x7b' :: t₄ ∧
      dropBlanks t₄ = .mark '\x7d' :: t₅ ∧ dropBlanks t₅ = .mark '\x7d' :: rest := by
  simp only [unitVariant?, Option.bind_eq_bind, Option.bind_eq_some_iff, Prod.exists,
    afterMark?_eq_some, string?_eq_some, Option.pure_def, Option.some.injEq, Prod.mk.injEq]
  constructor
  · rintro ⟨t₁, h₁, t, t₂, h₂, t₃, h₃, t₄, h₄, t₅, h₅, rest, h₆, rfl, rfl⟩
    exact ⟨t₁, t₂, t₃, t₄, t₅, h₁, h₂, h₃, h₄, h₅, h₆⟩
  · rintro ⟨t₁, t₂, t₃, t₄, t₅, h₁, h₂, h₃, h₄, h₅, h₆⟩
    exact ⟨t₁, h₁, t, t₂, h₂, t₃, h₃, t₄, h₄, t₅, h₅, rest, h₆, rfl, rfl⟩

theorem suffix_of_dropBlanks (h : dropBlanks ts = t :: rest) : t :: rest <:+ ts :=
  h ▸ List.dropWhile_suffix _

theorem not_isWhitespace_of_dropBlanks (h : dropBlanks ts = t :: rest) : ¬t.isWhitespace := by
  have hhead := List.head?_dropWhile_not Token.isWhitespace ts
  rw [show ts.dropWhile Token.isWhitespace = t :: rest from h] at hhead
  simpa using hhead

/-- White space in front of a token. -/
theorem exists_blanks_of_dropBlanks (h : dropBlanks ts = t :: rest) :
    ∃ bs, ts = bs ++ t :: rest ∧ ∀ b ∈ bs, b.isWhitespace :=
  ⟨ts.takeWhile Token.isWhitespace, by
    rw [← h, dropBlanks, List.takeWhile_append_dropWhile],
    fun _ hb => List.mem_takeWhile_imp hb⟩

theorem dropBlanks_append {bs : List Token} (hbs : ∀ b ∈ bs, b.isWhitespace)
    (ht : ¬t.isWhitespace) : dropBlanks (bs ++ t :: rest) = t :: rest := by
  rw [dropBlanks, List.dropWhile_append_of_pos hbs, List.dropWhile_cons_of_neg ht]

theorem Token.not_isWhitespace_mark (c : Char) : ¬(mark c).isWhitespace := by
  simp [isWhitespace]

/-- The **tokens of a unit variant** of a name: its string and five marks, with white space
between them. -/
def IsUnitVariant (name : Token) (span : List Token) : Prop :=
  ∃ b₁ b₂ b₃ b₄ b₅ : List Token, name.kind = .string ∧
    (∀ b ∈ b₁ ++ b₂ ++ b₃ ++ b₄ ++ b₅, b.isWhitespace) ∧
    span = .mark '\x7b' :: (b₁ ++ name :: (b₂ ++ .mark ':' :: (b₃ ++ .mark '\x7b' ::
      (b₄ ++ .mark '\x7d' :: (b₅ ++ [.mark '\x7d'])))))

/-- **Unit variants** are recognized by their tokens. -/
theorem unitVariant?_eq_some_iff : unitVariant? ts = some (t, rest) ↔
    ∃ span, IsUnitVariant t span ∧ ts = span ++ rest := by
  constructor
  · intro h
    obtain ⟨t₁, t₂, t₃, t₄, t₅, rfl, ⟨h₁, hkind⟩, h₂, h₃, h₄, h₅⟩ := unitVariant?_eq_some.mp h
    obtain ⟨b₁, rfl, hb₁⟩ := exists_blanks_of_dropBlanks h₁
    obtain ⟨b₂, rfl, hb₂⟩ := exists_blanks_of_dropBlanks h₂
    obtain ⟨b₃, rfl, hb₃⟩ := exists_blanks_of_dropBlanks h₃
    obtain ⟨b₄, rfl, hb₄⟩ := exists_blanks_of_dropBlanks h₄
    obtain ⟨b₅, rfl, hb₅⟩ := exists_blanks_of_dropBlanks h₅
    refine ⟨_, ⟨b₁, b₂, b₃, b₄, b₅, hkind, ?_, rfl⟩, by simp⟩
    simp only [List.forall_mem_append]
    exact ⟨⟨⟨⟨hb₁, hb₂⟩, hb₃⟩, hb₄⟩, hb₅⟩
  · rintro ⟨span, ⟨b₁, b₂, b₃, b₄, b₅, hkind, hblank, rfl⟩, rfl⟩
    simp only [List.forall_mem_append] at hblank
    obtain ⟨⟨⟨⟨hb₁, hb₂⟩, hb₃⟩, hb₄⟩, hb₅⟩ := hblank
    have hname : ¬t.isWhitespace := by simp [Token.isWhitespace, hkind]
    have hmark := Token.not_isWhitespace_mark
    simp only [List.cons_append, List.append_assoc, List.nil_append]
    exact unitVariant?_eq_some.mpr ⟨_, _, _, _, _, rfl, ⟨dropBlanks_append hb₁ hname, hkind⟩,
      dropBlanks_append hb₂ (hmark _), dropBlanks_append hb₃ (hmark _),
      dropBlanks_append hb₄ (hmark _), dropBlanks_append hb₅ (hmark _)⟩

/-- A unit variant is a piece of the tokens, and its string is one of them. -/
theorem suffix_of_unitVariant? (h : unitVariant? ts = some (t, rest)) : t ∈ ts ∧ rest <:+ ts := by
  obtain ⟨span, ⟨b₁, b₂, b₃, b₄, b₅, -, -, rfl⟩, rfl⟩ := unitVariant?_eq_some_iff.mp h
  exact ⟨by simp, List.suffix_append _ _⟩

@[simp]
theorem collapse_nil : collapse [] = ⟨[], 0⟩ := by
  rw [collapse]
  rfl

theorem collapse_of_unitVariant? (h : unitVariant? ts = some (t, rest)) :
    collapse ts = ⟨t :: (collapse rest).tokens, (collapse rest).count + 1⟩ := by
  rw [collapse]
  split
  · rename_i t' rest' h'
    cases h.symm.trans h'
    rfl
  · rename_i h'
    cases h.symm.trans h'

theorem collapse_cons (h : unitVariant? (t :: rest) = none) :
    collapse (t :: rest) = ⟨t :: (collapse rest).tokens, (collapse rest).count⟩ := by
  rw [collapse]
  split
  · rename_i h'
    cases h.symm.trans h'
  · rfl

/-- **Collapsing makes no tokens.** -/
theorem collapse_subset (ts : List Token) : (collapse ts).tokens ⊆ ts := by
  induction ts using collapse.induct with
  | case1 ts t rest h ih =>
      obtain ⟨ht, hrest⟩ := suffix_of_unitVariant? h
      rw [collapse_of_unitVariant? h]
      exact List.cons_subset.mpr ⟨ht, List.Subset.trans ih hrest.subset⟩
  | case2 => simp
  | case3 t rest h ih =>
      rw [collapse_cons h]
      exact List.cons_subset_cons _ ih

/-! ### The lexemes of collapsed tokens -/

/-- Tokens that are pieces of json. -/
def AllStrict (ts : List Token) : Prop :=
  ∀ t ∈ ts, t.Lawful ∧ t.Strict

theorem AllStrict.of_suffix (h : AllStrict ts) (hrest : rest <:+ ts) : AllStrict rest :=
  fun t ht => h t (hrest.subset ht)

namespace Token

/-- Every strict token has one lexeme, or is white space and has none. -/
theorem Strict.lexemes_cases (hl : t.Lawful) (hs : t.Strict) :
    (t.isWhitespace ∧ t.lexemes = []) ∨ ¬t.isWhitespace ∧
      ((∃ c m, t = mark c ∧ Lexeme.ofMark? c = some m ∧ t.lexemes = [m]) ∨
        (t.kind = .string ∧ t.lexemes = [.string (Text.ofChars t.content)]) ∨
        (t.kind = .bare ∧ t.lexemes = [.ofWord t.text])) := by
  cases hkind : t.kind with
  | string =>
      exact .inr ⟨by simp [isWhitespace, hkind], .inr (.inl ⟨rfl, hs.lexemes_string hl hkind⟩)⟩
  | whitespace => exact .inl ⟨by simp [isWhitespace, hkind], hs.lexemes_whitespace hkind⟩
  | punctuation =>
      obtain ⟨c, m, rfl, hm⟩ := hl.eq_mark hkind
      exact .inr ⟨by simp [isWhitespace], .inl ⟨c, m, rfl, hm, lexemes_mark hm⟩⟩
  | bare => exact .inr ⟨by simp [isWhitespace, hkind], .inr (.inr ⟨rfl, hl.lexemes_bare hkind⟩)⟩

/-- A strict token that is no white space has one lexeme. -/
theorem Strict.exists_lexemes (hl : t.Lawful) (hs : t.Strict) (hblank : ¬t.isWhitespace) :
    ∃ l, t.lexemes = [l] := by
  rcases hs.lexemes_cases hl with ⟨h, -⟩ | ⟨-, ⟨_, _, -, -, h⟩ | ⟨-, h⟩ | ⟨-, h⟩⟩
  · exact absurd h hblank
  · exact ⟨_, h⟩
  · exact ⟨_, h⟩
  · exact ⟨_, h⟩

end Token

theorem flatMap_dropBlanks (hts : AllStrict ts) :
    (dropBlanks ts).flatMap Token.lexemes = ts.flatMap Token.lexemes := by
  induction ts with
  | nil => rfl
  | cons t ts ih =>
      have ht := hts t List.mem_cons_self
      rcases ht.2.lexemes_cases ht.1 with ⟨hblank, hlex⟩ | ⟨hblank, -⟩
      · rw [dropBlanks, List.dropWhile_cons_of_pos hblank, List.flatMap_cons, hlex,
          List.nil_append]
        exact ih (hts.of_suffix (List.suffix_cons _ _))
      · rw [dropBlanks, List.dropWhile_cons_of_neg hblank]

/-- The first lexeme is that of the first token that is no white space. -/
theorem exists_dropBlanks (hts : AllStrict ts) {l : Lexeme} {ls : List Lexeme}
    (h : ts.flatMap Token.lexemes = l :: ls) :
    ∃ t rest, dropBlanks ts = t :: rest ∧ t.lexemes = [l] ∧ rest.flatMap Token.lexemes = ls := by
  rw [← flatMap_dropBlanks hts] at h
  cases hdrop : dropBlanks ts with
  | nil => simp [hdrop] at h
  | cons t rest =>
      have hmem : t ∈ ts := (suffix_of_dropBlanks hdrop).subset List.mem_cons_self
      have hnot := not_isWhitespace_of_dropBlanks hdrop
      rw [hdrop, List.flatMap_cons] at h
      obtain ⟨l', hl'⟩ := (hts t hmem).2.exists_lexemes (hts t hmem).1 hnot
      rw [hl', List.singleton_append, List.cons.injEq] at h
      exact ⟨t, rest, rfl, by rw [hl', h.1], h.2⟩

namespace Token

/-- Only a punctuation token has a punctuation lexeme. -/
theorem Strict.eq_mark_of_lexemes (hl : t.Lawful) (hs : t.Strict) {c : Char} {m : Lexeme}
    (hc : Lexeme.ofMark? c = some m) (h : t.lexemes = [m]) : t = mark c := by
  have hm := Lexeme.markChar?_of_ofMark? hc
  rcases hs.lexemes_cases hl with ⟨-, h'⟩ | ⟨-, ⟨d, m', rfl, hd, h'⟩ | ⟨-, h'⟩ | ⟨-, h'⟩⟩
  · simp [h'] at h
  · rw [h', List.cons.injEq] at h
    rw [← h.1, Lexeme.markChar?_of_ofMark? hd, Option.some.injEq] at hm
    rw [hm]
  · rw [h', List.cons.injEq] at h
    simp [← h.1, Lexeme.markChar?] at hm
  · rw [h', List.cons.injEq] at h
    rw [← h.1, (Lexeme.ofWord_of_word _).1] at hm
    simp at hm

/-- Only a string token has a string lexeme. -/
theorem Strict.kind_of_lexemes (hl : t.Lawful) (hs : t.Strict) {s : Text}
    (h : t.lexemes = [.string s]) : t.kind = .string := by
  rcases hs.lexemes_cases hl with ⟨-, h'⟩ | ⟨-, ⟨d, m, rfl, hd, h'⟩ | ⟨hkind, -⟩ | ⟨-, h'⟩⟩
  · simp [h'] at h
  · rw [h', List.cons.injEq] at h
    have hm := Lexeme.markChar?_of_ofMark? hd
    simp [h.1, Lexeme.markChar?] at hm
  · exact hkind
  · rw [h', List.cons.injEq] at h
    have hword := (Lexeme.ofWord_of_word t.text).2
    simp [h.1, Lexeme.string?] at hword

end Token

/-- What is left after white space and a token has the lexemes after that token's. -/
theorem AllStrict.of_dropBlanks (hts : AllStrict ts) (h : dropBlanks ts = t :: rest) :
    AllStrict rest ∧ t.Lawful ∧ t.Strict ∧
      ts.flatMap Token.lexemes = t.lexemes ++ rest.flatMap Token.lexemes := by
  have hsuffix := hts.of_suffix (suffix_of_dropBlanks h)
  have ht := hsuffix t List.mem_cons_self
  refine ⟨hsuffix.of_suffix (List.suffix_cons _ _), ht.1, ht.2, ?_⟩
  rw [← flatMap_dropBlanks hts, h, List.flatMap_cons]

/-- The lexemes of a unit variant. -/
theorem flatMap_of_unitVariant? (hts : AllStrict ts) (h : unitVariant? ts = some (t, rest)) :
    ∃ k, t.lexemes = [.string k] ∧ ts.flatMap Token.lexemes =
      .braceOpen :: .string k :: .colon :: .braceOpen :: .braceClose :: .braceClose ::
        rest.flatMap Token.lexemes := by
  obtain ⟨t₁, t₂, t₃, t₄, t₅, rfl, ⟨h₂, hkind⟩, h₃, h₄, h₅, h₆⟩ := unitVariant?_eq_some.mp h
  obtain ⟨hs₂, hl, hs, hlex₁⟩ := (hts.of_suffix (List.suffix_cons _ _)).of_dropBlanks h₂
  obtain ⟨hs₃, -, -, hlex₂⟩ := hs₂.of_dropBlanks h₃
  obtain ⟨hs₄, -, -, hlex₃⟩ := hs₃.of_dropBlanks h₄
  obtain ⟨hs₅, -, -, hlex₄⟩ := hs₄.of_dropBlanks h₅
  obtain ⟨-, -, -, hlex₅⟩ := hs₅.of_dropBlanks h₆
  refine ⟨_, hs.lexemes_string hl hkind, ?_⟩
  rw [List.flatMap_cons, hlex₁, hlex₂, hlex₃, hlex₄, hlex₅, hs.lexemes_string hl hkind,
    Token.lexemes_mark rfl, Token.lexemes_mark rfl, Token.lexemes_mark rfl]
  rfl

/-- A punctuation lexeme in front is that of a punctuation token. -/
theorem AllStrict.exists_mark (hts : AllStrict ts) {c : Char} {m : Lexeme} {ls : List Lexeme}
    (hc : Lexeme.ofMark? c = some m) (h : ts.flatMap Token.lexemes = m :: ls) :
    ∃ rest, dropBlanks ts = .mark c :: rest ∧ AllStrict rest ∧
      rest.flatMap Token.lexemes = ls := by
  obtain ⟨t, rest, hdrop, hlex, hrest⟩ := exists_dropBlanks hts h
  obtain ⟨hall, hl, hs, -⟩ := hts.of_dropBlanks hdrop
  rw [hs.eq_mark_of_lexemes hl hc hlex] at hdrop
  exact ⟨rest, hdrop, hall, hrest⟩

/-- Six lexemes of a unit variant come from the tokens of one. -/
theorem exists_unitVariant? (hts : AllStrict (t :: rest)) (hblank : ¬t.isWhitespace) {k : Text}
    {ls : List Lexeme} (h : (t :: rest).flatMap Token.lexemes =
      .braceOpen :: .string k :: .colon :: .braceOpen :: .braceClose :: .braceClose :: ls) :
    ∃ r, unitVariant? (t :: rest) = some r := by
  obtain ⟨t₁, hdrop, hs₁, h₁⟩ := hts.exists_mark (c := '\x7b') rfl h
  rw [dropBlanks, List.dropWhile_cons_of_neg hblank] at hdrop
  obtain ⟨v, t₂, h₂, hv, hlex₂⟩ := exists_dropBlanks hs₁ h₁
  obtain ⟨hs₂, hl, hs, -⟩ := hs₁.of_dropBlanks h₂
  obtain ⟨t₃, h₃, hs₃, hlex₃⟩ := hs₂.exists_mark (c := ':') rfl hlex₂
  obtain ⟨t₄, h₄, hs₄, hlex₄⟩ := hs₃.exists_mark (c := '\x7b') rfl hlex₃
  obtain ⟨t₅, h₅, hs₅, hlex₅⟩ := hs₄.exists_mark (c := '\x7d') rfl hlex₄
  obtain ⟨t₆, h₆, -, -⟩ := hs₅.exists_mark (c := '\x7d') rfl hlex₅
  exact ⟨(v, t₆), unitVariant?_eq_some.mpr ⟨t₁, t₂, t₃, t₄, t₅, hdrop,
    ⟨h₂, hs.kind_of_lexemes hl hv⟩, h₃, h₄, h₅, h₆⟩⟩

/-- A lexeme that is not the first of a unit variant stays. -/
theorem Json.collapseLexemes_cons_of_forall {l : Lexeme} {ls : List Lexeme}
    (h : ∀ k ls', l :: ls ≠ .braceOpen :: .string k :: .colon :: .braceOpen :: .braceClose ::
      .braceClose :: ls') :
    collapseLexemes (l :: ls) = (l :: (collapseLexemes ls).1, (collapseLexemes ls).2) := by
  rw [collapseLexemes]
  rintro k ls' rfl rfl
  exact h k ls' rfl

/-- **Collapsed tokens** have the collapsed lexemes. -/
theorem collapseLexemes_flatMap (hts : AllStrict ts) :
    Json.collapseLexemes (ts.flatMap Token.lexemes) =
      ((collapse ts).tokens.flatMap Token.lexemes, (collapse ts).count) := by
  induction ts using collapse.induct with
  | case1 ts t rest h ih =>
      obtain ⟨k, hk, hlex⟩ := flatMap_of_unitVariant? hts h
      rw [hlex, collapse_of_unitVariant? h, Json.collapseLexemes,
        ih (hts.of_suffix (suffix_of_unitVariant? h).2), List.flatMap_cons, hk]
      rfl
  | case2 => simp [Json.collapseLexemes]
  | case3 t rest h ih =>
      have ih := ih (hts.of_suffix (List.suffix_cons _ _))
      have ht := hts t List.mem_cons_self
      rw [collapse_cons h, List.flatMap_cons, List.flatMap_cons]
      rcases ht.2.lexemes_cases ht.1 with ⟨-, hlex⟩ | ⟨hblank, -⟩
      · rw [hlex, List.nil_append, List.nil_append, ih]
      · obtain ⟨l, hl⟩ := ht.2.exists_lexemes ht.1 hblank
        rw [hl, List.singleton_append, List.singleton_append,
          Json.collapseLexemes_cons_of_forall, ih]
        intro k ls' heq
        have hlex : (t :: rest).flatMap Token.lexemes = .braceOpen :: .string k :: .colon ::
            .braceOpen :: .braceClose :: .braceClose :: ls' := by
          rw [List.flatMap_cons, hl, List.singleton_append, heq]
        obtain ⟨r, hr⟩ := exists_unitVariant? hts hblank hlex
        rw [h] at hr
        cases hr

end MarketRegistry
