import MarketRegistry.Dump.Normalized
import MarketRegistry.Proofs.Dump.Collapse

/-!
# Normalizing text is normalizing trees

The normalization of a dump knows nothing of json: it edits a flat list of tokens. On json
without backslashes it nevertheless does what the normalization of syntax trees says, token by
token. The bridge is the list of lexemes, which both the tokens and the tree have: the edits
are followed on it, and they leave no two words next to each other, since in a tree no two
values are.

## Main results

* `isChain_cuts_literal` — literals do not run into their neighbours.
* `lexemes_reinterpret` — the lexemes of reinterpreted tokens.
* `exists_normalize_of_read` — the lexemes of normalized text.
* `normalize_of_read` — the normalized text of a json text writes its normalized tree.
-/

namespace MarketRegistry

namespace Token

/-- The token of what a token stands for. -/
def literal (t : Token) : Token :=
  if t.kind = .string then (Literal.classify t.content).token else t

theorem literal_of_string {t : Token} (h : t.kind = .string) :
    t.literal.text = (Literal.classify t.content).render := by
  rw [literal, if_pos h]
  cases Literal.classify t.content <;> rfl

theorem literal_of_ne_string {t : Token} (h : t.kind ≠ .string) : t.literal = t :=
  if_neg h

variable {t u : Token}

theorem Strict.isPlain (h : t.Strict) (hkind : t.kind = .string) :
    ∀ c ∈ t.content, isPlain c := by
  simpa [Strict, hkind] using h

/-- The lexemes of a literal come from the one of its string. -/
theorem lexemes_literal (hl : t.Lawful) (hs : t.Strict) :
    t.literal.lexemes = t.lexemes.flatMap Json.literalLexemes := by
  have keep : ∀ {l : Lexeme}, l.string? = none → t.lexemes = [l] →
      t.lexemes = t.lexemes.flatMap Json.literalLexemes := by
    intro l hnot hlex
    rw [hlex, List.flatMap_singleton]
    cases l <;> first | rfl | simp [Lexeme.string?] at hnot
  rcases hs.lexemes_cases hl with
    ⟨hblank, hlex⟩ | ⟨-, ⟨c, m, rfl, hm, hlex⟩ | ⟨hkind, hlex⟩ | ⟨hkind, hlex⟩⟩
  · have hkind : t.kind = .whitespace := by simpa [isWhitespace] using hblank
    rw [literal_of_ne_string (by simp [hkind]), hlex]
    rfl
  · rw [literal_of_ne_string (by simp)]
    exact keep (Lexeme.string?_of_ofMark? hm) hlex
  · rw [lexemes, literal_of_string hkind,
      Literal.lexemes_render (Literal.sound_classify (hs.isPlain hkind)), hlex]
    simp [Json.literalLexemes, Text.literalJson, Text.literal?, Text.toChars?_ofChars]
  · rw [literal_of_ne_string (by simp [hkind])]
    exact keep (Lexeme.ofWord_of_word _).2 hlex

/-! ### Neighbours -/

/-- A strict token is closed unless it is bare. -/
theorem Strict.closed (hl : t.Lawful) (hs : t.Strict) (hbare : t.kind ≠ .bare) :
    Closed t.text := by
  cases hkind : t.kind with
  | string =>
      rw [(hl.text_eq hkind).1]
      exact closed_quoted (hs.isPlain hkind)
  | whitespace => exact closed_spaces (by simpa [Strict, hkind] using hs)
  | punctuation =>
      obtain ⟨c, m, rfl, hm⟩ := hl.eq_mark hkind
      exact closed_mark hm
  | bare => exact absurd hkind hbare

/-- Outside of strings is where every strict token ends. -/
theorem Strict.outside (hl : t.Lawful) (hs : t.Strict) :
    (Lexing.start.run t.text).Outside := by
  by_cases hbare : t.kind = .bare
  · exact Lexing.Outside.run_word (.inl rfl) (hl.isWordChar hbare).2
  · exact .inl (hs.closed hl hbare).ends

/-- The literal of a token is closed unless it is a word. -/
theorem closed_literal (hl : t.Lawful) (hs : t.Strict)
    (hword : t.kind ≠ .bare ∧ t.kind ≠ .string) : Closed t.literal.text := by
  rw [literal_of_ne_string hword.2]
  exact hs.closed hl hword.1

theorem outside_literal (hl : t.Lawful) (hs : t.Strict) :
    (Lexing.start.run t.literal.text).Outside := by
  by_cases hkind : t.kind = .string
  · have hsound := Literal.sound_classify (hs.isPlain hkind)
    rw [literal_of_string hkind]
    cases hlit : Literal.classify t.content with
    | integer i =>
        rw [hlit] at hsound
        have hi := natAbs_lt_of_isInt128 hsound
        exact .inr ⟨_, by rw [Literal.render, run_start_number (Number.ofChars?_signedDecimal hi)]⟩
    | key a => exact .inl (Literal.closed_render (l := .key a) trivial (by simp)).ends
    | text cs =>
        rw [hlit] at hsound
        exact .inl (Literal.closed_render hsound (by simp)).ends
  · rw [literal_of_ne_string hkind]
    exact hs.outside hl

theorem literal_text_ne_nil (hl : t.Lawful) : t.literal.text ≠ [] := by
  by_cases hkind : t.kind = .string
  · rw [literal_of_string hkind]
    cases Literal.classify t.content with
    | integer i =>
        rw [Literal.render, Numeral.signedDecimal]
        split
        · simp
        · exact Nat.toDigits_ne_nil
    | key a => simp [Literal.render, Literal.renderBytes]
    | text cs => simp [Literal.render]
  · rw [literal_of_ne_string hkind]
    exact hl.text_ne_nil

/-- Strict tokens that stand apart may be cut. -/
theorem Apart.cuts (ht : t.Lawful ∧ t.Strict) (hu : u.Lawful ∧ u.Strict) (h : t.Apart u) :
    Cuts t.text u.text := by
  by_cases hbare : t.kind = .bare
  · refine (hu.2.closed hu.1 fun hbare' => ?_).cuts_right (ht.2.outside ht.1)
    exact h ⟨hbare.trans hbare'.symm, .inr hbare⟩
  · exact (ht.2.closed ht.1 hbare).cuts_left _

/-- A bare token or a string whose lexeme is proper is a value on its own. -/
theorem isValue_of_lexemes (hl : t.Lawful) (hs : t.Strict)
    (hword : ¬(t.kind ≠ .bare ∧ t.kind ≠ .string)) (hproper : ∀ l ∈ t.lexemes, l.isProper) :
    ∃ l, t.lexemes = [l] ∧ l.startsValue ∧ l.endsValue := by
  by_cases hkind : t.kind = .string
  · exact ⟨_, hs.lexemes_string hl hkind, rfl, rfl⟩
  · have hbare : t.kind = .bare := by
      by_contra hbare
      exact hword ⟨hbare, hkind⟩
    have hlex := hl.lexemes_bare hbare
    rw [hlex, List.forall_mem_singleton] at hproper
    have hmark := (Lexeme.ofWord_of_word t.text).1
    refine ⟨_, hlex, ?_⟩
    cases hword : Lexeme.ofWord t.text <;> simp_all [Lexeme.markChar?, Lexeme.isProper,
      Lexeme.startsValue, Lexeme.endsValue]

end Token

/-! ### Lists of tokens -/

variable {ts : List Token}

/-- The lexemes of tokens that stand apart are those of their text. -/
theorem lexemes_of_apart (hts : AllStrict ts) (happart : ts.IsChain Token.Apart) :
    lexemes (plainText ts) = ts.flatMap Token.lexemes :=
  lexemes_plainText (fun t ht => (hts t ht).1.text_ne_nil)
    (happart.imp_of_mem_imp fun _ _ ht hu => Token.Apart.cuts (hts _ ht) (hts _ hu))

/-- **Literals do not run into their neighbours** where the lexemes may follow one another: two
words next to each other would be two values. -/
theorem isChain_cuts_literal (hts : AllStrict ts)
    (hproper : ∀ l ∈ ts.flatMap Token.lexemes, l.isProper)
    (hfollow : (ts.flatMap Token.lexemes).IsChain Lexeme.MayFollow) :
    ts.IsChain fun t u => Cuts t.literal.text u.literal.text := by
  induction ts with
  | nil => exact .nil
  | cons t ts ih =>
      have ht := hts t List.mem_cons_self
      rw [List.flatMap_cons] at hproper hfollow
      have hrest := ih (hts.of_suffix (List.suffix_cons _ _))
        (fun l hl => hproper l (List.mem_append_right _ hl)) hfollow.right_of_append
      refine List.isChain_cons.mpr ⟨fun u hu => ?_, hrest⟩
      obtain ⟨ts', rfl⟩ : ∃ ts', ts = u :: ts' := List.head?_eq_some_iff.mp hu
      have hu := hts u (List.mem_cons_of_mem t List.mem_cons_self)
      by_cases htw : t.kind ≠ .bare ∧ t.kind ≠ .string
      · exact (Token.closed_literal ht.1 ht.2 htw).cuts_left _
      · by_cases huw : u.kind ≠ .bare ∧ u.kind ≠ .string
        · exact (Token.closed_literal hu.1 hu.2 huw).cuts_right (Token.outside_literal ht.1 ht.2)
        · obtain ⟨l, hl, -, hends⟩ := Token.isValue_of_lexemes ht.1 ht.2 htw
            fun l hl => hproper l (List.mem_append_left _ hl)
          obtain ⟨m, hm, hstarts, -⟩ := Token.isValue_of_lexemes hu.1 hu.2 huw
            fun m hm => hproper m (by simp [hm])
          rw [hl, List.flatMap_cons, hm, List.singleton_append, List.singleton_append,
            List.isChain_cons_cons] at hfollow
          exact absurd ⟨hends, hstarts⟩ hfollow.1.1

/-- **The lexemes of reinterpreted tokens.** -/
theorem lexemes_reinterpret (hts : AllStrict ts)
    (hproper : ∀ l ∈ ts.flatMap Token.lexemes, l.isProper)
    (hfollow : (ts.flatMap Token.lexemes).IsChain Lexeme.MayFollow) :
    lexemes (plainText (reinterpret ts).tokens) =
      (ts.flatMap Token.lexemes).flatMap Json.literalLexemes := by
  have htokens : (reinterpret ts).tokens = ts.map Token.literal := rfl
  rw [htokens, lexemes_plainText, List.flatMap_map, List.flatMap_assoc]
  · exact List.flatMap_congr fun t ht => Token.lexemes_literal (hts t ht).1 (hts t ht).2
  · intro u hu
    obtain ⟨t, ht, rfl⟩ := List.mem_map.mp hu
    exact Token.literal_text_ne_nil (hts t ht).1
  · exact (List.isChain_map _).mpr (isChain_cuts_literal hts hproper hfollow)

/-- The converted strings are counted on the lexemes. -/
theorem count_reinterpret (hts : AllStrict ts) :
    (reinterpret ts).count =
      ((ts.flatMap Token.lexemes).filterMap Lexeme.string?).countP Text.isConverted := by
  change ts.countP _ = _
  induction ts with
  | nil => rfl
  | cons t ts ih =>
      have ht := hts t List.mem_cons_self
      rw [List.countP_cons, ih (hts.of_suffix (List.suffix_cons _ _)), List.flatMap_cons,
        List.filterMap_append, List.countP_append, Nat.add_comm]
      congr 1
      rcases ht.2.lexemes_cases ht.1 with
        ⟨hblank, hlex⟩ | ⟨-, ⟨c, m, rfl, hm, hlex⟩ | ⟨hkind, hlex⟩ | ⟨hkind, hlex⟩⟩
      · have hkind : t.kind = .whitespace := by simpa [Token.isWhitespace] using hblank
        simp [hlex, hkind]
      · simp [hlex, Lexeme.string?_of_ofMark? hm]
      · simp [hlex, hkind, Lexeme.string?, Text.isConverted, Text.literal?,
          Text.toChars?_ofChars]
      · simp [hlex, hkind, (Lexeme.ofWord_of_word t.text).2]

/-! ### Whole dumps -/

/-- **The lexemes of normalized text** are those of the collapsed tree with its strings replaced. -/
theorem exists_normalize_of_read {dump : List Char} {tree : Json}
    (hread : Json.read dump = .ok tree) (hslash : '\\' ∉ dump) :
    ∃ out, normalize dump = ⟨[.normalized tree.unitVariants
        (tree.strings.countP Text.isConverted)], .ok out⟩ ∧
      lexemes out = tree.collapsed.toLexemes.flatMap Json.literalLexemes := by
  obtain ⟨ts, htokens⟩ := exists_tokenize_of_read hread hslash
  have hts : AllStrict ts := by
    intro t ht
    exact ⟨lawful_of_tokenize htokens t ht, strict_of_tokenize hread hslash htokens t ht⟩
  have hus : AllStrict (collapse ts).tokens := by
    intro t ht
    exact hts t (collapse_subset ts ht)
  have hlex : ts.flatMap Token.lexemes = tree.toLexemes := by
    rw [← lexemes_of_apart hts (apart_of_tokenize htokens), plainText_of_tokenize htokens]
    exact Json.ofLexemes_eq_ok_iff.mp hread
  -- the tree is reached through the lexemes of the tokens, before and after the collapse
  have hcollapse : (collapse ts).tokens.flatMap Token.lexemes = tree.collapsed.toLexemes ∧
      (collapse ts).count = tree.unitVariants := by
    have h := Json.collapseLexemes_toLexemes tree []
    rw [List.append_nil, ← hlex, collapseLexemes_flatMap hts, Prod.mk.injEq] at h
    simpa [Json.collapseLexemes] using h
  have hout := lexemes_reinterpret hus
    (by rw [hcollapse.1]; exact fun l => Json.isProper_of_mem_toLexemes _)
    (by rw [hcollapse.1]; exact Json.isChain_toLexemes _)
  have hcount := count_reinterpret hus
  rw [hcollapse.1, Json.filterMap_string?_collapsed] at hcount
  rw [hcollapse.1] at hout
  refine ⟨_, ?_, hout⟩
  rw [← hcollapse.2, ← hcount]
  simp only [normalize, htokens]
  rfl

/-- Normalized text writes the normalized tree if no key is converted. -/
theorem read_of_lexemes {tree : Json} {out : List Char}
    (h : lexemes out = tree.collapsed.toLexemes.flatMap Json.literalLexemes)
    (hkeys : ∀ k ∈ tree.objectKeys, ¬k.isConverted) : Json.read out = .ok tree.normalized := by
  rw [Json.read, h, ← Json.toLexemes_normalized tree hkeys]
  exact Json.ofLexemes_eq_ok_iff.mpr rfl

/-- Normalized text that is json has no converted key. -/
theorem not_isConverted_of_lexemes {tree t : Json} {out : List Char}
    (h : lexemes out = tree.collapsed.toLexemes.flatMap Json.literalLexemes)
    (hread : Json.read out = .ok t) : ∀ k ∈ tree.objectKeys, ¬k.isConverted := by
  intro k hk hconv
  have hchain := Json.isChain_toLexemes t
  rw [← Json.ofLexemes_eq_ok_iff.mp hread, h] at hchain
  exact Json.not_isChain_of_isConverted (Json.infix_of_mem_objectKeys tree hk) hconv hchain

/-- **Normalizing text is normalizing trees.** On json without backslashes, normalization
succeeds. What comes out is json unless a key of an object that is no unit variant is
converted, and then it writes the normalized tree. The record counts the unit variants of the
tree and its converted strings, keys included. -/
theorem normalize_of_read {dump : List Char} {tree : Json} (hread : Json.read dump = .ok tree)
    (hslash : '\\' ∉ dump) :
    ∃ out, normalize dump = ⟨[.normalized tree.unitVariants
        (tree.strings.countP Text.isConverted)], .ok out⟩ ∧
      ((∃ t, Json.read out = .ok t) ↔ ∀ k ∈ tree.objectKeys, ¬k.isConverted) ∧
      ((∀ k ∈ tree.objectKeys, ¬k.isConverted) → Json.read out = .ok tree.normalized) := by
  obtain ⟨out, hnormalize, hout⟩ := exists_normalize_of_read hread hslash
  refine ⟨out, hnormalize, ⟨?_, fun h => ⟨_, read_of_lexemes hout h⟩⟩, read_of_lexemes hout⟩
  rintro ⟨t, ht⟩
  exact not_isConverted_of_lexemes hout ht

/-- A dump with a unit variant, a quoted integer and a key whose casing is fixed. -/
def sampleDump : List Char :=
  ("\x7b\"oracleSource\": \x7b\"pythPull\": \x7b\x7d\x7d, " ++
    "\"lastTwap5Min\": [\"0F\", null]\x7d").toList

/-- The syntax tree of the dump. -/
def sampleTree : Json :=
  .object [(.ofString "oracleSource", .object [(.ofString "pythPull", .object [])]),
    (.ofString "lastTwap5Min", .array [.string (.ofString "0F"), .null])]

theorem normalize_sampleDump : Json.read sampleDump = .ok sampleTree ∧ '\\' ∉ sampleDump ∧
    ∃ out, normalize sampleDump = ⟨[.normalized 1 1], .ok out⟩ ∧
      Json.read out = .ok (.object [(.ofString "oracleSource", .string (.ofString "pythPull")),
        (.ofString "lastTwap5min", .array [.number (.int 15), .null])]) := by
  have hread : Json.read sampleDump = .ok sampleTree := by rfl
  have hslash : '\\' ∉ sampleDump := by decide
  obtain ⟨out, hout, -, hgood⟩ := normalize_of_read hread hslash
  refine ⟨hread, hslash, out, hout, hgood ?_⟩
  decide

end MarketRegistry
