import MarketRegistry.Proofs.Dump.Rewriting
import MarketRegistry.Proofs.Json.Alike

/-!
# The edits of a dump

The normalization of a dump as a list of edits from left to right: characters that are kept, up
to the casing fixes, quoted literals that are converted, and unit variants that collapse. The
sources of the edits make up the dump and their results the normalized text.

## Main results

* `Edit`, `edits` — the edits of a dump, given as its tokens.
* `edits_spec` — what they make up, and what is known of each of them.
-/

namespace MarketRegistry

/-- A quoted text. -/
def quote (cs : List Char) : List Char :=
  '"' :: cs ++ ['"']

/-- An **edit**: a character that is kept, up to its case, the content of a quoted literal that
is converted, or the name of a unit variant with the text before and behind its string. -/
inductive Edit where
  | keep (c d : Char)
  | literal (content : List Char)
  | variant (before name behind : List Char)

namespace Edit

/-- What stands in the dump. -/
def source : Edit → List Char
  | keep c _ => [c]
  | literal content => quote content
  | variant before name behind => before ++ quote name ++ behind

/-- What stands in the normalized text. -/
def result : Edit → List Char
  | keep _ d => [d]
  | literal content => (Literal.classify content).render
  | variant _ name _ => (Literal.classify name).render

end Edit

/-- Whether a token is no string. -/
def Token.isNoString (t : Token) : Bool :=
  t.kind != .string

/-- The edits of a token outside of unit variants. -/
def Token.edits (t : Token) : List Edit :=
  if t.kind = .string ∧ (Literal.classify t.content).isConverted then [.literal t.content]
  else List.zipWith .keep t.text t.literal.text

/-- The **edits** of a dump. -/
def edits (ts : List Token) : List Edit :=
  match _h : unitVariant? ts with
  | some (variant, rest) =>
    let taken := ts.take (ts.length - rest.length)
    .variant (plainText (taken.takeWhile Token.isNoString)) variant.content
      (plainText ((taken.dropWhile Token.isNoString).drop 1)) :: edits rest
  | none =>
    match ts with
    | [] => []
    | t :: rest => t.edits ++ edits rest
termination_by ts.length
decreasing_by
  · exact length_of_unitVariant? _h
  · exact Nat.lt_succ_self _

variable {ts rest : List Token} {t : Token}

theorem edits_of_unitVariant? (h : unitVariant? ts = some (t, rest)) :
    edits ts =
      .variant (plainText ((ts.take (ts.length - rest.length)).takeWhile
          Token.isNoString)) t.content
        (plainText (((ts.take (ts.length - rest.length)).dropWhile
          Token.isNoString).drop 1)) :: edits rest := by
  rw [edits]
  split
  · rename_i t' rest' h'
    cases h.symm.trans h'
    rfl
  · rename_i h'
    cases h.symm.trans h'

theorem edits_cons (h : unitVariant? (t :: rest) = none) :
    edits (t :: rest) = t.edits ++ edits rest := by
  rw [edits]
  split
  · rename_i h'
    cases h.symm.trans h'
  · rfl

/-! ### Unit variants as text -/

/-- The text behind the string of a unit variant: a colon and three braces, with white space
before each. -/
def IsVariantTail (cs : List Char) : Prop :=
  ∃ b₂ b₃ b₄ b₅ : List Char, (∀ c ∈ b₂ ++ b₃ ++ b₄ ++ b₅, isBlank c) ∧
    cs = b₂ ++ ':' :: (b₃ ++ '\x7b' :: (b₄ ++ '\x7d' :: (b₅ ++ ['\x7d'])))

theorem isBlank_of_mem_plainText {bs : List Token} (hbs : ∀ b ∈ bs, b.isWhitespace)
    (hlaw : ∀ b ∈ bs, b.Lawful) : ∀ c ∈ plainText bs, isBlank c := by
  intro c hc
  obtain ⟨b, hb, hcb⟩ := List.mem_flatMap.mp hc
  have hkind : b.kind = .whitespace := by simpa [Token.isWhitespace] using hbs b hb
  have hlawful := hlaw b hb
  simp only [Token.Lawful, hkind] at hlawful
  exact hlawful.2 c hcb

/-- **The tokens of a unit variant**, and their text. -/
theorem exists_of_unitVariant? (hlaw : ∀ u ∈ ts, u.Lawful)
    (h : unitVariant? ts = some (t, rest)) :
    ∃ before behind, ts = before ++ t :: (behind ++ rest) ∧ t.kind = .string ∧
      (∀ u ∈ before, u.isNoString) ∧
      (∃ b : List Char, plainText before = '\x7b' :: b ∧ ∀ c ∈ b, isBlank c) ∧
      IsVariantTail (plainText behind) := by
  obtain ⟨span, ⟨b₁, b₂, b₃, b₄, b₅, hkind, hblank, rfl⟩, rfl⟩ := unitVariant?_eq_some_iff.mp h
  have hb₁ : ∀ b ∈ b₁, b.isWhitespace := fun b hb => hblank b (by simp [hb])
  have hbehind : ∀ b ∈ b₂ ++ b₃ ++ b₄ ++ b₅, b.isWhitespace := fun b hb =>
    hblank b (by simpa only [List.append_assoc] using List.mem_append_right b₁ hb)
  refine ⟨.mark '\x7b' :: b₁, b₂ ++ .mark ':' :: (b₃ ++ .mark '\x7b' ::
    (b₄ ++ .mark '\x7d' :: (b₅ ++ [.mark '\x7d']))), by simp, hkind, ?_, ⟨plainText b₁, rfl, ?_⟩,
    ⟨plainText b₂, plainText b₃, plainText b₄, plainText b₅, ?_, ?_⟩⟩
  · intro u hu
    rcases List.mem_cons.mp hu with rfl | hu
    · rfl
    · have hblank : u.kind = .whitespace := by simpa [Token.isWhitespace] using hb₁ u hu
      simp [Token.isNoString, hblank]
  · exact isBlank_of_mem_plainText hb₁ fun b hb => hlaw b (by simp [hb])
  · rw [← plainText_append, ← plainText_append, ← plainText_append]
    refine isBlank_of_mem_plainText hbehind fun b hb => hlaw b ?_
    simp only [List.mem_append] at hb
    rcases hb with ((hb | hb) | hb) | hb <;> simp [hb]
  · simp [Token.mark]

/-- The edit of a unit variant. -/
theorem edits_eq_variant (hlaw : ∀ u ∈ ts, u.Lawful) (h : unitVariant? ts = some (t, rest)) :
    ∃ b behind, edits ts = .variant ('\x7b' :: b) t.content behind :: edits rest ∧
      (∀ c ∈ b, isBlank c) ∧ IsVariantTail behind ∧
      plainText ts = '\x7b' :: b ++ t.text ++ behind ++ plainText rest := by
  obtain ⟨before, behind, hts, hkind, hbefore, ⟨b, hb, hblank⟩, htail⟩ :=
    exists_of_unitVariant? hlaw h
  have htake : ts.take (ts.length - rest.length) = before ++ t :: behind := by
    have hsplit : ts = (before ++ t :: behind) ++ rest := by simp [hts]
    rw [hsplit, List.length_append, Nat.add_sub_cancel, List.take_left]
  have hstop : ¬t.isNoString := by simp [Token.isNoString, hkind]
  refine ⟨b, plainText behind, ?_, hblank, htail, ?_⟩
  · rw [edits_of_unitVariant? h, htake, List.takeWhile_append_of_pos hbefore,
      List.dropWhile_append_of_pos hbefore, List.takeWhile_cons_of_neg hstop,
      List.dropWhile_cons_of_neg hstop, List.append_nil, hb]
    rfl
  · rw [hts]
    simp [hb]

/-! ### Casing -/

theorem dull_of_mem {c : Char} (h : c ∈ ['M', 'm', 'H', 'h']) : Dull c := by
  simp only [List.mem_cons, List.not_mem_nil, or_false] at h
  rcases h with rfl | rfl | rfl | rfl <;> exact ⟨rfl, by decide, rfl, by decide, rfl⟩

theorem Near.trans {c d e : Char} (hcd : Near c d) (hde : Near d e) : Near c e := by
  rcases hcd with rfl | ⟨hc, hd⟩
  · exact hde
  · rcases hde with rfl | ⟨-, he⟩
    · exact .inr ⟨hc, hd⟩
    · exact .inr ⟨hc, he⟩

/-- Texts that no reading tells apart. -/
abbrev NearTexts : List Char → List Char → Prop :=
  List.Forall₂ Near

theorem NearTexts.refl (cs : List Char) : NearTexts cs cs :=
  List.forall₂_same.mpr fun c _ => .refl c

theorem NearTexts.trans {cs ds es : List Char} (hcd : NearTexts cs ds) (hde : NearTexts ds es) :
    NearTexts cs es := by
  induction hcd generalizing es with
  | nil => exact hde
  | cons hcd _ ih =>
      cases hde with
      | cons hde htail => exact .cons (hcd.trans hde) (ih htail)

theorem nearTexts_fixMinutes (cs : List Char) : NearTexts cs (fixMinutes cs) := by
  have hcase : Near 'M' 'm' := .inr ⟨dull_of_mem (by simp), dull_of_mem (by simp)⟩
  fun_induction fixMinutes cs with
  | case1 cs ih => exact .cons (.refl _) (.cons hcase (.cons (.refl _) (.cons (.refl _) ih)))
  | case2 c cs _ ih => exact .cons (.refl _) ih
  | case3 => exact .nil

theorem nearTexts_fixHours (cs : List Char) : NearTexts cs (fixHours cs) := by
  have hcase : Near 'H' 'h' := .inr ⟨dull_of_mem (by simp), dull_of_mem (by simp)⟩
  fun_induction fixHours cs with
  | case1 cs ih => exact .cons (.refl _) (.cons (.refl _) (.cons hcase ih))
  | case2 c cs _ ih => exact .cons (.refl _) ih
  | case3 => exact .nil

/-- **The casing fixes** cannot be told apart from the text itself. -/
theorem nearTexts_fixCasing (cs : List Char) : NearTexts cs (fixCasing cs) :=
  (nearTexts_fixMinutes cs).trans (nearTexts_fixHours _)

theorem NearTexts.quote {cs ds : List Char} (h : NearTexts cs ds) :
    NearTexts (quote cs) (quote ds) :=
  .cons (.refl _) (List.rel_append h (.cons (.refl _) .nil))

/-- A quoted literal that is no integer and no address keeps its text, up to casing. -/
theorem exists_render_eq_quote {cs : List Char} (h : ¬(Literal.classify cs).isConverted) :
    ∃ ds, (Literal.classify cs).render = quote ds ∧ NearTexts cs ds := by
  cases hl : Literal.classify cs with
  | integer i => simp [hl, Literal.isConverted] at h
  | key a => simp [hl, Literal.isConverted] at h
  | text ds =>
      rw [Literal.eq_fixCasing_of_classify hl]
      exact ⟨_, rfl, nearTexts_fixCasing cs⟩

theorem nearTexts_render {cs : List Char} (h : ¬(Literal.classify cs).isConverted) :
    NearTexts (quote cs) (Literal.classify cs).render := by
  obtain ⟨ds, hrender, hnear⟩ := exists_render_eq_quote h
  rw [hrender]
  exact hnear.quote

/-! ### What the edits make up -/

namespace Edit

/-- What is known of an edit. -/
def Lawful : Edit → Prop
  | keep c d => Near c d
  | literal content => (Literal.classify content).isConverted ∧ ∀ c ∈ content, c ≠ '"'
  | variant before name behind => (∀ c ∈ name, c ≠ '"') ∧
    (∃ b : List Char, before = '\x7b' :: b ∧ ∀ c ∈ b, isBlank c) ∧ IsVariantTail behind

/-- Kept characters: what their edits make up. -/
theorem keep_spec {cs ds : List Char} (h : NearTexts cs ds) :
    (List.zipWith keep cs ds).flatMap source = cs ∧
      (List.zipWith keep cs ds).flatMap result = ds ∧
      ∀ e ∈ List.zipWith keep cs ds, e.Lawful := by
  induction h with
  | nil => simp
  | cons hcd _ ih =>
      obtain ⟨hsource, hresult, hlawful⟩ := ih
      rw [List.zipWith_cons_cons, List.flatMap_cons, List.flatMap_cons, hsource, hresult,
        List.forall_mem_cons]
      exact ⟨rfl, rfl, hcd, hlawful⟩

end Edit

namespace Token

theorem text_eq_quote (ht : t.Lawful) (hkind : t.kind = .string) : t.text = quote t.content :=
  (ht.text_eq hkind).1

/-- Tokens outside of unit variants: what their edits make up. -/
theorem edits_spec (ht : t.Lawful) :
    t.edits.flatMap Edit.source = t.text ∧ t.edits.flatMap Edit.result = t.literal.text ∧
      ∀ e ∈ t.edits, e.Lawful := by
  rw [Token.edits]
  by_cases hkind : t.kind = .string
  · have htext := text_eq_quote ht hkind
    by_cases hconv : (Literal.classify t.content).isConverted
    · rw [if_pos ⟨hkind, hconv⟩, literal_of_string hkind, htext]
      refine ⟨by simp [Edit.source], by simp [Edit.result], ?_⟩
      rw [List.forall_mem_singleton]
      exact ⟨hconv, (ht.text_eq hkind).2⟩
    · rw [if_neg fun h => hconv h.2, literal_of_string hkind, htext]
      exact Edit.keep_spec (nearTexts_render hconv)
  · rw [if_neg fun h => hkind h.1, literal_of_ne_string hkind]
    exact Edit.keep_spec (.refl _)

end Token

/-- **The edits of a dump**: their sources make up the dump and their results the normalized
text, and each is lawful. -/
theorem edits_spec (hlaw : ∀ u ∈ ts, u.Lawful) :
    (edits ts).flatMap Edit.source = plainText ts ∧
      (edits ts).flatMap Edit.result = (normalizeTokens ts).text ∧ ∀ e ∈ edits ts, e.Lawful := by
  change _ ∧ _ = plainText ((collapse ts).tokens.map Token.literal) ∧ _
  induction ts using collapse.induct with
  | case1 ts t rest h ih =>
      obtain ⟨ht, hrest⟩ := suffix_of_unitVariant? h
      obtain ⟨hsource, hresult, hlawful⟩ := ih fun u hu => hlaw u (hrest.subset hu)
      obtain ⟨b, behind, hedits, hblank, htail, htext⟩ := edits_eq_variant hlaw h
      obtain ⟨-, -, -, -, -, -, ⟨-, hkind⟩, -⟩ := unitVariant?_eq_some.mp h
      have htl := hlaw t ht
      rw [hedits, collapse_of_unitVariant? h, List.flatMap_cons, List.flatMap_cons, hsource,
        hresult, htext, Token.text_eq_quote htl hkind, List.map_cons, plainText_cons,
        Token.literal_of_string hkind, List.forall_mem_cons]
      exact ⟨rfl, rfl, ⟨(htl.text_eq hkind).2, ⟨b, rfl, hblank⟩, htail⟩, hlawful⟩
  | case2 => simp [edits, unitVariant?, afterMark?]
  | case3 t rest h ih =>
      obtain ⟨hsource, hresult, hlawful⟩ := ih fun u hu => hlaw u (List.mem_cons_of_mem t hu)
      obtain ⟨tsource, tresult, tlawful⟩ := Token.edits_spec (hlaw t List.mem_cons_self)
      rw [edits_cons h, collapse_cons h, List.flatMap_append, List.flatMap_append, hsource,
        hresult, tsource, tresult, List.map_cons, plainText_cons, plainText_cons]
      refine ⟨rfl, rfl, fun e he => ?_⟩
      rcases List.mem_append.mp he with he | he
      · exact tlawful e he
      · exact hlawful e he

end MarketRegistry
