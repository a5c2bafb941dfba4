import MarketRegistry.Proofs.Dump.Skewed

/-!
# Faithful edits

A dump whose normalized text is json need not be json itself: a literal may stand where the
quotes of another string end, and what is converted or dropped may be what spoilt the dump. It
is json exactly when every edit is faithful, that is, when each converted literal and each unit
variant stands for one value in the dump as it does in the normalized text.

## Main results

* `Edit.Faithful`, `FaithfulFrom` — the edits that stand for one value.
* `Lexing.Alike.accepts_iff_faithfulFrom` — a reading of the dump, in step with one of the
  normalized text, is accepted when all edits to come are faithful.
* `exists_read_iff_faithfulFrom` — a dump whose normalized text is json is json itself exactly
  when its edits are faithful.
-/

namespace MarketRegistry

/-- A quoted text **closes** when it is one string: its last quote is not escaped. -/
def Closes (cs : List Char) : Prop :=
  (Lexing.start.run (quote cs)).phase = .between

namespace Edit

/-- A converted literal stands for itself **between lexemes** that do not touch its number. -/
structure LiteralFits (s : Lexing) (next content : List Char) : Prop where
  between : s.phase = .between
  closes : Closes content
  unfused : Unfused next

/-- A unit variant stands for its value **between lexemes**, with white space that json has. It
is no key, and its number is not touched. -/
structure VariantFits (s : Lexing) (next before name behind : List Char) : Prop where
  between : s.phase = .between
  spaces : ∀ c ∈ before ++ behind, isBlank c → isJsonSpace c
  closes : Closes name
  noKey : (next.dropWhile isJsonSpace).head? ≠ some ':'
  unfused : (Literal.classify name).isConverted → Unfused next

/-- What looks like a unit variant **between two strings** is part of them, without control
characters. -/
structure VariantBridges (s : Lexing) (before name behind : List Char) : Prop where
  inString : ∃ t, s.phase = .string t
  unconverted : ¬(Literal.classify name).isConverted
  printable : ∀ c ∈ before ++ behind, 32 ≤ c.toNat

/-- An edit is **faithful** after some reading of the dump and in front of normalized text. -/
def Faithful (s : Lexing) (next : List Char) : Edit → Prop
  | keep _ _ => True
  | literal content => LiteralFits s next content
  | variant before name behind =>
    VariantFits s next before name behind ∨ VariantBridges s before name behind

end Edit

/-- **All edits are faithful**, one after the other. -/
def FaithfulFrom (s : Lexing) : List Edit → Prop
  | [] => True
  | e :: es => e.Faithful s (es.flatMap Edit.result) ∧ FaithfulFrom (s.run e.source) es

/-! ### What comes next -/

variable {es : List Edit}

/-- Where a word goes on in the normalized text, a value starts in the dump. -/
theorem exists_startsValue_of_not_unfused (hlaw : ∀ e ∈ es, e.Lawful)
    (h : ¬Unfused (es.flatMap Edit.result)) :
    ∃ c rest, es.flatMap Edit.source = c :: rest ∧ Lexing.startsValue c := by
  cases es with
  | nil => exact absurd (by simp [Unfused]) h
  | cons e es =>
      obtain ⟨he, -⟩ := List.forall_mem_cons.mp hlaw
      rw [List.flatMap_cons] at h ⊢
      match e with
      | .keep c d =>
          refine ⟨c, es.flatMap Edit.source, rfl, ?_⟩
          have hd : isWordChar d := by
            by_contra hd
            refine h fun a ha => ?_
            obtain rfl : d = a := by simpa [Edit.result] using ha
            exact hd
          simp [Lexing.startsValue, (Near.isWordChar_iff he).mpr hd]
      | .literal content => exact ⟨'"', _, rfl, rfl⟩
      | .variant before name behind =>
          obtain ⟨-, ⟨b, rfl, -⟩, -⟩ := he
          exact ⟨'\x7b', _, rfl, rfl⟩

/-- Where a colon comes next in the normalized text, it does so in the dump. -/
theorem head?_source_of_head?_result (hlaw : ∀ e ∈ es, e.Lawful)
    (h : ((es.flatMap Edit.result).dropWhile isJsonSpace).head? = some ':') :
    ((es.flatMap Edit.source).dropWhile isJsonSpace).head? = some ':' := by
  have hrender : ∀ (l : Literal) (rest : List Char),
      ((l.render ++ rest).dropWhile isJsonSpace).head? ≠ some ':' := by
    intro l rest
    by_cases hconv : l.isConverted
    · obtain ⟨c, cs, hcs, hc⟩ := Literal.exists_render hconv
      rw [hcs, List.cons_append,
        List.dropWhile_cons_of_neg (Literal.not_isJsonSpace_of_isStart hc), List.head?_cons]
      exact fun hcolon => Literal.ne_of_isStart hc (d := ':') (by decide) (Option.some.inj hcolon)
    · cases l with
      | integer i | key a => exact absurd rfl hconv
      | text cs =>
          rw [Literal.render, List.cons_append, List.cons_append,
            List.dropWhile_cons_of_neg (by decide)]
          simp
  induction es with
  | nil => cases h
  | cons e es ih =>
      obtain ⟨he, hes⟩ := List.forall_mem_cons.mp hlaw
      rw [List.flatMap_cons] at h ⊢
      cases e with
      | keep c d =>
          change ((d :: es.flatMap Edit.result).dropWhile isJsonSpace).head? = _ at h
          change ((c :: es.flatMap Edit.source).dropWhile isJsonSpace).head? = _
          have hcd : Near c d := he
          by_cases hspace : isJsonSpace d
          · rw [List.dropWhile_cons_of_pos hspace] at h
            have hd : ¬isWordChar d := by simp [isWordChar, hspace]
            obtain rfl := hcd.eq_of_not_isWordChar fun hc => hd (hcd.isWordChar_iff.mp hc)
            rw [List.dropWhile_cons_of_pos hspace]
            exact ih hes h
          · rw [List.dropWhile_cons_of_neg hspace] at h
            obtain rfl : d = ':' := Option.some.inj h
            obtain rfl := hcd.eq_of_not_isWordChar fun hc =>
              absurd (hcd.isWordChar_iff.mp hc) (by decide)
            rfl
      | literal content => exact absurd h (hrender _ _)
      | variant before name behind => exact absurd h (hrender _ _)

namespace Lexing

variable {ls : List Lexeme} {t : Text} {s s' : Lexing}
  {content before name behind next rest b : List Char}

/-- What a reading that is alike looks like between lexemes. -/
theorem Alike.exists_between (h : Alike ⟨ls, .between⟩ s') :
    ∃ ms, s' = ⟨ms, .between⟩ ∧
      (Lexing.mk ls .between).outline = (Lexing.mk ms .between).outline := by
  obtain ⟨ms, q⟩ := s'
  obtain ⟨hout, hphase, -⟩ := h
  cases hphase
  exact ⟨ms, rfl, hout⟩

/-- The reading of a text that closes. -/
theorem exists_of_closes (hquote : ∀ c ∈ name, c ≠ '"') (h : Closes name) (ls : List Lexeme) :
    ∃ t, (Lexing.mk ls .between).run (quote name) = ⟨.string t :: ls, .between⟩ := by
  have hphase : ((Lexing.mk ls .between).run (quote name)).phase = .between := by
    rw [run_between]
    exact h
  rcases run_quote ls hquote with ⟨t, hrun⟩ | ⟨-, t, hrun⟩ | hrun
  · exact ⟨t, hrun⟩
  · rw [hrun] at hphase
    cases hphase
  · rw [hrun] at hphase
    cases hphase

theorem closes_of_run (h : (Lexing.mk ls .between).run (quote name) = ⟨.string t :: ls, .between⟩) :
    Closes name := by
  have hphase : ((Lexing.mk ls .between).run (quote name)).phase = .between := by rw [h]
  rw [run_between] at hphase
  exact hphase

/-! ### Converted literals -/

/-- A faithful literal stands for **one value** on both sides. -/
theorem Alike.exists_of_literalFits (h : Alike s s')
    (hconv : (Literal.classify content).isConverted) (hquote : ∀ c ∈ content, c ≠ '"')
    (hfits : Edit.LiteralFits s next content)
    (hacc' : (s'.run ((Literal.classify content).render ++ next)).Accepts) :
    ∃ s₁, Alike (s.run (quote content)) s₁ ∧ (s₁.run next).Accepts := by
  obtain ⟨ls, p⟩ := s
  obtain rfl : p = .between := hfits.between
  obtain ⟨ms, rfl, hout⟩ := h.exists_between
  obtain ⟨t, hrun⟩ := exists_of_closes hquote hfits.closes ls
  obtain ⟨ks, o, o', ho, hfilled, ho', hacc⟩ :=
    exists_of_render (Literal.sound_of_isConverted hconv) hconv hfits.unfused hacc'
  refine ⟨⟨ks, .between⟩, ?_, hacc⟩
  rw [hrun]
  refine alike_of_phase ?_ .between (by simp)
  rw [outline_cons _ _ _ .between, hout, ho, ho', Option.bind_some,
    Outline.step_string_of_filled? hfilled]

/-- Where the dump goes on to be json, a literal is **faithful**. -/
theorem Alike.literalFits_of_accepts (h : Alike s s') (hlaw : ∀ e ∈ es, e.Lawful)
    (hconv : (Literal.classify content).isConverted) (hquote : ∀ c ∈ content, c ≠ '"')
    (hacc' : (s'.run ((Literal.classify content).render ++ es.flatMap Edit.result)).Accepts)
    (hacc : (s.run (quote content ++ es.flatMap Edit.source)).Accepts) :
    Edit.LiteralFits s (es.flatMap Edit.result) content := by
  obtain ⟨⟨c, tail, hcontent, hc⟩, hslash⟩ := Literal.exists_of_isConverted hconv
  obtain ⟨ls, p⟩ := s
  obtain ⟨ms, q⟩ := s'
  cases h.phase with
  | between =>
      rw [run_append] at hacc
      rcases run_quote ls hquote with ⟨t, hrun⟩ | ⟨hmem, -⟩ | hrun
      · refine ⟨rfl, closes_of_run hrun, ?_⟩
        by_contra hfused
        obtain ⟨d, rest, hrest, hd⟩ := exists_startsValue_of_not_unfused hlaw hfused
        rw [hrun, hrest] at hacc
        exact not_accepts_string_of_startsValue hd hacc
      · exact absurd hmem hslash
      · rw [hrun] at hacc
        exact absurd hacc not_accepts_fail
  | word hvw => exact absurd hacc (not_accepts_of_word (by decide) (by decide))
  | string t u =>
      subst hcontent
      exact absurd hacc (not_accepts_of_close (by simp [startsValue, hc]))
  | escape t u => exact absurd hacc' (not_accepts_render_in_escape hconv)
  | unit t u value left => exact absurd hacc not_accepts_fail
  | broken =>
      obtain ⟨o, ho⟩ := hacc'.exists_outline
      rw [← h.outline, h.broken rfl] at ho
      cases ho

/-! ### Unit variants -/

/-- The lexemes behind the name of a unit variant, newest first. -/
def variantTail : List Lexeme :=
  [.braceClose, .braceClose, .braceOpen, .colon]

/-- The text behind the name of a unit variant, with white space that json has. -/
theorem run_variantTail (hbehind : IsVariantTail behind)
    (hspaces : ∀ c ∈ behind, isBlank c → isJsonSpace c) (ls : List Lexeme) :
    (Lexing.mk ls .between).run behind = ⟨variantTail ++ ls, .between⟩ := by
  obtain ⟨b₂, b₃, b₄, b₅, hblank, rfl⟩ := hbehind
  have hjson : ∀ c ∈ b₂ ++ b₃ ++ b₄ ++ b₅, isJsonSpace c := by
    intro c hc
    refine hspaces c ?_ (hblank c hc)
    simp only [List.mem_append, List.mem_cons] at hc ⊢
    tauto
  simp only [List.forall_mem_append] at hjson
  obtain ⟨⟨⟨h₂, h₃⟩, h₄⟩, h₅⟩ := hjson
  rw [run_append, run_spaces h₂, run_cons, step_mark (m := .colon) rfl, run_append,
    run_spaces h₃, run_cons, step_mark (m := .braceOpen) rfl, run_append, run_spaces h₄, run_cons,
    step_mark (m := .braceClose) rfl, run_append, run_spaces h₅, run_cons,
    step_mark (m := .braceClose) rfl]
  rfl

/-- Where the text goes on to be json, its white space is that of json. -/
theorem Accepts.isJsonSpace_of_variantTail {ls : List Lexeme} (hbehind : IsVariantTail behind)
    (h : ((Lexing.mk ls .between).run (behind ++ rest)).Accepts) :
    ∀ c ∈ behind, isBlank c → isJsonSpace c := by
  obtain ⟨b₂, b₃, b₄, b₅, hblank, rfl⟩ := hbehind
  simp only [List.append_assoc, List.cons_append, List.nil_append, List.mem_append] at h hblank
  have hspace : ∀ {ls : List Lexeme} {b cs : List Char}, (∀ c ∈ b, isBlank c) →
      ((Lexing.mk ls .between).run (b ++ cs)).Accepts →
        (∀ c ∈ b, isJsonSpace c) ∧ ((Lexing.mk ls .between).run cs).Accepts := by
    intro ls b cs hb h
    have hb' := h.forall_isJsonSpace hb
    rw [run_append, run_spaces hb'] at h
    exact ⟨hb', h⟩
  obtain ⟨h₂, h⟩ := hspace (fun c hc => hblank c (.inl hc)) h
  rw [run_cons, step_mark (m := .colon) rfl] at h
  obtain ⟨h₃, h⟩ := hspace (fun c hc => hblank c (.inr (.inl hc))) h
  rw [run_cons, step_mark (m := .braceOpen) rfl] at h
  obtain ⟨h₄, h⟩ := hspace (fun c hc => hblank c (.inr (.inr (.inl hc)))) h
  rw [run_cons, step_mark (m := .braceClose) rfl] at h
  obtain ⟨h₅, h⟩ := hspace (fun c hc => hblank c (.inr (.inr (.inr hc)))) h
  intro c hc hb
  simp only [List.mem_append, List.mem_cons, List.not_mem_nil, or_false] at hc
  rcases hc with hc | rfl | hc | rfl | hc | rfl | hc | rfl
  · exact h₂ c hc
  · exact absurd hb (by decide)
  · exact h₃ c hc
  · exact absurd hb (by decide)
  · exact h₄ c hc
  · exact absurd hb (by decide)
  · exact h₅ c hc
  · exact absurd hb (by decide)

/-- The outline behind a unit variant is that behind any value. -/
theorem outline_variant (t : Text) (ls : List Lexeme) (p q : Phase) :
    (Lexing.mk (variantTail ++ .string t :: .braceOpen :: ls) p).outline =
      (Lexing.mk ls q).outline.bind Outline.filled? := by
  have hlexemes : variantTail ++ .string t :: .braceOpen :: ls =
      (Json.object [(t, .object [])]).toLexemes.reverse ++ ls := by
    simp [variantTail, Json.toLexemes, Json.membersTail]
  rw [hlexemes, outline_append _ _ _ q, List.reverse_reverse]
  congr 1
  funext o
  exact o.run_toLexemes (by simp)

/-- The reading of a unit variant that closes, with white space that json has. -/
theorem run_variant (hb : ∀ c ∈ b, isJsonSpace c) (hbehind : IsVariantTail behind)
    (hspaces : ∀ c ∈ behind, isBlank c → isJsonSpace c) {ls : List Lexeme}
    (hname : (Lexing.mk (.braceOpen :: ls) .between).run (quote name) =
      ⟨.string t :: .braceOpen :: ls, .between⟩) :
    (Lexing.mk ls .between).run ('\x7b' :: b ++ quote name ++ behind) =
      ⟨variantTail ++ .string t :: .braceOpen :: ls, .between⟩ := by
  rw [run_append, run_append, run_cons, step_mark (m := .braceOpen) rfl, run_spaces hb, hname,
    run_variantTail hbehind hspaces]

/-- A unit variant that fits stands for **one value** on both sides. -/
theorem Alike.exists_of_variantFits (h : Alike s s') (hquote : ∀ c ∈ name, c ≠ '"')
    (hb : ∀ c ∈ b, isBlank c) (hbehind : IsVariantTail behind)
    (hfits : Edit.VariantFits s next ('\x7b' :: b) name behind)
    (hacc' : (s'.run ((Literal.classify name).render ++ next)).Accepts) :
    ∃ s₁, Alike (s.run ('\x7b' :: b ++ quote name ++ behind)) s₁ ∧ (s₁.run next).Accepts := by
  obtain ⟨ls, p⟩ := s
  obtain rfl : p = .between := hfits.between
  obtain ⟨ms, rfl, hout⟩ := h.exists_between
  obtain ⟨t, hname⟩ := exists_of_closes hquote hfits.closes (.braceOpen :: ls)
  have hbspaces : ∀ c ∈ b, isJsonSpace c := by
    intro c hc
    exact hfits.spaces c (by simp [hc]) (hb c hc)
  have hspaces : ∀ c ∈ behind, isBlank c → isJsonSpace c := by
    intro c hc
    exact hfits.spaces c (by simp [hc])
  rw [run_variant hbspaces hbehind hspaces hname]
  -- it is enough that the normalized text goes on behind a value
  suffices hvalue : ∃ ks o o', (Lexing.mk ms .between).outline = some o ∧ o.filled? = some o' ∧
      (Lexing.mk ks .between).outline = some o' ∧ ((Lexing.mk ks .between).run next).Accepts by
    obtain ⟨ks, o, o', ho, hfilled, ho', hacc⟩ := hvalue
    refine ⟨⟨ks, .between⟩, alike_of_phase ?_ .between (by simp), hacc⟩
    rw [outline_variant t ls .between .between, hout, ho, ho', Option.bind_some, hfilled]
  by_cases hconv : (Literal.classify name).isConverted
  · exact exists_of_render (Literal.sound_of_isConverted hconv) hconv (hfits.unfused hconv) hacc'
  · -- the name goes on being a string, and one that is no key
    obtain ⟨u, hstring⟩ := exists_of_closes hquote hfits.closes ls
    have halike := h.run (nearTexts_render hconv)
    rw [hstring] at halike
    obtain ⟨ks, hks, hkout⟩ := halike.exists_between
    rw [run_append, hks] at hacc'
    obtain ⟨o', ho'⟩ := hacc'.exists_outline
    obtain ⟨o, ho, hstep⟩ := outline_cons_eq_some_iff.mp (hkout.trans ho')
    refine ⟨ks, o, o', hout.symm.trans ho, ?_, ho', hacc'⟩
    refine Outline.filled?_of_step_string hstep fun hcolon => ?_
    exact hfits.noKey (head?_eq_colon_of_accepts ho' hcolon hacc')

/-- There are no quotes and backslashes before the name of a unit variant. -/
theorem ne_of_mem_opening (hb : ∀ c ∈ b, isBlank c) :
    ∀ c ∈ '\x7b' :: b, c ≠ '"' ∧ c ≠ '\\' :=
  List.forall_mem_cons.mpr ⟨by decide, fun c hc => ne_of_isBlank (hb c hc)⟩

/-- There are no quotes and backslashes behind the name of a unit variant. -/
theorem ne_of_mem_variantTail (hbehind : IsVariantTail behind) :
    ∀ c ∈ behind, c ≠ '"' ∧ c ≠ '\\' := by
  obtain ⟨b₂, b₃, b₄, b₅, hblank, rfl⟩ := hbehind
  intro c hc
  by_cases hb : isBlank c
  · exact ne_of_isBlank hb
  · simp only [List.mem_append, List.mem_cons, List.not_mem_nil, or_false] at hc hblank
    rcases hc with hc | rfl | hc | rfl | hc | rfl | hc | rfl
    · exact absurd (hblank c (by simp [hc])) hb
    · decide
    · exact absurd (hblank c (by simp [hc])) hb
    · decide
    · exact absurd (hblank c (by simp [hc])) hb
    · decide
    · exact absurd (hblank c (by simp [hc])) hb
    · decide

/-- A quoted text in a string closes it and opens the next one. -/
theorem exists_run_quote_in_string (hquote : ∀ c ∈ name, c ≠ '"') (ls : List Lexeme) (t : Text) :
    ∃ ks, (Lexing.mk ls (.string t)).run (quote name) = ⟨ks, .string []⟩ := by
  have hout : ((Lexing.mk (.string t.reverse :: ls) .between).run name).Outside :=
    Outside.run_of_ne_quote (.inl rfl) hquote
  refine ⟨((Lexing.mk (.string t.reverse :: ls) .between).run name).finished, ?_⟩
  rw [quote, run_append, run_cons]
  change ((Lexing.mk (.string t.reverse :: ls) .between).run name).step '"' = _
  rw [hout.step_separator (by decide)]
  rfl

/-- What a string holds is of no account. -/
theorem Alike.string {ls : List Lexeme} {t u : Text} (h : Alike ⟨ls, .string t⟩ s') :
    Alike ⟨ls, .string u⟩ s' := by
  obtain ⟨ms, q⟩ := s'
  obtain ⟨hout, hphase, -⟩ := h
  cases hphase
  exact alike_of_phase hout (.string _ _) (by simp)

/-- What bridges two strings is **part of them** on both sides. -/
theorem Alike.exists_of_variantBridges (h : Alike s s') (hquote : ∀ c ∈ name, c ≠ '"')
    (hb : ∀ c ∈ b, isBlank c) (hbehind : IsVariantTail behind)
    (hbridges : Edit.VariantBridges s ('\x7b' :: b) name behind)
    (hacc' : (s'.run ((Literal.classify name).render ++ next)).Accepts) :
    ∃ s₁, Alike (s.run ('\x7b' :: b ++ quote name ++ behind)) s₁ ∧ (s₁.run next).Accepts := by
  obtain ⟨ls, p⟩ := s
  obtain ⟨t, rfl⟩ : ∃ t, p = .string t := hbridges.inString
  refine ⟨s'.run (Literal.classify name).render, ?_, by rwa [← run_append]⟩
  have hopening : ∃ u, (Lexing.mk ls (.string t)).run ('\x7b' :: b) = ⟨ls, .string u⟩ := by
    rcases run_string_or_fail ls t (ne_of_mem_opening hb) with ⟨-, hrun⟩ | ⟨hnot, -⟩
    · exact hrun
    · exact absurd (fun c hc => hbridges.printable c (List.mem_append_left _ hc)) hnot
  obtain ⟨u, hopening⟩ := hopening
  obtain ⟨ks, hname⟩ := exists_run_quote_in_string hquote ls u
  rw [run_append, run_append, hopening, hname]
  have halike := (h.string (u := u)).run (nearTexts_render hbridges.unconverted)
  rw [hname] at halike
  rcases run_string_or_fail ks [] (ne_of_mem_variantTail hbehind) with ⟨-, v, hrun⟩ | ⟨hnot, -⟩
  · rw [hrun]
    exact halike.string
  · exact absurd (fun c hc => hbridges.printable c (List.mem_append_right _ hc)) hnot

/-- What is read between two lexemes does not depend on those before. -/
theorem run_between_of_run {ls ms : List Lexeme} {p : Phase} {cs : List Char}
    (h : (Lexing.mk ls .between).run cs = ⟨ls, p⟩) : (Lexing.mk ms .between).run cs = ⟨ms, p⟩ := by
  rw [run_between] at h ⊢
  generalize start.run cs = s at h ⊢
  obtain ⟨done, phase⟩ := s
  obtain ⟨hdone, rfl⟩ := Lexing.mk.inj h
  obtain rfl : done = [] := by simpa using hdone
  rfl

/-- A unit variant whose name leaves its string open spoils the dump: its reading is **out of
step** with that of the normalized text. -/
theorem Alike.not_accepts_open_variant {ls : List Lexeme} (h : Alike ⟨ls, .between⟩ s')
    (hlaw : ∀ e ∈ es, e.Lawful) (hslash : '\\' ∈ name) (hbehind : IsVariantTail behind)
    (hname : (Lexing.mk (.braceOpen :: ls) .between).run (quote name) =
      ⟨.braceOpen :: ls, .string t⟩)
    (hacc' : (s'.run ((Literal.classify name).render ++ es.flatMap Edit.result)).Accepts) :
    ¬((Lexing.mk (.braceOpen :: ls) (.string t)).run
      (behind ++ es.flatMap Edit.source)).Accepts := by
  intro hacc
  have hconv : ¬(Literal.classify name).isConverted := by
    intro hconv
    exact (Literal.exists_of_isConverted hconv).2 hslash
  obtain ⟨o₁, ho₁⟩ := hacc.exists_outline
  obtain ⟨o, ho, hopen⟩ := outline_cons_eq_some_iff.mp ho₁
  obtain ⟨hplace, hfilled⟩ := Outline.of_step_braceOpen hopen
  have halike := h.run (nearTexts_render hconv)
  rw [run_between_of_run hname] at halike
  rw [run_append] at hacc'
  generalize s'.run (Literal.classify name).render = s₁ at halike hacc'
  obtain ⟨ms, q⟩ := s₁
  obtain ⟨hout, hphase, -⟩ := halike
  cases hphase with
  | string _ u =>
      have ho' : (Lexing.mk ms .between).outline = some o := hout.symm.trans ho
      rw [run_append] at hacc
      rcases run_string_or_fail (.braceOpen :: ls) t (ne_of_mem_variantTail hbehind) with
        ⟨-, v, hrun⟩ | ⟨-, hrun⟩
      · rw [hrun] at hacc
        have hskewed : Skewed ⟨.braceOpen :: ls, .string v⟩ ⟨ms, .string u⟩ :=
          .inString rfl (.string v u) ho₁ hplace ho' hfilled
        exact hskewed.not_accepts hlaw hacc' hacc
      · rw [hrun] at hacc
        exact not_accepts_fail hacc

/-- Between lexemes, where the dump goes on to be json, a unit variant **fits**. -/
theorem Alike.variantFits_of_accepts {ls : List Lexeme} (h : Alike ⟨ls, .between⟩ s')
    (hlaw : ∀ e ∈ es, e.Lawful) (hquote : ∀ c ∈ name, c ≠ '"') (hb : ∀ c ∈ b, isBlank c)
    (hbehind : IsVariantTail behind)
    (hacc' : (s'.run ((Literal.classify name).render ++ es.flatMap Edit.result)).Accepts)
    (hacc : ((Lexing.mk ls .between).run
      ('\x7b' :: b ++ quote name ++ behind ++ es.flatMap Edit.source)).Accepts) :
    Edit.VariantFits ⟨ls, .between⟩ (es.flatMap Edit.result) ('\x7b' :: b) name behind := by
  have hopening : ((Lexing.mk (.braceOpen :: ls) .between).run
      (b ++ (quote name ++ (behind ++ es.flatMap Edit.source)))).Accepts := by
    rw [List.append_assoc, List.append_assoc, List.cons_append, run_cons,
      step_mark (m := .braceOpen) rfl] at hacc
    exact hacc
  have hbspaces := hopening.forall_isJsonSpace hb
  rw [run_append, run_spaces hbspaces, run_append] at hopening
  rcases run_quote (.braceOpen :: ls) hquote with ⟨t, hname⟩ | ⟨hslash, t, hname⟩ | hname
  · rw [hname] at hopening
    have hspaces := hopening.isJsonSpace_of_variantTail hbehind
    rw [run_append, run_variantTail hbehind hspaces] at hopening
    obtain ⟨o', ho'⟩ := hopening.exists_outline
    have hfilled := ho'
    rw [outline_variant t ls .between .between, Option.bind_eq_some_iff] at hfilled
    obtain ⟨o, -, hfilled⟩ := hfilled
    refine ⟨rfl, ?_, closes_of_run hname, fun hcolon => ?_, fun _ => ?_⟩
    · intro c hc hblank
      rcases List.mem_append.mp hc with hc | hc
      · rcases List.mem_cons.mp hc with rfl | hc
        · exact absurd hblank (by decide)
        · exact hbspaces c hc
      · exact hspaces c hc hblank
    · obtain ⟨rest, hrest⟩ := List.head?_eq_some_iff.mp (head?_source_of_head?_result hlaw hcolon)
      rw [run_dropWhile, hrest] at hopening
      exact not_accepts_colon ho' (Outline.place_of_filled? hfilled) hopening
    · by_contra hfused
      obtain ⟨c, rest, hrest, hc⟩ := exists_startsValue_of_not_unfused hlaw hfused
      rw [hrest] at hopening
      exact not_accepts_of_startsValue ho' (Outline.isFull_of_filled? hfilled) hc hopening
  · rw [hname] at hopening
    exact absurd hopening (h.not_accepts_open_variant hlaw hslash hbehind hname hacc')
  · rw [hname] at hopening
    exact absurd hopening not_accepts_fail

/-- In a string, where the dump goes on to be json, what looks like a unit variant **bridges** it
and the next one. -/
theorem variantBridges_of_accepts {ls : List Lexeme} {t : Text} (hquote : ∀ c ∈ name, c ≠ '"')
    (hb : ∀ c ∈ b, isBlank c) (hbehind : IsVariantTail behind)
    (hacc : ((Lexing.mk ls (.string t)).run
      ('\x7b' :: b ++ quote name ++ behind ++ rest)).Accepts) :
    Edit.VariantBridges ⟨ls, .string t⟩ ('\x7b' :: b) name behind := by
  rw [List.append_assoc, List.append_assoc, run_append] at hacc
  rcases run_string_or_fail ls t (ne_of_mem_opening hb) with ⟨hopening, u, hrun⟩ | ⟨-, hrun⟩
  · rw [hrun] at hacc
    have hconv : ¬(Literal.classify name).isConverted := by
      intro hconv
      obtain ⟨⟨c, tail, rfl, hc⟩, -⟩ := Literal.exists_of_isConverted hconv
      exact not_accepts_of_close (by simp [startsValue, hc]) hacc
    obtain ⟨ks, hname⟩ := exists_run_quote_in_string hquote ls u
    rw [run_append, hname, run_append] at hacc
    rcases run_string_or_fail ks [] (ne_of_mem_variantTail hbehind) with ⟨htail, -⟩ | ⟨-, hrun⟩
    · refine ⟨⟨t, rfl⟩, hconv, fun c hc => ?_⟩
      rcases List.mem_append.mp hc with hc | hc
      · exact hopening c hc
      · exact htail c hc
    · rw [hrun] at hacc
      exact absurd hacc not_accepts_fail
  · rw [hrun] at hacc
    exact absurd hacc not_accepts_fail

/-! ### Whole dumps -/

variable {e : Edit}

/-- A faithful edit keeps **readings in step**. -/
theorem Alike.exists_of_faithful (h : Alike s s') (he : e.Lawful) (hfaithful : e.Faithful s next)
    (hacc' : (s'.run (e.result ++ next)).Accepts) :
    ∃ s₁, Alike (s.run e.source) s₁ ∧ (s₁.run next).Accepts := by
  match e with
  | .keep c d => exact ⟨s'.step d, h.step he, hacc'⟩
  | .literal content => exact h.exists_of_literalFits he.1 he.2 hfaithful hacc'
  | .variant before name behind =>
      obtain ⟨hquote, ⟨b, rfl, hb⟩, hbehind⟩ := he
      rcases hfaithful with hfits | hbridges
      · exact h.exists_of_variantFits hquote hb hbehind hfits hacc'
      · exact h.exists_of_variantBridges hquote hb hbehind hbridges hacc'

/-- Where the dump goes on to be json, an edit is **faithful**. -/
theorem Alike.faithful_of_accepts (h : Alike s s') (he : e.Lawful) (hlaw : ∀ e ∈ es, e.Lawful)
    (hacc' : (s'.run (e.result ++ es.flatMap Edit.result)).Accepts)
    (hacc : (s.run (e.source ++ es.flatMap Edit.source)).Accepts) :
    e.Faithful s (es.flatMap Edit.result) := by
  match e with
  | .keep c d => trivial
  | .literal content => exact h.literalFits_of_accepts hlaw he.1 he.2 hacc' hacc
  | .variant before name behind =>
      obtain ⟨hquote, ⟨b, rfl, hb⟩, hbehind⟩ := he
      obtain ⟨ls, p⟩ := s
      cases p with
      | between => exact .inl (h.variantFits_of_accepts hlaw hquote hb hbehind hacc' hacc)
      | string t => exact .inr (variantBridges_of_accepts hquote hb hbehind hacc)
      | word w =>
          rw [Edit.source, List.append_assoc, List.append_assoc] at hacc
          exact absurd hacc (not_accepts_of_word (by decide) (by decide))
      | escape t | unit t value left =>
          rw [Edit.source, List.append_assoc, List.append_assoc] at hacc
          exact absurd hacc not_accepts_fail
      | broken =>
          obtain ⟨o, ho⟩ := hacc.exists_outline
          rw [h.broken rfl] at ho
          cases ho

/-- **A reading of the dump in step** with one of the normalized text, which is accepted, is
accepted itself exactly when all edits to come are faithful. -/
theorem Alike.accepts_iff_faithfulFrom (h : Alike s s') (hlaw : ∀ e ∈ es, e.Lawful)
    (hacc' : (s'.run (es.flatMap Edit.result)).Accepts) :
    (s.run (es.flatMap Edit.source)).Accepts ↔ FaithfulFrom s es := by
  induction es generalizing s s' with
  | nil => exact iff_of_true (h.accepts_iff.mpr hacc') trivial
  | cons e es ih =>
      obtain ⟨he, hes⟩ := List.forall_mem_cons.mp hlaw
      rw [List.flatMap_cons] at hacc' ⊢
      constructor
      · intro hacc
        have hfaithful := h.faithful_of_accepts he hes hacc' hacc
        obtain ⟨s₁, halike, hacc₁⟩ := h.exists_of_faithful he hfaithful hacc'
        rw [run_append] at hacc
        exact ⟨hfaithful, (ih halike hes hacc₁).mp hacc⟩
      · rintro ⟨hfaithful, hfrom⟩
        obtain ⟨s₁, halike, hacc₁⟩ := h.exists_of_faithful he hfaithful hacc'
        rw [run_append]
        exact (ih halike hes hacc₁).mpr hfrom

end Lexing

/-- What normalization brings forth, by tokens. -/
theorem exists_tokenize_of_normalize {dump out : List Char}
    (h : (normalize dump).outcome = .ok out) :
    ∃ ts, tokenize dump = .ok ts ∧ out = (normalizeTokens ts).text := by
  cases htokens : tokenize dump with
  | error e =>
      simp only [normalize, htokens] at h
      cases h
  | ok ts =>
      simp only [normalize, htokens] at h
      cases h
      exact ⟨ts, rfl, rfl⟩

/-- **A dump whose normalized text is json** is json itself exactly when its edits are
faithful. -/
theorem exists_read_iff_faithfulFrom {dump out : List Char} {j : Json}
    (hout : (normalize dump).outcome = .ok out) (hread : Json.read out = .ok j) :
    ∃ ts, tokenize dump = .ok ts ∧
      ((∃ j, Json.read dump = .ok j) ↔ FaithfulFrom Lexing.start (edits ts)) := by
  obtain ⟨ts, htokens, rfl⟩ := exists_tokenize_of_normalize hout
  obtain ⟨hsource, hresult, hlaw⟩ := edits_spec (lawful_of_tokenize htokens)
  refine ⟨ts, htokens, ?_⟩
  have hacc := Lexing.exists_read_iff.mp ⟨j, hread⟩
  rw [← hresult] at hacc
  rw [Lexing.exists_read_iff, ← Lexing.alike_start.accepts_iff_faithfulFrom hlaw hacc, hsource,
    plainText_of_tokenize htokens]

/-- A dump in which a quoted integer touches a number. -/
def touchingDump : List Char :=
  "[1\"1a\"]".toList

/-- The tokens of the dump. -/
def touchingTokens : List Token :=
  [.mark '[', ⟨.bare, ['1']⟩, ⟨.string, "\"1a\"".toList⟩, .mark ']']

theorem normalize_touchingDump : (normalize touchingDump).outcome = .ok "[126]".toList := by
  have htokens : tokenize touchingDump = .ok touchingTokens := by rfl
  have hcollapse : collapse touchingTokens = ⟨touchingTokens, 0⟩ := by
    rw [touchingTokens, collapse_cons rfl, collapse_cons rfl, collapse_cons rfl, collapse_cons rfl,
      collapse_nil]
  have htext : (normalizeTokens touchingTokens).text = "[126]".toList := by
    rw [normalizeTokens, hcollapse]
    rfl
  simp only [normalize, htokens]
  exact congrArg Except.ok htext

theorem read_touchingDump (j : Json) : Json.read touchingDump ≠ .ok j := by
  intro h
  have hnone : (Json.read touchingDump).toOption = none := by rfl
  rw [h] at hnone
  cases hnone

/-- The number and the integer **fuse**: the dump is not json, and its normalized text is. -/
theorem fused_touchingDump : (normalize touchingDump).outcome = .ok "[126]".toList ∧
    Json.read "[126]".toList = .ok (.array [.number (.int 126)]) ∧
      ∀ j, Json.read touchingDump ≠ .ok j :=
  ⟨normalize_touchingDump, rfl, read_touchingDump⟩

/-- One of its edits is not faithful. -/
theorem not_faithfulFrom_touchingDump :
    (normalize touchingDump).outcome = .ok "[126]".toList ∧
      Json.read "[126]".toList = .ok (.array [.number (.int 126)]) ∧
      ∃ ts, tokenize touchingDump = .ok ts ∧ ¬FaithfulFrom Lexing.start (edits ts) := by
  have hread : Json.read "[126]".toList = .ok (.array [.number (.int 126)]) := by rfl
  obtain ⟨ts, htokens, hiff⟩ := exists_read_iff_faithfulFrom normalize_touchingDump hread
  refine ⟨normalize_touchingDump, hread, ts, htokens, fun hfaithful => ?_⟩
  obtain ⟨j, hj⟩ := hiff.mpr hfaithful
  exact read_touchingDump j hj

end MarketRegistry
