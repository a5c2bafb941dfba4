import MarketRegistry.Proofs.Dump.Tokens
import MarketRegistry.Proofs.Json.Proper

/-!
# The lexemes of tokens

A dump is cut into tokens and json into lexemes. In a text without backslashes that is json,
both see the same strings, so that the tokens are pieces whose lexemes can be read one by one.

## Main results

* `Token.Strict` — tokens that are json pieces.
* `strict_of_tokenize`, `exists_tokenize_of_read` — json without backslashes has strict tokens.
* `lexemes_plainText` — the lexemes of a text are those of its tokens.
-/

namespace MarketRegistry

/-- The lexemes of a token on its own. -/
def Token.lexemes (t : Token) : List Lexeme :=
  MarketRegistry.lexemes t.text

namespace Token

/-- A token is **strict** when json has it too: strings hold plain characters, and white space
is that of json. -/
def Strict (t : Token) : Prop :=
  match t.kind with
  | .string => ∀ c ∈ t.content, isPlain c
  | .whitespace => ∀ c ∈ t.text, isJsonSpace c
  | _ => True

/-! ### Characters -/

theorem isPunctuation_iff {c : Char} : isPunctuation c ↔ ∃ m, Lexeme.ofMark? c = some m := by
  constructor
  · intro h
    simp only [isPunctuation, Bool.or_eq_true, beq_iff_eq] at h
    rcases h with ((((rfl | rfl) | rfl) | rfl) | rfl) | rfl <;> exact ⟨_, rfl⟩
  · rintro ⟨m, hm⟩
    rw [Lexeme.ofMark?] at hm
    simp only [isPunctuation, Bool.or_eq_true]
    split_ifs at hm <;> simp_all

/-- A bare character belongs to a word. -/
theorem isWordChar_of_isBareChar {c : Char} (h : isBareChar c) : isWordChar c :=
  isWordChar_of_all (by decide) h

/-- White space that json has not belongs to words, but to no proper one. -/
theorem isWordChar_of_isBlank {c : Char} (hb : isBlank c) (hs : ¬isJsonSpace c) :
    isWordChar c := by
  have hall : separators.all fun d => !(isBlank d && !isJsonSpace d) := by decide
  exact isWordChar_of_all hall (by simp [hb, hs])

theorem not_isWordLetter_of_isBlank {c : Char} (hb : isBlank c) : ¬isWordLetter c := by
  intro h
  have hn := toNat_of_isWordLetter h
  simp only [isBlank, Bool.or_eq_true, Bool.and_eq_true, decide_eq_true_eq, beq_iff_eq] at hb
  omega

/-! ### The lexemes of strict tokens -/

variable {t : Token}

/-- A string token is its content between quotes. -/
theorem Lawful.text_eq (h : t.Lawful) (hkind : t.kind = .string) :
    t.text = '"' :: t.content ++ ['"'] ∧ ∀ c ∈ t.content, c ≠ '"' := by
  obtain ⟨kind, text⟩ := t
  obtain rfl : kind = .string := hkind
  obtain ⟨cs, rfl, hcs⟩ := h
  have hcontent : (Token.mk .string ('"' :: cs ++ ['"'])).content = cs := by
    simp [content]
  rw [hcontent]
  exact ⟨rfl, hcs⟩

theorem Strict.lexemes_string (hl : t.Lawful) (hs : t.Strict) (hkind : t.kind = .string) :
    t.lexemes = [.string (Text.ofChars t.content)] := by
  have hplain : ∀ c ∈ t.content, isPlain c := by
    simpa [Strict, hkind] using hs
  rw [Token.lexemes, (hl.text_eq hkind).1, lexemes_quoted hplain]

theorem Strict.lexemes_whitespace (hs : t.Strict) (hkind : t.kind = .whitespace) :
    t.lexemes = [] := by
  have hspaces : ∀ c ∈ t.text, isJsonSpace c := by
    simpa [Strict, hkind] using hs
  rw [Token.lexemes, lexemes_eq, Lexing.start, Lexing.run_spaces hspaces]
  rfl

theorem lexemes_mark {c : Char} {m : Lexeme} (h : Lexeme.ofMark? c = some m) :
    (mark c).lexemes = [m] := by
  rw [Token.lexemes, mark, lexemes_eq, Lexing.start, Lexing.run_cons, Lexing.step_mark h]
  rfl

theorem Lawful.eq_mark (h : t.Lawful) (hkind : t.kind = .punctuation) :
    ∃ c m, t = mark c ∧ Lexeme.ofMark? c = some m := by
  obtain ⟨kind, text⟩ := t
  obtain rfl : kind = .punctuation := hkind
  obtain ⟨c, rfl, hc⟩ := h
  obtain ⟨m, hm⟩ := isPunctuation_iff.mp hc
  exact ⟨c, m, rfl, hm⟩

theorem Lawful.isWordChar (h : t.Lawful) (hkind : t.kind = .bare) :
    t.text ≠ [] ∧ ∀ c ∈ t.text, isWordChar c := by
  obtain ⟨kind, text⟩ := t
  obtain rfl : kind = .bare := hkind
  exact ⟨h.1, fun c hc => isWordChar_of_isBareChar (h.2 c hc)⟩

theorem Lawful.lexemes_bare (h : t.Lawful) (hkind : t.kind = .bare) :
    t.lexemes = [.ofWord t.text] :=
  lexemes_word (h.isWordChar hkind).1 (h.isWordChar hkind).2

end Token

/-- **The lexemes of a text** are those of its tokens, if no word goes on across two of them. -/
theorem lexemes_plainText {ts : List Token} (hne : ∀ t ∈ ts, t.text ≠ [])
    (hcuts : ts.IsChain fun a b => Cuts a.text b.text) :
    lexemes (plainText ts) = ts.flatMap Token.lexemes := by
  induction ts with
  | nil => rfl
  | cons t ts ih =>
      have hrest := ih (fun u hu => hne u (List.mem_cons_of_mem t hu)) hcuts.of_cons
      cases ts with
      | nil => simp [Token.lexemes]
      | cons u ts =>
          obtain ⟨c, cs, hu⟩ :=
            List.exists_cons_of_ne_nil (hne u (List.mem_cons_of_mem t List.mem_cons_self))
          have hcut : Cuts t.text (plainText (u :: ts)) := by
            have := (List.isChain_cons_cons.mp hcuts).1
            rw [Cuts] at this ⊢
            simpa [plainText_cons, hu] using this
          rw [plainText_cons, lexemes_append hcut, hrest]
          rfl

/-! ### Json without backslashes -/

namespace Lexing

/-- In a text with proper lexemes, a quoted text without backslashes is plain. -/
theorem isPlain_of_proper {ls : List Lexeme} {t : Text} {cs ds : List Char}
    (hcs : ∀ c ∈ cs, c ≠ '"' ∧ c ≠ '\\')
    (hproper : ∀ l ∈ ((Lexing.mk ls (.string t)).run (cs ++ ds)).finished, l.isProper) :
    ∀ c ∈ cs, isPlain c := by
  induction cs generalizing t with
  | nil => simp
  | cons c cs ih =>
      rw [List.cons_append] at hproper
      have hc := hcs c List.mem_cons_self
      have hn : ¬c.toNat < 32 := by
        intro hn
        obtain ⟨l, hl, hbad⟩ := exists_improper_of_control hn (cs ++ ds)
        exact hbad (hproper l hl)
      rw [run_cons, show (Lexing.mk ls (.string t)).step c = ⟨ls, .string (.scalar c :: t)⟩ by
        simp [Lexing.step, stepString, hc, hn]] at hproper
      refine List.forall_mem_cons.mpr
        ⟨?_, ih (fun d hd => hcs d (List.mem_cons_of_mem c hd)) hproper⟩
      simp [isPlain, hc, Nat.not_lt.mp hn]

/-- In a text with proper lexemes, white space outside of strings is that of json. -/
theorem isJsonSpace_of_proper {s : Lexing} (hs : Outside s) {cs ds : List Char}
    (hcs : ∀ c ∈ cs, isBlank c)
    (hproper : ∀ l ∈ (s.run (cs ++ ds)).finished, l.isProper) :
    (∀ c ∈ cs, isJsonSpace c) ∧ Outside (s.run cs) := by
  induction cs generalizing s with
  | nil => exact ⟨by simp, hs⟩
  | cons c cs ih =>
      rw [List.cons_append, run_cons] at hproper
      have hb := hcs c List.mem_cons_self
      have hc : isJsonSpace c := by
        by_contra hc
        obtain ⟨ls, w, hstep⟩ := hs.step_word (Token.isWordChar_of_isBlank hb hc)
        rw [hstep] at hproper
        obtain ⟨l, hl, hbad⟩ := exists_improper_of_word List.mem_cons_self
          (Token.not_isWordLetter_of_isBlank hb) (cs ++ ds)
        exact hbad (hproper l hl)
      have hstep : s.step c = ⟨s.finished, .between⟩ := by
        have hnot : ¬isWordChar c := by simp [isWordChar, hc]
        rw [hs.step_separator hnot]
        exact step_space hc
      rw [hstep] at hproper
      obtain ⟨hspaces, hout⟩ := ih (.inl rfl) (fun d hd => hcs d (List.mem_cons_of_mem c hd))
        hproper
      rw [run_cons, hstep]
      exact ⟨List.forall_mem_cons.mpr ⟨hc, hspaces⟩, hout⟩

end Lexing

/-- In a text with proper lexemes, the quoted text of a string without backslashes is plain. -/
theorem Token.Lawful.isPlain_of_proper {t : Token} {s : Lexing} {cs : List Char} (h : t.Lawful)
    (hkind : t.kind = .string) (hslash : '\\' ∉ t.text) (hs : s.Outside)
    (hproper : ∀ l ∈ (s.run (t.text ++ cs)).finished, l.isProper) :
    (∀ c ∈ t.content, isPlain c) ∧ (s.run t.text).Outside := by
  obtain ⟨htext, hquote⟩ := h.text_eq hkind
  rw [htext] at hproper hslash ⊢
  have hcontent : ∀ c ∈ t.content, c ≠ '"' ∧ c ≠ '\\' := by
    intro c hc
    refine ⟨hquote c hc, ?_⟩
    rintro rfl
    exact hslash (by simp [hc])
  have hopen : s.run ('"' :: t.content ++ ['"'] ++ cs) =
      (Lexing.mk s.finished (.string [])).run (t.content ++ ('"' :: cs)) := by
    rw [List.append_assoc, List.cons_append, Lexing.run_cons, hs.step_separator (by decide)]
    rfl
  rw [hopen] at hproper
  have hplain := Lexing.isPlain_of_proper hcontent hproper
  refine ⟨hplain, ?_⟩
  rw [List.cons_append, Lexing.run_cons, hs.step_separator (by decide), ← Lexing.run_cons,
    ← List.cons_append, Lexing.run_quoted hplain]
  exact .inl rfl

/-- The tokens of a text with proper lexemes and no backslash are strict, whatever stood before
it outside of strings. -/
theorem strict_of_proper {ts : List Token} {s : Lexing} (hlaw : ∀ t ∈ ts, t.Lawful)
    (hslash : '\\' ∉ plainText ts) (hs : s.Outside)
    (hproper : ∀ l ∈ (s.run (plainText ts)).finished, l.isProper) : ∀ t ∈ ts, t.Strict := by
  induction ts generalizing s with
  | nil => simp
  | cons t ts ih =>
      rw [plainText_cons] at hproper hslash
      have ht := hlaw t List.mem_cons_self
      have hrest := fun {s : Lexing} (hs : s.Outside) =>
        ih (s := s) (fun u hu => hlaw u (List.mem_cons_of_mem t hu))
          (fun h => hslash (List.mem_append_right _ h)) hs
      rw [List.forall_mem_cons]
      cases hkind : t.kind with
      | string =>
          have hcontent : '\\' ∉ t.text := fun h => hslash (List.mem_append_left _ h)
          obtain ⟨hplain, hout⟩ := ht.isPlain_of_proper hkind hcontent hs hproper
          rw [Lexing.run_append] at hproper
          exact ⟨by simpa [Token.Strict, hkind] using hplain, hrest hout hproper⟩
      | whitespace =>
          have hblank : ∀ c ∈ t.text, isBlank c := by
            simp only [Token.Lawful, hkind] at ht
            exact ht.2
          obtain ⟨hspaces, hout⟩ := Lexing.isJsonSpace_of_proper hs hblank hproper
          rw [Lexing.run_append] at hproper
          exact ⟨by simpa [Token.Strict, hkind] using hspaces, hrest hout hproper⟩
      | punctuation =>
          obtain ⟨c, m, rfl, hm⟩ := ht.eq_mark hkind
          have hstep : s.run (Token.mark c).text = ⟨m :: s.finished, .between⟩ :=
            hs.step_mark hm
          rw [Lexing.run_append, hstep] at hproper
          exact ⟨trivial, hrest (.inl rfl) hproper⟩
      | bare =>
          rw [Lexing.run_append] at hproper
          exact ⟨by simp [Token.Strict, hkind],
            hrest (hs.run_word (ht.isWordChar hkind).2) hproper⟩

/-- **Json without backslashes** has strict tokens. -/
theorem strict_of_tokenize {cs : List Char} {ts : List Token} {j : Json}
    (hread : Json.read cs = .ok j) (hslash : '\\' ∉ cs) (h : tokenize cs = .ok ts) :
    ∀ t ∈ ts, t.Strict := by
  have htext := plainText_of_tokenize h
  refine strict_of_proper (s := .start) (lawful_of_tokenize h) (by rw [htext]; exact hslash)
    (.inl rfl) fun l hl => ?_
  rw [htext] at hl
  exact Json.isProper_of_read hread l (by rw [lexemes_eq]; exact List.mem_reverse.mpr hl)

/-! ### Strings begin and end together -/

/-- Both readings of a text without backslashes are in a string at the same time, unless json
has seen something improper. -/
def InStep (s : Scan) (l : Lexing) : Prop :=
  (∃ x ∈ l.done, ¬x.isProper) ∨ (∃ p t, s.pending = .string p ∧ l.phase = .string t) ∨
    (∀ p, s.pending ≠ .string p) ∧ l.Outside

theorem Lexing.mem_done_step {s : Lexing} {l : Lexeme} (h : l ∈ s.done) (c : Char) :
    l ∈ (s.step c).done := by
  have habove : s = (Lexing.mk [] s.phase).above s.done := rfl
  rw [habove, step_above]
  exact List.mem_append_right _ h

theorem InStep.step {s : Scan} {l : Lexing} (h : InStep s l) {c : Char} (hc : c ≠ '\\') :
    InStep (s.step c) (l.step c) := by
  obtain ⟨done, pending⟩ := s
  rcases h with ⟨x, hx, hbad⟩ | ⟨p, t, rfl, ht⟩ | ⟨hnot, hout⟩
  · exact .inl ⟨x, Lexing.mem_done_step hx c, hbad⟩
  · obtain ⟨ls, phase⟩ := l
    obtain rfl : phase = .string t := ht
    by_cases hq : c = '"'
    · subst hq
      exact .inr (.inr ⟨by simp [Scan.step], .inl rfl⟩)
    · by_cases hn : c.toNat < 32
      · left
        refine ⟨.bad, ?_, by decide⟩
        simp [Lexing.step, Lexing.stepString, hq, hc, hn, Lexing.fail]
      · right
        left
        exact ⟨c :: p, .scalar c :: t, by simp [Scan.step, hq],
          by simp [Lexing.step, Lexing.stepString, hq, hc, hn]⟩
  · right
    by_cases hq : c = '"'
    · subst hq
      left
      rw [hout.step_separator (by decide)]
      refine ⟨['"'], [], ?_, rfl⟩
      cases pending with
      | string p => exact absurd rfl (hnot p)
      | _ => rfl
    · right
      constructor
      · cases pending with
        | string p => exact absurd rfl (hnot p)
        | _ =>
            simp only [Scan.step]
            split_ifs <;> simp_all
      · exact hout.step_of_ne_quote hq

theorem inStep_foldl {cs : List Char} (hslash : '\\' ∉ cs) {s : Scan} {l : Lexing}
    (h : InStep s l) : InStep (cs.foldl Scan.step s) (l.run cs) := by
  induction cs generalizing s l with
  | nil => exact h
  | cons c cs ih =>
      simp only [List.mem_cons, not_or] at hslash
      exact ih hslash.2 (h.step (Ne.symm hslash.1))

/-- **Json without backslashes** is cut into tokens. -/
theorem exists_tokenize_of_read {cs : List Char} {j : Json} (hread : Json.read cs = .ok j)
    (hslash : '\\' ∉ cs) : ∃ ts, tokenize cs = .ok ts := by
  have hstart : InStep Scan.start Lexing.start := .inr (.inr ⟨by simp [Scan.start], .inl rfl⟩)
  have hproper : ∀ l ∈ (Lexing.start.run cs).finished, l.isProper := by
    intro l hl
    exact Json.isProper_of_read hread l (by rw [lexemes_eq]; exact List.mem_reverse.mpr hl)
  rcases inStep_foldl hslash hstart with ⟨x, hx, hbad⟩ | ⟨p, t, -, ht⟩ | ⟨hnot, -⟩
  · exact absurd (hproper x (Lexing.mem_finished_run hx [])) hbad
  · have hlast : .bad ∈ (Lexing.start.run cs).finished := by
      simp [Lexing.finished, ht]
    exact absurd (hproper _ hlast) (by decide)
  · exact ⟨_, tokenize_eq_ok_iff.mpr ⟨hnot, rfl⟩⟩

end MarketRegistry
