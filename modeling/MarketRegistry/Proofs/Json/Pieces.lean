import MarketRegistry.Json.Lexeme
import Mathlib.Data.List.TakeWhile

/-!
# Json texts piece by piece

What stands before a place in a json text matters for the lexemes after it only through the
phase of the reading there. A text can therefore be cut into pieces that are read on their own,
wherever no word goes on across the cut.

## Main definitions

* `Lexing.run` — the reading of several characters.
* `Cuts`, `Closed` — where a text may be cut, and pieces that may stand anywhere.

## Main results

* `Lexing.run_above` — lexemes that are finished do not matter.
* `lexemes_append` — the lexemes of two pieces, one after the other.
* `lexemes_word`, `lexemes_quoted` — the lexemes of the smallest pieces.
-/

namespace MarketRegistry

namespace Lexing

/-- Several characters more. -/
def run (s : Lexing) (cs : List Char) : Lexing :=
  cs.foldl step s

@[simp]
theorem run_nil (s : Lexing) : s.run [] = s := rfl

@[simp]
theorem run_cons (s : Lexing) (c : Char) (cs : List Char) : s.run (c :: cs) = (s.step c).run cs :=
  rfl

theorem run_append (s : Lexing) (cs ds : List Char) : s.run (cs ++ ds) = (s.run cs).run ds :=
  List.foldl_append

/-! ### Finished lexemes -/

/-- A reading on top of lexemes that were finished before. -/
def above (s : Lexing) (ls : List Lexeme) : Lexing :=
  ⟨s.done ++ ls, s.phase⟩

theorem finished_above (s : Lexing) (ls : List Lexeme) :
    (s.above ls).finished = s.finished ++ ls := by
  obtain ⟨done, phase⟩ := s
  cases phase <;> rfl

/-- What was finished before a character does not matter for it. -/
theorem step_above (s : Lexing) (ls : List Lexeme) (c : Char) :
    (s.above ls).step c = (s.step c).above ls := by
  have outside : ∀ s : Lexing, (s.above ls).stepOutside c = (s.stepOutside c).above ls := by
    intro s
    unfold stepOutside
    rw [finished_above]
    split
    · rfl
    split
    · rfl
    split
    · rfl
    · cases h : s.phase <;> simp [above, h]
  obtain ⟨done, phase⟩ := s
  cases phase with
  | between => exact outside _
  | word w => exact outside _
  | broken => rfl
  | string t =>
      simp only [step, above, stepString]
      split_ifs <;> rfl
  | escape t =>
      simp only [step, above, stepEscape]
      split_ifs
      · rfl
      · cases escaped? c <;> rfl
  | unit t value left =>
      simp only [step, above, stepUnit]
      cases Numeral.hexDigit? c with
      | none => rfl
      | some d =>
          simp only
          split_ifs <;> rfl

/-- **What was finished before does not matter.** -/
theorem run_above (s : Lexing) (ls : List Lexeme) (cs : List Char) :
    (s.above ls).run cs = (s.run cs).above ls := by
  induction cs generalizing s with
  | nil => rfl
  | cons c cs ih => rw [run_cons, step_above, ih, run_cons]

/-- A reading between two lexemes goes on as one that starts there. -/
theorem run_between (ls : List Lexeme) (cs : List Char) :
    (Lexing.mk ls .between).run cs = (start.run cs).above ls :=
  run_above start ls cs

end Lexing

theorem lexemes_eq (cs : List Char) : lexemes cs = (Lexing.start.run cs).finished.reverse := rfl

/-! ### Cutting -/

/-- Characters that words are made of. -/
def isWordChar (c : Char) : Bool :=
  c != '"' && !isJsonSpace c && (Lexeme.ofMark? c).isNone

/-- The characters that end a word. -/
def separators : List Char :=
  ['"', ' ', '\t', '\n', '\r', '\x7b', '\x7d', '[', ']', ':', ',']

theorem isWordChar_iff {c : Char} : isWordChar c ↔ c ∉ separators := by
  constructor
  · intro hc hmem
    have hall : separators.all fun d => !isWordChar d := by decide
    simpa [hc] using List.all_eq_true.mp hall c hmem
  · intro hc
    simp only [separators, List.mem_cons, List.not_mem_nil, or_false, not_or] at hc
    simp [isWordChar, isJsonSpace, Lexeme.ofMark?, hc]

/-- Characters of a kind are characters of words when no separator is of that kind. -/
theorem isWordChar_of_all {p : Char → Bool} (hall : separators.all fun d => !p d) {c : Char}
    (hc : p c) : isWordChar c := by
  rw [isWordChar_iff]
  intro hmem
  simpa [hc] using List.all_eq_true.mp hall c hmem

/-- After a word, a character that is none of it finds the word finished. -/
theorem Lexing.step_of_not_isWordChar {ls : List Lexeme} {w : List Char} {c : Char}
    (hc : ¬isWordChar c) :
    (Lexing.mk ls (.word w)).step c = (Lexing.mk (.ofWord w.reverse :: ls) .between).step c := by
  simp only [isWordChar, Bool.and_eq_true, bne_iff_ne, ne_eq, Bool.not_eq_true',
    Option.isNone_iff_eq_none, not_and, and_imp] at hc
  simp only [step, stepOutside, finished]
  by_cases hq : c = '"'
  · simp [hq]
  by_cases hs : isJsonSpace c = true
  · simp [hq, hs]
  · cases hm : Lexeme.ofMark? c with
    | none => exact absurd hm (hc hq (by simpa using hs))
    | some m => simp [hq, hs]

/-- A text may be **cut** where the first piece ends between two lexemes, or with a word that
the second piece does not go on with. -/
def Cuts (cs ds : List Char) : Prop :=
  (Lexing.start.run cs).phase = .between ∨
    (∃ w, (Lexing.start.run cs).phase = .word w) ∧ ∀ d ∈ ds.head?, ¬isWordChar d

/-- **Two pieces** have the lexemes of the first and those of the second. -/
theorem lexemes_append {cs ds : List Char} (h : Cuts cs ds) :
    lexemes (cs ++ ds) = lexemes cs ++ lexemes ds := by
  rw [lexemes_eq, lexemes_eq, lexemes_eq, Lexing.run_append]
  rw [Cuts] at h
  generalize Lexing.start.run cs = s at h ⊢
  obtain ⟨ls, phase⟩ := s
  rcases h with rfl | ⟨⟨w, rfl⟩, hd⟩
  · rw [Lexing.run_between, Lexing.finished_above, List.reverse_append]
    rfl
  · cases ds with
    | nil => simp [Lexing.start, Lexing.finished]
    | cons d ds =>
        rw [Lexing.run_cons, Lexing.step_of_not_isWordChar (hd d rfl), ← Lexing.run_cons,
          Lexing.run_between, Lexing.finished_above, List.reverse_append]
        rfl

/-! ### The smallest pieces -/

theorem Lexing.step_word {ls : List Lexeme} {w : List Char} {c : Char} (hc : isWordChar c) :
    (Lexing.mk ls (.word w)).step c = ⟨ls, .word (c :: w)⟩ := by
  simp only [isWordChar, Bool.and_eq_true, bne_iff_ne, Bool.not_eq_true',
    Option.isNone_iff_eq_none] at hc
  obtain ⟨⟨hq, hs⟩, hm⟩ := hc
  simp [step, stepOutside, hq, hs, hm]

theorem Lexing.step_between {ls : List Lexeme} {c : Char} (hc : isWordChar c) :
    (Lexing.mk ls .between).step c = ⟨ls, .word [c]⟩ := by
  simp only [isWordChar, Bool.and_eq_true, bne_iff_ne, Bool.not_eq_true',
    Option.isNone_iff_eq_none] at hc
  obtain ⟨⟨hq, hs⟩, hm⟩ := hc
  simp [step, stepOutside, hq, hs, hm, finished]

/-- A word goes on as long as its characters do. -/
theorem Lexing.run_word {ls : List Lexeme} {w cs : List Char} (h : ∀ c ∈ cs, isWordChar c) :
    (Lexing.mk ls (.word w)).run cs = ⟨ls, .word (cs.reverse ++ w)⟩ := by
  induction cs generalizing w with
  | nil => rfl
  | cons c cs ih =>
      rw [run_cons, step_word (h c List.mem_cons_self),
        ih fun d hd => h d (List.mem_cons_of_mem c hd)]
      simp

/-- A piece of word characters begins a word. -/
theorem Lexing.run_between_word {ls : List Lexeme} {cs : List Char} (hne : cs ≠ [])
    (h : ∀ c ∈ cs, isWordChar c) :
    (Lexing.mk ls .between).run cs = ⟨ls, .word cs.reverse⟩ := by
  cases cs with
  | nil => exact absurd rfl hne
  | cons c cs =>
      rw [run_cons, step_between (h c List.mem_cons_self),
        run_word fun d hd => h d (List.mem_cons_of_mem c hd), List.reverse_cons]

/-- The lexeme of a **word**. -/
theorem lexemes_word {cs : List Char} (hne : cs ≠ []) (h : ∀ c ∈ cs, isWordChar c) :
    lexemes cs = [.ofWord cs] := by
  rw [lexemes_eq, Lexing.start, Lexing.run_between_word hne h]
  simp [Lexing.finished]

/-- Characters that stand for themselves in a string: no quote, no backslash, no control
character. -/
def isPlain (c : Char) : Bool :=
  c != '"' && c != '\\' && 32 ≤ c.toNat

theorem Lexing.step_plain {ls : List Lexeme} {t : Text} {c : Char} (h : isPlain c) :
    (Lexing.mk ls (.string t)).step c = ⟨ls, .string (.scalar c :: t)⟩ := by
  simp only [isPlain, Bool.and_eq_true, bne_iff_ne, decide_eq_true_eq] at h
  obtain ⟨⟨hq, hb⟩, hn⟩ := h
  simp [step, stepString, hq, hb, Nat.not_lt.mpr hn]

/-- Plain characters go into a string as they are. -/
theorem Lexing.run_string {ls : List Lexeme} {t : Text} {cs : List Char}
    (h : ∀ c ∈ cs, isPlain c) :
    (Lexing.mk ls (.string t)).run cs = ⟨ls, .string ((Text.ofChars cs).reverse ++ t)⟩ := by
  induction cs generalizing t with
  | nil => rfl
  | cons c cs ih =>
      rw [run_cons, step_plain (h c List.mem_cons_self),
        ih fun d hd => h d (List.mem_cons_of_mem c hd)]
      simp [Text.ofChars]

/-- A quoted text between two lexemes. -/
theorem Lexing.run_quoted {ls : List Lexeme} {cs : List Char} (h : ∀ c ∈ cs, isPlain c) :
    (Lexing.mk ls .between).run ('"' :: cs ++ ['"']) =
      ⟨.string (Text.ofChars cs) :: ls, .between⟩ := by
  rw [List.cons_append, run_cons, run_append,
    show (Lexing.mk ls .between).step '"' = ⟨ls, .string []⟩ from rfl, run_string h]
  simp [step, stepString]

/-- The lexeme of a **quoted text**. -/
theorem lexemes_quoted {cs : List Char} (h : ∀ c ∈ cs, isPlain c) :
    lexemes ('"' :: cs ++ ['"']) = [.string (Text.ofChars cs)] := by
  rw [lexemes_eq, Lexing.start, Lexing.run_quoted h]
  rfl

/-- A **punctuation character** between two lexemes. -/
theorem Lexing.step_mark {ls : List Lexeme} {c : Char} {m : Lexeme}
    (h : Lexeme.ofMark? c = some m) :
    (Lexing.mk ls .between).step c = ⟨m :: ls, .between⟩ := by
  have hq : c ≠ '"' := by rintro rfl; simp [Lexeme.ofMark?] at h
  have hs : isJsonSpace c = false := by
    by_contra hs
    simp only [isJsonSpace, Bool.not_eq_false, Bool.or_eq_true, beq_iff_eq] at hs
    rcases hs with ((rfl | rfl) | rfl) | rfl <;> simp [Lexeme.ofMark?] at h
  simp [step, stepOutside, hq, hs, h, finished]

/-- A mark is read on its own, whatever follows it. -/
theorem lexemes_mark_cons {c : Char} {m : Lexeme} (h : Lexeme.ofMark? c = some m)
    (cs : List Char) : lexemes (c :: cs) = m :: lexemes cs := by
  have hrun : Lexing.start.run [c] = ⟨[m], .between⟩ := Lexing.step_mark h
  rw [← List.singleton_append, lexemes_append (.inl (by rw [hrun])), lexemes_eq [c], hrun]
  rfl

theorem Lexing.step_space {ls : List Lexeme} {c : Char} (h : isJsonSpace c) :
    (Lexing.mk ls .between).step c = ⟨ls, .between⟩ := by
  have hq : c ≠ '"' := by rintro rfl; simp [isJsonSpace] at h
  simp [step, stepOutside, hq, h, finished]

/-- **White space** between two lexemes. -/
theorem Lexing.run_spaces {ls : List Lexeme} {cs : List Char} (h : ∀ c ∈ cs, isJsonSpace c) :
    (Lexing.mk ls .between).run cs = ⟨ls, .between⟩ := by
  induction cs with
  | nil => rfl
  | cons c cs ih =>
      rw [run_cons, step_space (h c List.mem_cons_self),
        ih fun d hd => h d (List.mem_cons_of_mem c hd)]

/-! ### Outside of strings -/

namespace Lexing

/-- A reading is **outside** of strings. -/
def Outside (s : Lexing) : Prop :=
  s.phase = .between ∨ ∃ w, s.phase = .word w

/-- Outside of strings, a character of a word goes into one. -/
theorem Outside.step_word {s : Lexing} (h : Outside s) {c : Char} (hc : isWordChar c) :
    ∃ ls w, s.step c = ⟨ls, .word (c :: w)⟩ := by
  obtain ⟨ls, phase⟩ := s
  rcases h with rfl | ⟨w, rfl⟩
  · exact ⟨ls, [], step_between hc⟩
  · exact ⟨ls, w, Lexing.step_word hc⟩

/-- Outside of strings, any other character ends the word. -/
theorem Outside.step_separator {s : Lexing} (h : Outside s) {c : Char} (hc : ¬isWordChar c) :
    s.step c = (Lexing.mk s.finished .between).step c := by
  obtain ⟨ls, phase⟩ := s
  rcases h with rfl | ⟨w, rfl⟩
  · rfl
  · exact step_of_not_isWordChar hc

/-- Only a quote leads into a string. -/
theorem Outside.step_of_ne_quote {s : Lexing} (h : Outside s) {c : Char} (hq : c ≠ '"') :
    Outside (s.step c) := by
  by_cases hw : isWordChar c
  · obtain ⟨ls, w, hstep⟩ := h.step_word hw
    rw [hstep]
    exact .inr ⟨_, rfl⟩
  · rw [h.step_separator hw]
    left
    by_cases hspace : isJsonSpace c
    · rw [step_space hspace]
    · cases hmark : Lexeme.ofMark? c with
      | none => exact absurd (by simp [isWordChar, hq, hspace, hmark]) hw
      | some m => rw [step_mark hmark]

/-- Outside of strings, a word goes on to its end. -/
theorem Outside.run_word {s : Lexing} (h : Outside s) {cs : List Char}
    (hcs : ∀ c ∈ cs, isWordChar c) : Outside (s.run cs) := by
  induction cs generalizing s with
  | nil => exact h
  | cons c cs ih =>
      obtain ⟨ls, w, hstep⟩ := h.step_word (hcs c List.mem_cons_self)
      rw [run_cons, hstep]
      exact ih (.inr ⟨c :: w, rfl⟩) fun d hd => hcs d (List.mem_cons_of_mem c hd)

/-- Outside of strings, nothing but a quote leads into one. -/
theorem Outside.run_of_ne_quote {s : Lexing} (h : Outside s) {cs : List Char}
    (hcs : ∀ c ∈ cs, c ≠ '"') : Outside (s.run cs) := by
  induction cs generalizing s with
  | nil => exact h
  | cons c cs ih =>
      exact ih (h.step_of_ne_quote (hcs c List.mem_cons_self))
        fun d hd => hcs d (List.mem_cons_of_mem c hd)

/-- Outside of strings, a punctuation character is a lexeme of its own. -/
theorem Outside.step_mark {s : Lexing} (h : Outside s) {c : Char} {m : Lexeme}
    (hm : Lexeme.ofMark? c = some m) : s.step c = ⟨m :: s.finished, .between⟩ := by
  have hnot : ¬isWordChar c := by simp [isWordChar, hm]
  rw [h.step_separator hnot, Lexing.step_mark hm]

end Lexing

/-! ### Closed pieces -/

/-- A piece is **closed** when no word goes on across its ends. -/
structure Closed (cs : List Char) : Prop where
  starts : ∀ c ∈ cs.head?, ¬isWordChar c
  ends : (Lexing.start.run cs).phase = .between

theorem Closed.cuts_left {cs : List Char} (h : Closed cs) (ds : List Char) : Cuts cs ds :=
  .inl h.ends

theorem Closed.cuts_right {cs ds : List Char} (h : Closed ds)
    (hcs : (Lexing.start.run cs).Outside) : Cuts cs ds :=
  hcs.imp id fun hw => ⟨hw, h.starts⟩

/-- Quoted texts are closed. -/
theorem closed_quoted {cs : List Char} (h : ∀ c ∈ cs, isPlain c) :
    Closed ('"' :: cs ++ ['"']) where
  starts c hc := by
    obtain rfl : '"' = c := by simpa using hc
    decide
  ends := by rw [Lexing.start, Lexing.run_quoted h]

/-- White space is closed. -/
theorem closed_spaces {cs : List Char} (h : ∀ c ∈ cs, isJsonSpace c) : Closed cs where
  starts c hc := by simp [isWordChar, h c (List.mem_of_mem_head? hc)]
  ends := by rw [Lexing.start, Lexing.run_spaces h]

/-- What stands between two punctuation characters is closed with them, if there is no quote. -/
theorem closed_marks {c d : Char} {cs : List Char} {m n : Lexeme}
    (hc : Lexeme.ofMark? c = some m) (hd : Lexeme.ofMark? d = some n)
    (hcs : ∀ e ∈ cs, e ≠ '"') : Closed (c :: cs ++ [d]) where
  starts e he := by
    obtain rfl : c = e := by simpa using he
    simp [isWordChar, hc]
  ends := by
    have hout : ((Lexing.start.step c).run cs).Outside := by
      rw [Lexing.start, Lexing.step_mark hc]
      exact Lexing.Outside.run_of_ne_quote (.inl rfl) hcs
    rw [List.cons_append, Lexing.run_cons, Lexing.run_append, Lexing.run_cons, hout.step_mark hd]
    rfl

/-- A punctuation character is closed. -/
theorem closed_mark {c : Char} {m : Lexeme} (hc : Lexeme.ofMark? c = some m) : Closed [c] where
  starts e he := by
    obtain rfl : c = e := by simpa using he
    simp [isWordChar, hc]
  ends := by rw [Lexing.run_cons, Lexing.start, Lexing.step_mark hc]; rfl

end MarketRegistry
