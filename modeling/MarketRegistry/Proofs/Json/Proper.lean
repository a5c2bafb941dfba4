import MarketRegistry.Proofs.Json.Decimal
import MarketRegistry.Proofs.Json.Syntax

/-!
# Proper lexemes

No tree is written with an ill-formed lexeme or a constant, and an ill-formed piece of a text
cannot be mended by what follows it: it leaves a lexeme that is not proper.

## Main results

* `Json.isProper_of_mem_toLexemes` — all lexemes of a tree are proper.
* `Lexeme.isWordLetter_of_isProper` — the characters of proper words.
* `Lexing.exists_improper_of_word` — a word with any other character spoils a text.
-/

namespace MarketRegistry

/-- A lexeme is **proper** when it is neither ill-formed nor a constant. -/
def Lexeme.isProper : Lexeme → Bool
  | .bad => false
  | .constant _ => false
  | _ => true

namespace Json

mutual

/-- **All lexemes of a tree** are proper. -/
theorem isProper_of_mem_toLexemes (j : Json) {l : Lexeme} (h : l ∈ j.toLexemes) :
    l.isProper := by
  match j with
  | .null | .bool _ | .number _ | .string _ =>
      rw [toLexemes, List.mem_singleton] at h
      subst h
      rfl
  | .array [] | .object [] =>
      simp only [toLexemes, List.mem_cons, List.not_mem_nil, or_false] at h
      rcases h with rfl | rfl <;> rfl
  | .array (j :: js) =>
      simp only [toLexemes, List.mem_cons, List.mem_append] at h
      rcases h with rfl | h | h
      · rfl
      · exact isProper_of_mem_toLexemes j h
      · exact isProper_of_mem_itemsTail js h
  | .object ((k, v) :: ms) =>
      simp only [toLexemes, List.mem_cons, List.mem_append] at h
      rcases h with rfl | rfl | rfl | h | h
      · rfl
      · rfl
      · rfl
      · exact isProper_of_mem_toLexemes v h
      · exact isProper_of_mem_membersTail ms h

theorem isProper_of_mem_itemsTail (js : List Json) {l : Lexeme} (h : l ∈ itemsTail js) :
    l.isProper := by
  match js with
  | [] =>
      rw [itemsTail, List.mem_singleton] at h
      subst h
      rfl
  | j :: js =>
      simp only [itemsTail, List.mem_cons, List.mem_append] at h
      rcases h with rfl | h | h
      · rfl
      · exact isProper_of_mem_toLexemes j h
      · exact isProper_of_mem_itemsTail js h

theorem isProper_of_mem_membersTail (ms : List (Text × Json)) {l : Lexeme}
    (h : l ∈ membersTail ms) : l.isProper := by
  match ms with
  | [] =>
      rw [membersTail, List.mem_singleton] at h
      subst h
      rfl
  | (k, v) :: ms =>
      simp only [membersTail, List.mem_cons, List.mem_append] at h
      rcases h with rfl | rfl | rfl | h | h
      · rfl
      · rfl
      · rfl
      · exact isProper_of_mem_toLexemes v h
      · exact isProper_of_mem_membersTail ms h

end

/-- A text that reads as a tree has proper lexemes only. -/
theorem isProper_of_read {cs : List Char} {j : Json} (h : read cs = .ok j) :
    ∀ l ∈ lexemes cs, l.isProper := by
  intro l hl
  rw [ofLexemes_eq_ok_iff.mp h] at hl
  exact isProper_of_mem_toLexemes j hl

end Json

/-! ### Words -/

/-- The text of a string. -/
def Lexeme.string? : Lexeme → Option Text
  | .string t => some t
  | _ => none

/-- The character of a punctuation lexeme. -/
def Lexeme.markChar? : Lexeme → Option Char
  | .braceOpen => some '\x7b'
  | .braceClose => some '\x7d'
  | .bracketOpen => some '['
  | .bracketClose => some ']'
  | .colon => some ':'
  | .comma => some ','
  | _ => none

theorem Lexeme.markChar?_of_ofMark? {c : Char} {m : Lexeme} (h : ofMark? c = some m) :
    m.markChar? = some c := by
  rw [ofMark?] at h
  split_ifs at h <;> cases h <;> simp_all [markChar?]

theorem Lexeme.string?_of_ofMark? {c : Char} {m : Lexeme} (h : ofMark? c = some m) :
    m.string? = none := by
  rw [ofMark?] at h
  split_ifs at h <;> cases h <;> rfl

/-- A word is neither punctuation nor a string. -/
theorem Lexeme.ofWord_of_word (cs : List Char) :
    (ofWord cs).markChar? = none ∧ (ofWord cs).string? = none := by
  rw [ofWord]
  split_ifs <;> try exact ⟨rfl, rfl⟩
  split
  · exact ⟨rfl, rfl⟩
  · split <;> exact ⟨rfl, rfl⟩

/-- The characters of proper words: those of numbers and of the three names. -/
def isWordLetter (c : Char) : Bool :=
  Number.isNumberChar c || "nulltruefalse".toList.contains c

/-- Word letters are printable ASCII characters. -/
theorem toNat_of_isWordLetter {c : Char} (h : isWordLetter c) : 32 < c.toNat ∧ c.toNat < 127 := by
  simp only [isWordLetter, Number.isNumberChar, Bool.or_eq_true, beq_iff_eq] at h
  rcases h with (((((h | rfl) | rfl) | rfl) | rfl) | rfl) | h
  · have := Numeral.isDecimalDigit_iff.mp h
    omega
  all_goals first | decide | skip
  have hall : "nulltruefalse".toList.all fun d => 32 < d.toNat && d.toNat < 127 := by decide
  simpa using List.all_eq_true.mp hall c (List.contains_iff_mem.mp h)

/-- **The characters of proper words.** -/
theorem Lexeme.isWordLetter_of_isProper {cs : List Char} (h : (ofWord cs).isProper) :
    ∀ c ∈ cs, isWordLetter c := by
  have hname : ∀ {s : String}, cs = s.toList → s.toList.all isWordLetter →
      ∀ c ∈ cs, isWordLetter c := by
    rintro s rfl hs
    exact List.all_eq_true.mp hs
  rw [ofWord] at h
  split at h
  · exact hname ‹_› (by decide)
  split at h
  · exact hname ‹_› (by decide)
  split at h
  · exact hname ‹_› (by decide)
  split at h
  · simp [isProper] at h
  split at h
  · rename_i n hn
    intro c hc
    simp [isWordLetter, Number.isNumberChar_of_mem hn c hc]
  · simp [isProper] at h

namespace Lexing

/-- What is finished stays. -/
theorem mem_finished_run {s : Lexing} {l : Lexeme} (h : l ∈ s.done) (cs : List Char) :
    l ∈ (s.run cs).finished := by
  have habove : s = (Lexing.mk [] s.phase).above s.done := rfl
  rw [habove, run_above, finished_above]
  exact List.mem_append_right _ h

/-- **A word with a wrong character** leaves a lexeme that is not proper. -/
theorem exists_improper_of_word {ls : List Lexeme} {w : List Char} {c : Char} (hc : c ∈ w)
    (hwrong : ¬isWordLetter c) (cs : List Char) :
    ∃ l ∈ ((Lexing.mk ls (.word w)).run cs).finished, ¬l.isProper := by
  have himproper : ∀ {w : List Char}, c ∈ w → ¬(Lexeme.ofWord w.reverse).isProper :=
    fun hw h => hwrong (Lexeme.isWordLetter_of_isProper h c (List.mem_reverse.mpr hw))
  induction cs generalizing w with
  | nil => exact ⟨_, List.mem_cons_self, himproper hc⟩
  | cons d cs ih =>
      by_cases hd : isWordChar d
      · rw [run_cons, step_word hd]
        exact ih (List.mem_cons_of_mem d hc)
      · rw [run_cons, step_of_not_isWordChar hd, ← run_cons]
        exact ⟨_, mem_finished_run List.mem_cons_self _, himproper hc⟩

/-- A control character in a string leaves a lexeme that is not proper. -/
theorem exists_improper_of_control {ls : List Lexeme} {t : Text} {c : Char}
    (hc : c.toNat < 32) (cs : List Char) :
    ∃ l ∈ ((Lexing.mk ls (.string t)).run (c :: cs)).finished, ¬l.isProper := by
  have hq : c ≠ '"' := by
    rintro rfl
    exact absurd hc (by decide)
  have hb : c ≠ '\\' := by
    rintro rfl
    exact absurd hc (by decide)
  have hstep : (Lexing.mk ls (.string t)).step c = fail ls := by
    simp [step, stepString, hq, hb, hc]
  rw [run_cons, hstep]
  exact ⟨.bad, mem_finished_run List.mem_cons_self _, by decide⟩

end Lexing

end MarketRegistry
