import MarketRegistry.Proofs.Json.Outline

/-!
# Readings that agree

Two readings are alike when they have the same outline and are in the same phase, whatever
their strings hold. Characters that no json word, escape or number is made of may even differ:
they spoil the words of both readings, and inside a string they count for nothing. Alike
readings stay alike, so what follows is accepted in both or in neither.

## Main results

* `Near` — characters that no reading tells apart.
* `Lexing.Alike.run` — alike readings stay alike.
* `Lexing.Alike.accepts_iff` — alike readings are accepted alike.
-/

namespace MarketRegistry

/-! ### Characters -/

/-- A character is **dull** when it means nothing to json but itself. -/
structure Dull (c : Char) : Prop where
  word : isWordChar c
  letter : ¬isWordLetter c
  plain : isPlain c
  escape : c ≠ 'u' ∧ escaped? c = none
  digit : Numeral.hexDigit? c = none

/-- Characters that **no reading tells apart**. -/
def Near (c d : Char) : Prop :=
  c = d ∨ Dull c ∧ Dull d

theorem Near.refl (c : Char) : Near c c := .inl rfl

theorem Near.isWordChar_iff {c d : Char} (h : Near c d) : isWordChar c ↔ isWordChar d := by
  rcases h with rfl | ⟨hc, hd⟩
  · rfl
  · simp [hc.word, hd.word]

/-- Near characters are equal unless they belong to words. -/
theorem Near.eq_of_not_isWordChar {c d : Char} (h : Near c d) (hc : ¬isWordChar c) : c = d := by
  rcases h with rfl | ⟨hc', -⟩
  · rfl
  · exact absurd hc'.word hc

/-! ### Phases -/

/-- A word is **spoiled** by a character that no proper word has. -/
def Spoiled (w : List Char) : Prop :=
  ∃ c ∈ w, ¬isWordLetter c

theorem Spoiled.not_isProper {w : List Char} (h : Spoiled w) :
    ¬(Lexeme.ofWord w.reverse).isProper := by
  obtain ⟨c, hc, hletter⟩ := h
  exact fun hproper =>
    hletter (Lexeme.isWordLetter_of_isProper hproper c (List.mem_reverse.mpr hc))

/-- Phases that are the **same but for contents**. -/
inductive Phase.Alike : Phase → Phase → Prop where
  | between : Alike .between .between
  | word {v w : List Char} : v = w ∨ Spoiled v ∧ Spoiled w → Alike (.word v) (.word w)
  | string (t u : Text) : Alike (.string t) (.string u)
  | escape (t u : Text) : Alike (.escape t) (.escape u)
  | unit (t u : Text) (value left : Nat) : Alike (.unit t value left) (.unit u value left)
  | broken : Alike .broken .broken

theorem Phase.Alike.inString_eq {p q : Phase} (h : p.Alike q) : p.inString = q.inString := by
  cases h <;> rfl

namespace Lexing

/-- Readings that are **alike**: the same outline, and the same phase but for contents. -/
structure Alike (s s' : Lexing) : Prop where
  outline : s.outline = s'.outline
  phase : s.phase.Alike s'.phase
  broken : s.phase = .broken → s.outline = none

variable {ls ms : List Lexeme} {s s' : Lexing} {c d : Char}

theorem alike_start : Alike start start where
  outline := rfl
  phase := .between
  broken := by simp [start]

theorem outline_fail (ls : List Lexeme) : (fail ls).outline = none := by
  rw [fail, outline_cons _ _ _ .between]
  cases (Lexing.mk ls .between).outline with
  | none => rfl
  | some o => exact o.step_eq_none_of_improper (by decide)

theorem alike_fail (ls ms : List Lexeme) : Alike (fail ls) (fail ms) where
  outline := by rw [outline_fail, outline_fail]
  phase := .broken
  broken _ := outline_fail ls

/-- A phase more or less is of no account for the outline. -/
theorem alike_of_phase {p q : Phase}
    (h : (Lexing.mk ls .between).outline = (Lexing.mk ms .between).outline) (hp : p.Alike q)
    (hne : p ≠ .broken) : Alike ⟨ls, p⟩ ⟨ms, q⟩ where
  outline := h
  phase := hp
  broken hbroken := absurd hbroken hne

/-- One more lexeme on both sides, each of which does the same. -/
theorem outline_cons_congr {l m : Lexeme}
    (h : (Lexing.mk ls .between).outline = (Lexing.mk ms .between).outline)
    (hlm : ∀ o : Outline, o.step l = o.step m) :
    (Lexing.mk (l :: ls) .between).outline = (Lexing.mk (m :: ms) .between).outline := by
  rw [outline_cons _ _ _ .between, outline_cons _ ms _ .between, h]
  cases (Lexing.mk ms .between).outline with
  | none => rfl
  | some o => exact hlm o

theorem Outline.step_string_congr (o : Outline) (t u : Text) :
    o.step (.string t) = o.step (.string u) := by
  obtain ⟨frames, place⟩ := o
  cases place with
  | after =>
      match frames with
      | [] | .array :: _ | .object :: _ => rfl
  | _ => rfl

/-- Words that are alike are read alike. -/
theorem step_ofWord_congr {v w : List Char} (h : v = w ∨ Spoiled v ∧ Spoiled w) (o : Outline) :
    o.step (.ofWord v.reverse) = o.step (.ofWord w.reverse) := by
  rcases h with rfl | ⟨hv, hw⟩
  · rfl
  · rw [o.step_eq_none_of_improper hv.not_isProper, o.step_eq_none_of_improper hw.not_isProper]

/-- Near characters keep readings alike **between lexemes**. -/
theorem alike_step_between
    (h : (Lexing.mk ls .between).outline = (Lexing.mk ms .between).outline) (hcd : Near c d) :
    Alike ((Lexing.mk ls .between).step c) ((Lexing.mk ms .between).step d) := by
  by_cases hc : isWordChar c
  · rw [step_between hc, step_between (hcd.isWordChar_iff.mp hc)]
    refine alike_of_phase h (.word ?_) (by simp)
    rcases hcd with rfl | ⟨hdc, hdd⟩
    · exact .inl rfl
    · exact .inr ⟨⟨c, by simp, hdc.letter⟩, ⟨d, by simp, hdd.letter⟩⟩
  · obtain rfl := hcd.eq_of_not_isWordChar hc
    by_cases hq : c = '"'
    · subst hq
      exact alike_of_phase h (.string [] []) (by simp)
    by_cases hs : isJsonSpace c
    · rw [step_space hs, step_space hs]
      exact alike_of_phase h .between (by simp)
    · cases hm : Lexeme.ofMark? c with
      | none => exact absurd (by simp [isWordChar, hq, hs, hm]) hc
      | some m =>
          rw [step_mark hm, step_mark hm]
          exact alike_of_phase (outline_cons_congr h fun _ => rfl) .between (by simp)

/-- Near characters keep readings alike **in a word**. -/
theorem alike_step_word {v w : List Char}
    (h : (Lexing.mk ls .between).outline = (Lexing.mk ms .between).outline)
    (hvw : v = w ∨ Spoiled v ∧ Spoiled w) (hcd : Near c d) :
    Alike ((Lexing.mk ls (.word v)).step c) ((Lexing.mk ms (.word w)).step d) := by
  by_cases hc : isWordChar c
  · rw [step_word hc, step_word (hcd.isWordChar_iff.mp hc)]
    refine alike_of_phase h (.word ?_) (by simp)
    rcases hcd with rfl | ⟨hdc, hdd⟩
    · rcases hvw with rfl | ⟨⟨a, ha, hal⟩, ⟨b, hb, hbl⟩⟩
      · exact .inl rfl
      · exact .inr ⟨⟨a, List.mem_cons_of_mem _ ha, hal⟩, ⟨b, List.mem_cons_of_mem _ hb, hbl⟩⟩
    · exact .inr ⟨⟨c, by simp, hdc.letter⟩, ⟨d, by simp, hdd.letter⟩⟩
  · rw [step_of_not_isWordChar hc, step_of_not_isWordChar fun hd => hc (hcd.isWordChar_iff.mpr hd)]
    exact alike_step_between (outline_cons_congr h (step_ofWord_congr hvw)) hcd

/-- Near characters keep readings alike **in a string**. -/
theorem alike_step_string
    (h : (Lexing.mk ls .between).outline = (Lexing.mk ms .between).outline) (t u : Text)
    (hcd : Near c d) :
    Alike ((Lexing.mk ls (.string t)).step c) ((Lexing.mk ms (.string u)).step d) := by
  rcases hcd with rfl | ⟨hdc, hdd⟩
  · simp only [step, stepString]
    split_ifs
    · exact alike_of_phase
        (outline_cons_congr h fun o => Outline.step_string_congr o _ _) .between (by simp)
    · exact alike_of_phase h (.escape _ _) (by simp)
    · exact alike_fail _ _
    · exact alike_of_phase h (.string _ _) (by simp)
  · rw [step_plain hdc.plain, step_plain hdd.plain]
    exact alike_of_phase h (.string _ _) (by simp)

theorem step_escape_dull {t : Text} (hc : Dull c) :
    (Lexing.mk ls (.escape t)).step c = fail ls := by
  simp [step, stepEscape, hc.escape]

theorem step_unit_dull {t : Text} {value left : Nat} (hc : Dull c) :
    (Lexing.mk ls (.unit t value left)).step c = fail ls := by
  simp [step, stepUnit, hc.digit]

/-- Near characters keep readings alike **in an escape**. -/
theorem alike_step_escape
    (h : (Lexing.mk ls .between).outline = (Lexing.mk ms .between).outline) (t u : Text)
    (hcd : Near c d) :
    Alike ((Lexing.mk ls (.escape t)).step c) ((Lexing.mk ms (.escape u)).step d) := by
  rcases hcd with rfl | ⟨hdc, hdd⟩
  · simp only [step, stepEscape]
    split_ifs
    · exact alike_of_phase h (.unit _ _ _ _) (by simp)
    · cases escaped? c with
      | none => exact alike_fail _ _
      | some e => exact alike_of_phase h (.string _ _) (by simp)
  · rw [step_escape_dull hdc, step_escape_dull hdd]
    exact alike_fail _ _

theorem alike_step_unit
    (h : (Lexing.mk ls .between).outline = (Lexing.mk ms .between).outline) (t u : Text)
    (value left : Nat) (hcd : Near c d) :
    Alike ((Lexing.mk ls (.unit t value left)).step c)
      ((Lexing.mk ms (.unit u value left)).step d) := by
  rcases hcd with rfl | ⟨hdc, hdd⟩
  · simp only [step, stepUnit]
    cases Numeral.hexDigit? c with
    | none => exact alike_fail _ _
    | some e =>
        simp only
        split_ifs
        · exact alike_of_phase h (.string _ _) (by simp)
        · exact alike_of_phase h (.unit _ _ _ _) (by simp)
  · rw [step_unit_dull hdc, step_unit_dull hdd]
    exact alike_fail _ _

/-- **Near characters keep readings alike.** -/
theorem Alike.step (h : Alike s s') (hcd : Near c d) : Alike (s.step c) (s'.step d) := by
  obtain ⟨ls, p⟩ := s
  obtain ⟨ms, q⟩ := s'
  obtain ⟨hout, hphase, hbroken⟩ := h
  cases hphase with
  | between => exact alike_step_between hout hcd
  | word hvw => exact alike_step_word hout hvw hcd
  | string t u => exact alike_step_string hout t u hcd
  | escape t u => exact alike_step_escape hout t u hcd
  | unit t u value left => exact alike_step_unit hout t u value left hcd
  | broken => exact ⟨hout, .broken, hbroken⟩

/-- **Alike readings stay alike.** -/
theorem Alike.run {cs ds : List Char} (h : Alike s s') (hcs : List.Forall₂ Near cs ds) :
    Alike (s.run cs) (s'.run ds) := by
  induction hcs generalizing s s' with
  | nil => exact h
  | cons hcd _ ih => exact ih (h.step hcd)

/-- **Alike readings are accepted alike.** -/
theorem Alike.accepts_iff (h : Alike s s') : s.Accepts ↔ s'.Accepts := by
  obtain ⟨ls, p⟩ := s
  obtain ⟨ms, q⟩ := s'
  obtain ⟨hout, hphase, -⟩ := h
  have accepts_of : ∀ {ls ms : List Lexeme},
      (Lexing.mk ls .between).outline = (Lexing.mk ms .between).outline →
        ((Lexing.mk ls .between).Accepts ↔ (Lexing.mk ms .between).Accepts) := by
    intro ls ms h
    rw [accepts_between, accepts_between, h]
  cases hphase with
  | between | broken => exact accepts_of hout
  | word hvw => exact accepts_of (outline_cons_congr hout (step_ofWord_congr hvw))
  | string _ _ | escape _ _ | unit _ _ _ _ =>
      exact accepts_of (outline_cons_congr hout fun _ => rfl)

end Lexing

end MarketRegistry
