import MarketRegistry.Proofs.Dump.Edits
import MarketRegistry.Proofs.Numerals

/-!
# Readings at converted literals

What a reading does at the quotes of a converted literal and at the text that it is rendered
as. A converted literal is a word between quotes, so that a quote which closes a string is
fatal in front of it; what it is rendered as is read like any other value, unless the word goes
on.

## Main results

* `Literal.exists_of_isConverted` — a converted literal begins with a word.
* `Lexing.run_quote` — a quoted text is read as a string, leaves one open or breaks.
* `Lexing.exists_of_render` — the value that a converted literal is rendered as.
-/

namespace MarketRegistry

/-! ### The characters of converted literals -/

/-- The characters of integers and addresses: hexadecimal digits, the minus and the digits of
base 58. -/
def isLiteralChar (c : Char) : Bool :=
  c == '-' || Numeral.isHexDigit c || (Base58.digit? c).isSome

theorem isWordChar_of_isLiteralChar {c : Char} (h : isLiteralChar c) : isWordChar c :=
  isWordChar_of_all (by decide) h

theorem ne_slash_of_isLiteralChar {c : Char} (h : isLiteralChar c) : c ≠ '\\' := by
  rintro rfl
  exact absurd h (by decide)

namespace Literal

variable {cs : List Char} {l : Literal}

theorem isLiteralChar_of_integer? {i : Int} (h : integer? cs = some i) :
    cs ≠ [] ∧ ∀ c ∈ cs, isLiteralChar c := by
  rw [integer?] at h
  split at h
  · obtain ⟨hread, -⟩ := Option.filter_eq_some_iff.mp h
    unfold readSignedHex? at hread
    split at hread
    · obtain ⟨n, hn, -⟩ := Option.map_eq_some_iff.mp hread
      obtain ⟨-, hdigits⟩ := Numeral.isHexDigit_of_readHex? hn
      refine ⟨List.cons_ne_nil _ _, List.forall_mem_cons.mpr ⟨rfl, fun c hc => ?_⟩⟩
      simp [isLiteralChar, hdigits c hc]
    · obtain ⟨n, hn, -⟩ := Option.map_eq_some_iff.mp hread
      obtain ⟨hne, hdigits⟩ := Numeral.isHexDigit_of_readHex? hn
      refine ⟨hne, fun c hc => ?_⟩
      simp [isLiteralChar, hdigits c hc]
  · cases h

theorem isLiteralChar_of_ofText? {a : Address} (h : Address.ofText? cs = some a) :
    cs ≠ [] ∧ ∀ c ∈ cs, isLiteralChar c := by
  obtain ⟨bytes, hbytes, ha⟩ := Option.bind_eq_some_iff.mp h
  obtain ⟨ds, hds, hrebase⟩ := Option.map_eq_some_iff.mp hbytes
  refine ⟨?_, fun c hc => ?_⟩
  · rintro rfl
    obtain rfl : [] = ds := Option.some.inj hds
    have hlength := a.length_bytes
    rw [Address.ofBytes?_eq_some ha, ← hrebase] at hlength
    simp [Base58.rebase, Numeral.digits] at hlength
  · simp [isLiteralChar, isSome_of_mapM hds c hc]

/-- **A converted literal** begins with a word and holds no backslash. -/
theorem exists_of_isConverted (h : (classify cs).isConverted) :
    (∃ c rest, cs = c :: rest ∧ isWordChar c) ∧ '\\' ∉ cs := by
  have hcons : ∀ {ds es : List Char}, cs = ds ++ es → ds ≠ [] → (∀ c ∈ ds, isLiteralChar c) →
      ∃ c rest, cs = c :: rest ∧ isWordChar c := by
    rintro ds es rfl hne hds
    obtain ⟨d, ds, rfl⟩ := List.exists_cons_of_ne_nil hne
    exact ⟨d, ds ++ es, rfl, isWordChar_of_isLiteralChar (hds d List.mem_cons_self)⟩
  rw [classify] at h
  split at h
  · rename_i i hi
    obtain ⟨hne, hchars⟩ := isLiteralChar_of_integer? hi
    exact ⟨hcons (List.append_nil cs).symm hne hchars,
      fun hmem => ne_slash_of_isLiteralChar (hchars _ hmem) rfl⟩
  · split at h
    · rename_i a ha
      rw [address?] at ha
      split at ha
      · obtain ⟨hne, hchars⟩ := isLiteralChar_of_ofText? ha
        obtain ⟨blanks, hcs, hblanks⟩ := trimEnd_append_blanks cs
        refine ⟨hcons hcs hne hchars, fun hmem => ?_⟩
        rw [hcs, List.mem_append] at hmem
        rcases hmem with hmem | hmem
        · exact ne_slash_of_isLiteralChar (hchars _ hmem) rfl
        · exact (ne_of_isBlank (hblanks _ hmem)).2 rfl
      · cases ha
    · cases h

/-! ### Rendered literals -/

/-- The characters at which a rendered integer or address starts. -/
def isStart (c : Char) : Bool :=
  c == '-' || c == '[' || Numeral.isDecimalDigit c

theorem exists_decimal (n : Nat) :
    ∃ c rest, Numeral.decimal n = c :: rest ∧ isStart c := by
  obtain ⟨c, rest, h⟩ := List.exists_cons_of_ne_nil (Nat.toDigits_ne_nil (n := n) (b := 10))
  have hdigit := Numeral.isDecimalDigit_of_mem_decimal (n := n) (c := c) (by
    rw [Numeral.decimal, h]
    exact List.mem_cons_self)
  exact ⟨c, rest, h, by simp [isStart, hdigit]⟩

/-- A converted literal is rendered as digits, with a sign or without, or as an array. -/
theorem exists_render (h : l.isConverted) : ∃ c rest, l.render = c :: rest ∧ isStart c := by
  cases l with
  | integer i =>
      rw [render, Numeral.signedDecimal]
      split
      · exact ⟨'-', _, rfl, rfl⟩
      · exact exists_decimal i.natAbs
  | key a => exact ⟨'[', _, rfl, rfl⟩
  | text cs => cases h

theorem not_isJsonSpace_of_isStart {c : Char} (h : isStart c) : ¬isJsonSpace c := by
  intro hc
  simp only [isJsonSpace, Bool.or_eq_true, beq_iff_eq] at hc
  rcases hc with ((rfl | rfl) | rfl) | rfl <;> exact absurd h (by decide)

theorem ne_of_isStart {c d : Char} (h : isStart c) (hd : ¬isStart d) : c ≠ d := by
  rintro rfl
  exact hd h

/-- No escape is written with such a character. -/
theorem escaped?_of_isStart {c : Char} (h : isStart c) : escaped? c = none := by
  have hne : ∀ {d : Char}, isStart d = false → c ≠ d := fun hd => ne_of_isStart h (by simp [hd])
  simp [escaped?, hne (d := '"') rfl, hne (d := '\\') rfl, hne (d := '/') rfl,
    hne (d := 'b') rfl, hne (d := 'f') rfl, hne (d := 'n') rfl, hne (d := 'r') rfl,
    hne (d := 't') rfl]

end Literal

namespace Lexing

variable {ls ms : List Lexeme} {p : Phase} {t : Text} {l : Literal} {o : Outline}
  {cs next : List Char} {c : Char}

/-- No converted literal follows a backslash. -/
theorem not_accepts_render_in_escape (h : l.isConverted) :
    ¬((Lexing.mk ls (.escape t)).run (l.render ++ next)).Accepts := by
  obtain ⟨c, rest, hrender, hc⟩ := Literal.exists_render h
  have hfail : (Lexing.mk ls (.escape t)).step c = fail ls := by
    simp [step, stepEscape, Literal.escaped?_of_isStart hc,
      Literal.ne_of_isStart (d := 'u') hc (by decide)]
  rw [hrender, List.cons_append, run_cons, hfail]
  exact not_accepts_fail

/-! ### Quoted texts -/

theorem run_fail (ls : List Lexeme) (cs : List Char) : (fail ls).run cs = fail ls := by
  induction cs with
  | nil => rfl
  | cons c cs ih => exact ih

/-- Only a quote ends a string. -/
theorem step_inString_of_ne_quote (ls : List Lexeme) (hp : p.inString) (hc : c ≠ '"') :
    (∃ q : Phase, q.inString ∧ (Lexing.mk ls p).step c = ⟨ls, q⟩) ∨
      (Lexing.mk ls p).step c = fail ls := by
  rcases step_inString ls hp c with ⟨u, hstep⟩ | hstep | ⟨q, hq, hstep⟩
  · have hdone : ((Lexing.mk ls p).step c).phase ≠ .between := by
      cases p with
      | between | word _ | broken => cases hp
      | string t =>
          simp only [step, stepString, beq_iff_eq, hc, if_false]
          split_ifs <;> simp [fail]
      | escape t =>
          simp only [step, stepEscape]
          split_ifs
          · simp
          · cases escaped? c <;> simp [fail]
      | unit t value left =>
          simp only [step, stepUnit]
          cases Numeral.hexDigit? c with
          | none => simp [fail]
          | some d =>
              simp only
              split_ifs <;> simp
    exact absurd (by rw [hstep]) hdone
  · exact .inr hstep
  · exact .inl ⟨q, hq, hstep⟩

/-- In a string, a text without quotes stays in it or breaks. -/
theorem run_inString (ls : List Lexeme) (hp : p.inString) (hcs : ∀ c ∈ cs, c ≠ '"') :
    (∃ q : Phase, q.inString ∧ (Lexing.mk ls p).run cs = ⟨ls, q⟩) ∨
      (Lexing.mk ls p).run cs = fail ls := by
  induction cs generalizing p with
  | nil => exact .inl ⟨p, hp, rfl⟩
  | cons c cs ih =>
      obtain ⟨hc, hcs⟩ := List.forall_mem_cons.mp hcs
      rw [run_cons]
      rcases step_inString_of_ne_quote ls hp hc with ⟨q, hq, hstep⟩ | hstep
      · rw [hstep]
        exact ih hq hcs
      · rw [hstep]
        exact .inr (run_fail ls cs)

/-- In a string, a text without quotes and backslashes stays in it or has a control character. -/
theorem run_string_or_fail (ls : List Lexeme) (t : Text) (hcs : ∀ c ∈ cs, c ≠ '"' ∧ c ≠ '\\') :
    (∀ c ∈ cs, 32 ≤ c.toNat) ∧ (∃ u, (Lexing.mk ls (.string t)).run cs = ⟨ls, .string u⟩) ∨
      (¬∀ c ∈ cs, 32 ≤ c.toNat) ∧ (Lexing.mk ls (.string t)).run cs = fail ls := by
  induction cs generalizing t with
  | nil => exact .inl ⟨by simp, t, rfl⟩
  | cons c cs ih =>
      obtain ⟨⟨hq, hb⟩, hcs⟩ := List.forall_mem_cons.mp hcs
      rw [run_cons, List.forall_mem_cons]
      by_cases hc : 32 ≤ c.toNat
      · rw [step_plain (by simp [isPlain, hq, hb, hc])]
        rcases ih (.scalar c :: t) hcs with ⟨hall, hrun⟩ | ⟨hall, hrun⟩
        · exact .inl ⟨⟨hc, hall⟩, hrun⟩
        · exact .inr ⟨fun h => hall h.2, hrun⟩
      · have hfail : (Lexing.mk ls (.string t)).step c = fail ls := by
          simp [step, stepString, hq, hb, Nat.lt_of_not_le hc]
        rw [hfail]
        exact .inr ⟨fun h => hc h.1, run_fail ls cs⟩

/-- **A quoted text** is read as a string, leaves one open behind a backslash, or breaks. -/
theorem run_quote (ls : List Lexeme) (hcs : ∀ c ∈ cs, c ≠ '"') :
    (∃ t, (Lexing.mk ls .between).run (quote cs) = ⟨.string t :: ls, .between⟩) ∨
      ('\\' ∈ cs ∧ ∃ t, (Lexing.mk ls .between).run (quote cs) = ⟨ls, .string t⟩) ∨
      (Lexing.mk ls .between).run (quote cs) = fail ls := by
  have hquote : (Lexing.mk ls .between).run (quote cs) =
      ((Lexing.mk ls (.string [])).run cs).step '"' := by
    rw [quote, List.cons_append, run_cons, run_append]
    rfl
  rw [hquote]
  by_cases hslash : '\\' ∈ cs
  · rcases run_inString ls (p := .string []) rfl hcs with ⟨q, hq, hrun⟩ | hrun
    · rw [hrun]
      cases q with
      | between | word _ | broken => cases hq
      | string u => exact .inl ⟨u.reverse, rfl⟩
      | escape u => exact .inr (.inl ⟨hslash, .scalar '"' :: u, rfl⟩)
      | unit u value left => exact .inr (.inr rfl)
    · rw [hrun]
      exact .inr (.inr rfl)
  · rcases run_string_or_fail ls [] fun c hc =>
        ⟨hcs c hc, fun h => hslash (h ▸ hc)⟩ with ⟨-, u, hrun⟩ | ⟨-, hrun⟩
    · rw [hrun]
      exact .inl ⟨u.reverse, rfl⟩
    · rw [hrun]
      exact .inr (.inr rfl)

/-! ### Converted literals between lexemes -/

/-- No value directly follows a string. -/
theorem not_accepts_string_of_startsValue (hc : startsValue c) :
    ¬((Lexing.mk (.string t :: ls) .between).run (c :: cs)).Accepts := by
  intro h
  obtain ⟨o', ho'⟩ := h.exists_outline
  obtain ⟨o, -, hstep⟩ := outline_cons_eq_some_iff.mp ho'
  exact not_accepts_of_startsValue ho' (Outline.isFull_of_step_string hstep) hc h

/-- No value directly follows the quote that closes a string. -/
theorem not_accepts_of_close (hc : startsValue c) :
    ¬((Lexing.mk ls (.string t)).run ('"' :: c :: cs)).Accepts :=
  not_accepts_string_of_startsValue (t := t.reverse) hc

end Lexing

/-- No word goes on into the text. -/
def Unfused (next : List Char) : Prop :=
  ∀ c ∈ next.head?, ¬isWordChar c

namespace Lexing

variable {ls ms : List Lexeme} {p : Phase} {t : Text} {l : Literal} {o : Outline}
  {cs next : List Char} {c : Char}

/-- Where no word goes on, the word before is finished. -/
theorem Outside.accepts_iff {s : Lexing} (hs : s.Outside) (hnext : Unfused next) :
    (s.run next).Accepts ↔ ((Lexing.mk s.finished .between).run next).Accepts := by
  obtain ⟨ls, p⟩ := s
  rcases hs with rfl | ⟨w, rfl⟩
  · exact Iff.rfl
  · cases next with
    | nil => exact Iff.rfl
    | cons c next =>
        rw [run_cons, step_of_not_isWordChar (hnext c rfl)]
        exact Iff.rfl

theorem outside_render (hl : l.Sound) : (start.run l.render).Outside := by
  cases l with
  | integer i =>
      rw [Literal.render, run_start_number (Number.ofChars?_signedDecimal
        (natAbs_lt_of_isInt128 hl))]
      exact .inr ⟨_, rfl⟩
  | key a => exact .inl (Literal.closed_render hl (by simp)).ends
  | text cs => exact .inl (Literal.closed_render hl (by simp)).ends

/-- **The value that a converted literal is rendered as** fills a place for one. -/
theorem exists_of_render (hl : l.Sound) (hconv : l.isConverted) (hnext : Unfused next)
    (h : ((Lexing.mk ls .between).run (l.render ++ next)).Accepts) :
    ∃ ms o o', (Lexing.mk ls .between).outline = some o ∧ o.filled? = some o' ∧
      (Lexing.mk ms .between).outline = some o' ∧ ((Lexing.mk ms .between).run next).Accepts := by
  have hout : ((start.run l.render).above ls).Outside := outside_render hl
  have hfinished : ((start.run l.render).above ls).finished =
      l.json.toLexemes.reverse ++ ls := by
    rw [finished_above, ← Literal.lexemes_render hl, lexemes_eq, List.reverse_reverse]
  rw [run_append, run_between, hout.accepts_iff hnext, hfinished] at h
  have hstring : ∀ t, l.json ≠ .string t := by
    intro t
    cases l with
    | integer i | key a => simp [Literal.json]
    | text cs => cases hconv
  obtain ⟨o', ho'⟩ := h.exists_outline
  have hfilled := ho'
  rw [outline_append _ _ _ .between, List.reverse_reverse, Option.bind_eq_some_iff] at hfilled
  obtain ⟨o, ho, hrun⟩ := hfilled
  rw [o.run_toLexemes hstring] at hrun
  exact ⟨_, o, o', ho, hrun, ho', h⟩

end Lexing

end MarketRegistry
