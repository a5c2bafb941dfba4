import MarketRegistry.Proofs.Dump.Converted

/-!
# Readings out of step

Where the name of a unit variant ends in an open escape, its closing quote does not close it:
the dump is then in the key of an object, while the normalized text is in a string of its own.
From there on the dump needs a colon where the normalized text may have none, so that not both
of them are json.

## Main results

* `Lexing.eq_colon_of_accepts`, `Lexing.not_accepts_colon` — after a key comes a colon, and after
  a value none.
* `Skewed.not_accepts` — readings out of step are not both accepted.
-/

namespace MarketRegistry

namespace Lexing

variable {ls ms : List Lexeme} {p q : Phase} {t : Text} {o o' : Outline}
  {cs ds next rest : List Char} {c d : Char}

/-! ### Colons and white space -/

/-- After a key comes a **colon**. -/
theorem eq_colon_of_accepts (ho : (Lexing.mk ls .between).outline = some o)
    (hplace : o.place = .colon) (hc : ¬isJsonSpace c)
    (h : ((Lexing.mk ls .between).run (c :: cs)).Accepts) : c = ':' := by
  by_cases hvalue : startsValue c
  · exact absurd h (not_accepts_of_startsValue ho (.inl hplace) hvalue)
  · simp only [startsValue, Bool.or_eq_true, beq_iff_eq, not_or] at hvalue
    obtain ⟨⟨⟨hword, hq⟩, -⟩, -⟩ := hvalue
    cases hm : Lexeme.ofMark? c with
    | none => exact absurd (by simp [isWordChar, hq, hc, hm]) hword
    | some m =>
        rw [run_cons, step_mark hm] at h
        have hsome := h.isSome_step ho
        have hchar := Lexeme.markChar?_of_ofMark? hm
        obtain ⟨frames, place⟩ := o
        obtain rfl : place = .colon := hplace
        cases m <;> first | (simp [Outline.step] at hsome; done) | skip
        exact (Option.some.inj hchar).symm

/-- After a value comes **no colon**. -/
theorem not_accepts_colon (ho : (Lexing.mk ls .between).outline = some o)
    (hplace : o.place = .after) : ¬((Lexing.mk ls .between).run (':' :: cs)).Accepts := by
  intro h
  rw [run_cons, step_mark rfl] at h
  have hsome := h.isSome_step ho
  obtain ⟨frames, place⟩ := o
  obtain rfl : place = .after := hplace
  match frames with
  | [] | .array :: _ | .object :: _ => simp [Outline.step, Outline.afterValue] at hsome

/-- White space may be left out. -/
theorem run_dropWhile (ls : List Lexeme) (cs : List Char) :
    (Lexing.mk ls .between).run cs =
      (Lexing.mk ls .between).run (cs.dropWhile isJsonSpace) := by
  conv_lhs => rw [← List.takeWhile_append_dropWhile (p := isJsonSpace) (l := cs)]
  rw [run_append, run_spaces fun c hc => List.mem_takeWhile_imp hc]

/-- After a key, the first character that is no white space is a colon. -/
theorem head?_eq_colon_of_accepts (ho : (Lexing.mk ls .between).outline = some o)
    (hplace : o.place = .colon) (h : ((Lexing.mk ls .between).run cs).Accepts) :
    (cs.dropWhile isJsonSpace).head? = some ':' := by
  rw [run_dropWhile] at h
  cases hcs : cs.dropWhile isJsonSpace with
  | nil =>
      rw [hcs, run_nil, accepts_between, ho, Option.some_inj] at h
      rw [h] at hplace
      cases hplace
  | cons c rest =>
      rw [hcs] at h
      have hc : ¬isJsonSpace c := by
        have := List.head?_dropWhile_not isJsonSpace cs
        simpa [hcs] using this
      rw [eq_colon_of_accepts ho hplace hc h, List.head?_cons]

/-- White space of a dump is spoilt json unless it is white space there. -/
theorem Accepts.forall_isJsonSpace (hcs : ∀ c ∈ cs, isBlank c)
    (h : ((Lexing.mk ls .between).run (cs ++ next)).Accepts) : ∀ c ∈ cs, isJsonSpace c := by
  induction cs with
  | nil => simp
  | cons c cs ih =>
      obtain ⟨hc, hcs⟩ := List.forall_mem_cons.mp hcs
      rw [List.cons_append, run_cons] at h
      by_cases hspace : isJsonSpace c
      · rw [step_space hspace] at h
        exact List.forall_mem_cons.mpr ⟨hspace, ih hcs h⟩
      · rw [step_between (Token.isWordChar_of_isBlank hc hspace)] at h
        obtain ⟨-, hletters⟩ := h.exists_filled?
        exact absurd (hletters c List.mem_cons_self) (Token.not_isWordLetter_of_isBlank hc)

/-- After a key and after a value, the same text cannot be read on. -/
theorem not_accepts_both (ho : (Lexing.mk ls .between).outline = some o)
    (hcolon : o.place = .colon) (ho' : (Lexing.mk ms .between).outline = some o')
    (hafter : o'.place = .after) (hcs : NearTexts cs ds) (hne : ∃ c ∈ cs, ¬isJsonSpace c)
    (h' : ((Lexing.mk ms .between).run (ds ++ next)).Accepts) :
    ¬((Lexing.mk ls .between).run (cs ++ rest)).Accepts := by
  intro h
  induction hcs with
  | nil =>
      obtain ⟨c, hc, -⟩ := hne
      cases hc
  | @cons c d cs ds hcd hcs ih =>
      rw [List.cons_append] at h h'
      by_cases hspace : isJsonSpace c
      · obtain rfl := hcd.eq_of_not_isWordChar (by simp [isWordChar, hspace])
        rw [run_cons, step_space hspace] at h h'
        refine ih ?_ h' h
        obtain ⟨e, he, hnot⟩ := hne
        rcases List.mem_cons.mp he with rfl | he
        · exact absurd hspace hnot
        · exact ⟨e, he, hnot⟩
      · obtain rfl := eq_colon_of_accepts ho hcolon hspace h
        obtain rfl := hcd.eq_of_not_isWordChar (by decide)
        exact not_accepts_colon ho' hafter h'

end Lexing

/-! ### Phases in step -/

/-- Phases that are alike stay alike, whatever stood before. -/
theorem Phase.Alike.step {p q : Phase} (hpq : p.Alike q) (hne : p ≠ .broken) {c d : Char}
    (hcd : Near c d) (ls ms : List Lexeme) :
    ((Lexing.mk ls p).step c).phase.Alike ((Lexing.mk ms q).step d).phase := by
  have hstep : (Lexing.mk ls p).step c = ((Lexing.mk [] p).step c).above ls :=
    Lexing.step_above ⟨[], p⟩ ls c
  have hstep' : (Lexing.mk ms q).step d = ((Lexing.mk [] q).step d).above ms :=
    Lexing.step_above ⟨[], q⟩ ms d
  rw [hstep, hstep']
  exact ((Lexing.alike_of_phase rfl hpq hne).step hcd).phase

/-- Readings **out of step**: one in a key, the other in a string in the place of a value, or
one after a key and the other after a value. -/
inductive Skewed : Lexing → Lexing → Prop
  | inString {ls ms : List Lexeme} {p q : Phase} {o o' : Outline}
      (phase : p.inString) (alike : p.Alike q)
      (outline : (Lexing.mk ls .between).outline = some o) (place : o.place = .firstKey)
      (outline' : (Lexing.mk ms .between).outline = some o') (place' : o'.filled?.isSome) :
      Skewed ⟨ls, p⟩ ⟨ms, q⟩
  | between {ls ms : List Lexeme} {o o' : Outline}
      (outline : (Lexing.mk ls .between).outline = some o) (place : o.place = .colon)
      (outline' : (Lexing.mk ms .between).outline = some o') (place' : o'.place = .after) :
      Skewed ⟨ls, .between⟩ ⟨ms, .between⟩

namespace Skewed

variable {ls ms : List Lexeme} {p q : Phase} {t : Text} {o o' : Outline}
  {s s' : Lexing} {es : List Edit} {c d : Char}

/-- A string that ends on both sides leaves a key and a value behind. -/
theorem of_close (ho : (Lexing.mk ls .between).outline = some o) (hplace : o.place = .firstKey)
    (ho' : (Lexing.mk ms .between).outline = some o') (hplace' : o'.filled?.isSome)
    (t u : Text) : Skewed ⟨.string t :: ls, .between⟩ ⟨.string u :: ms, .between⟩ := by
  obtain ⟨frames, place⟩ := o
  obtain rfl : place = .firstKey := hplace
  obtain ⟨o'', hfilled⟩ := Option.isSome_iff_exists.mp hplace'
  refine @Skewed.between _ _ ⟨frames, .colon⟩ o'' ?_ rfl ?_ (Outline.place_of_filled? hfilled)
  · rw [Lexing.outline_cons _ _ _ .between, ho]
    rfl
  · rw [Lexing.outline_cons _ _ _ .between, ho', Option.bind_some,
      Outline.step_string_of_filled? hfilled]

/-- A reading that is broken on one side has nothing to agree with on the other. -/
theorem not_between_of_inString {p q : Phase} (h : p.Alike q) (hq : q.inString) :
    p ≠ .between := by
  rintro rfl
  cases h
  cases hq

/-- **One character more** leaves readings out of step, unless one of them is not accepted. -/
theorem step (h : Skewed s s') (hcd : Near c d) {rest next : List Char}
    (hacc : ((s.step c).run rest).Accepts) (hacc' : ((s'.step d).run next).Accepts) :
    Skewed (s.step c) (s'.step d) := by
  cases h with
  | @inString ls ms p q o o' hp hpq ho hplace ho' hplace' =>
      have hq : q.inString := by rw [← hpq.inString_eq, hp]
      have hne : p ≠ .broken := by
        rintro rfl
        cases hp
      have halike := hpq.step hne hcd ls ms
      -- both strings end at the same character, which leaves a key on one side and a value on
      -- the other
      rcases Lexing.step_inString ls hp c with ⟨t, hstep⟩ | hstep | ⟨p', hp', hstep⟩
      · rcases Lexing.step_inString ms hq d with ⟨u, hstep'⟩ | hstep' | ⟨q', hq', hstep'⟩
        · rw [hstep, hstep']
          exact of_close ho hplace ho' hplace' t u
        · rw [hstep'] at hacc'
          exact absurd hacc' Lexing.not_accepts_fail
        · rw [hstep, hstep'] at halike
          exact absurd rfl (not_between_of_inString halike hq')
      · rw [hstep] at hacc
        exact absurd hacc Lexing.not_accepts_fail
      · rcases Lexing.step_inString ms hq d with ⟨u, hstep'⟩ | hstep' | ⟨q', hq', hstep'⟩
        · rw [hstep, hstep'] at halike
          cases halike
          cases hp'
        · rw [hstep'] at hacc'
          exact absurd hacc' Lexing.not_accepts_fail
        · rw [hstep, hstep'] at halike ⊢
          exact .inString hp' halike ho hplace ho' hplace'
  | @between ls ms o o' ho hplace ho' hplace' =>
      by_cases hspace : isJsonSpace c
      · obtain rfl := hcd.eq_of_not_isWordChar (by simp [isWordChar, hspace])
        rw [Lexing.step_space hspace, Lexing.step_space hspace]
        exact .between ho hplace ho' hplace'
      -- a key needs a colon, which a value does not bear
      · obtain rfl := Lexing.eq_colon_of_accepts ho hplace hspace hacc
        obtain rfl := hcd.eq_of_not_isWordChar (by decide)
        exact absurd hacc' (Lexing.not_accepts_colon ho' hplace')

/-- Readings out of step at a **converted literal**. -/
theorem not_accepts_literal (h : Skewed s s') {content rest next : List Char}
    (hconv : (Literal.classify content).isConverted)
    (hacc' : (s'.run ((Literal.classify content).render ++ next)).Accepts) :
    ¬(s.run (quote content ++ rest)).Accepts := by
  intro hacc
  cases h with
  | @inString ls ms p q o o' hp hpq ho hplace ho' hplace' =>
      cases hpq with
      | between | word _ | broken => cases hp
      | string t u =>
          obtain ⟨⟨c, content, rfl, hc⟩, -⟩ := Literal.exists_of_isConverted hconv
          refine Lexing.not_accepts_of_close (c := c) ?_ hacc
          simp [Lexing.startsValue, hc]
      | escape t u => exact Lexing.not_accepts_render_in_escape hconv hacc'
      | unit t u value left => exact Lexing.not_accepts_fail hacc
  | @between ls ms o o' ho hplace ho' hplace' =>
      exact absurd (Lexing.eq_colon_of_accepts ho hplace (by decide) hacc) (by decide)

/-- Readings out of step at a **unit variant**. -/
theorem not_accepts_variant (h : Skewed s s') {b name behind rest next : List Char}
    (hb : ∀ c ∈ b, isBlank c)
    (hacc' : (s'.run ((Literal.classify name).render ++ next)).Accepts) :
    ¬(s.run ('\x7b' :: b ++ quote name ++ behind ++ rest)).Accepts := by
  intro hacc
  rw [List.append_assoc, List.append_assoc] at hacc
  cases h with
  | @inString ls ms p q o o' hp hpq ho hplace ho' hplace' =>
      cases hpq with
      | between | word _ | broken => cases hp
      | escape t u => exact Lexing.not_accepts_fail hacc
      | unit t u value left => exact Lexing.not_accepts_fail hacc
      | string t u =>
          rw [Lexing.run_append] at hacc
          have hchars : ∀ c ∈ '\x7b' :: b, c ≠ '"' ∧ c ≠ '\\' :=
            List.forall_mem_cons.mpr ⟨by decide, fun c hc => ne_of_isBlank (hb c hc)⟩
          rcases Lexing.run_string_or_fail ls t hchars with ⟨-, v, hrun⟩ | ⟨-, hrun⟩
          · rw [hrun] at hacc
            by_cases hconv : (Literal.classify name).isConverted
            · obtain ⟨⟨c, name, rfl, hc⟩, -⟩ := Literal.exists_of_isConverted hconv
              refine Lexing.not_accepts_of_close (c := c) ?_ hacc
              simp [Lexing.startsValue, hc]
            · obtain ⟨ds, hrender, hnear⟩ := exists_render_eq_quote hconv
              rw [hrender] at hacc'
              have hskew := of_close ho hplace ho' hplace' v.reverse u.reverse
              cases hskew with
              | inString hp => cases hp
              | between houtline hcolon houtline' hafter =>
                  have hnear' : NearTexts (name ++ ['"']) (ds ++ ['"']) :=
                    List.rel_append hnear (.cons (.refl _) .nil)
                  have hvalue : ((Lexing.mk (.string u.reverse :: ms) .between).run
                      (ds ++ ['"'] ++ next)).Accepts := hacc'
                  have hkey : ((Lexing.mk (.string v.reverse :: ls) .between).run
                      (name ++ ['"'] ++ (behind ++ rest))).Accepts := hacc
                  exact Lexing.not_accepts_both houtline hcolon houtline' hafter hnear'
                    ⟨'"', by simp, by decide⟩ hvalue hkey
          · rw [hrun] at hacc
            exact Lexing.not_accepts_fail hacc
  | @between ls ms o o' ho hplace ho' hplace' =>
      exact absurd (Lexing.eq_colon_of_accepts ho hplace (by decide) hacc) (by decide)

/-- **Readings out of step** are not both accepted. -/
theorem not_accepts (h : Skewed s s') (hlaw : ∀ e ∈ es, e.Lawful)
    (hacc' : (s'.run (es.flatMap Edit.result)).Accepts) :
    ¬(s.run (es.flatMap Edit.source)).Accepts := by
  intro hacc
  induction es generalizing s s' with
  | nil =>
      cases h with
      | inString hp => exact Lexing.not_accepts_inString hp hacc
      | between ho hplace ho' hplace' =>
          have hcolon := Lexing.head?_eq_colon_of_accepts ho hplace hacc
          cases hcolon
  | cons e es ih =>
      obtain ⟨he, hes⟩ := List.forall_mem_cons.mp hlaw
      rw [List.flatMap_cons] at hacc hacc'
      match e with
      | .keep c d => exact ih (h.step he hacc hacc') hes hacc' hacc
      | .literal content => exact h.not_accepts_literal he.1 hacc' hacc
      | .variant before name behind =>
          obtain ⟨-, ⟨b, rfl, hb⟩, -⟩ := he
          exact h.not_accepts_variant hb hacc' hacc

end Skewed

end MarketRegistry
