import MarketRegistry.Failure
import MarketRegistry.Proofs.Dump.Tokens
import Mathlib.Algebra.Ring.Parity

/-!
# Cutting is lossless

Cutting a dump into tokens and joining tokens to a text undo each other. One side are the texts
with an even number of quotes, the other the lists of tokens that a cut may have (`IsCut`). That
a cut gives back the joined tokens is shown by reading them one after another: between two
tokens the scan holds exactly the tokens before (`Scan.Between`), since a run ends where no
character of its kind follows. The quotes pair up because every token holds an even number of
them, so that the one quote of an open string is the last of an odd number.

## Main results

* `tokenize_plainText` — joined tokens are cut where they were joined.
* `tokenize_eq_ok_iff_isCut` — the tokens of a dump are the cut that joins to it.
* `exists_of_tokenize_eq_error` — the quote without a partner.
* `tokenize_lossless` — cutting and joining are inverse, and fail as they should.
-/

namespace MarketRegistry

open Token

/-- Tokens that a dump may be **cut** into: each covers what its kind says, and no run is cut in
two. -/
structure IsCut (ts : List Token) : Prop where
  lawful : ∀ t ∈ ts, t.Lawful
  apart : ts.IsChain Apart

/-! ### Reading joined tokens -/

namespace Scan

/-- A scan **between two tokens**: it holds those before, and no string is open. -/
structure Between (s : Scan) (ts : List Token) : Prop where
  finished : s.finished = ts.reverse
  closed : ∀ p, s.pending ≠ .string p

variable {s : Scan} {ts done : List Token} {t : Token} {c : Char} {cs : List Char}

/-- A pending token goes on for as long as each character is added to it. -/
theorem foldl_step_of_grows (pending : List Char → Pending)
    (h : ∀ w, ∀ c ∈ cs, step ⟨done, pending w⟩ c = ⟨done, pending (c :: w)⟩) (w : List Char) :
    cs.foldl step ⟨done, pending w⟩ = ⟨done, pending (cs.reverse ++ w)⟩ := by
  induction cs generalizing w with
  | nil => rfl
  | cons c cs ih =>
      rw [List.foldl_cons, h w c List.mem_cons_self,
        ih fun w d hd => h w d (List.mem_cons_of_mem c hd), List.reverse_cons, List.append_assoc]
      rfl

theorem step_string (hc : c ≠ '"') (w : List Char) :
    step ⟨done, .string w⟩ c = ⟨done, .string (c :: w)⟩ := by
  simp [step, hc]

theorem step_whitespace (hc : isBlank c) (w : List Char) :
    step ⟨done, .whitespace w⟩ c = ⟨done, .whitespace (c :: w)⟩ := by
  simp [step, (ne_of_isBlank hc).1, not_isPunctuation_of_isBlank hc, hc]

theorem step_bare (hc : isBareChar c) (w : List Char) :
    step ⟨done, .bare w⟩ c = ⟨done, .bare (c :: w)⟩ := by
  obtain ⟨hq, hp, hb⟩ := isBareChar_iff.mp hc
  simp [step, hq, hp, hb]

namespace Between

variable (h : Between s ts)
include h

/-- A quote opens a string. -/
theorem step_quote : s.step '"' = ⟨ts.reverse, .string ['"']⟩ := by
  rw [← h.finished]
  obtain ⟨done, pending⟩ := s
  cases pending with
  | string p => exact absurd rfl (h.closed p)
  | _ => rfl

/-- A punctuation character is a token on its own. -/
theorem step_mark (hc : isPunctuation c) : s.step c = ⟨mark c :: ts.reverse, .nothing⟩ := by
  rw [← h.finished]
  obtain ⟨done, pending⟩ := s
  cases pending with
  | string p => exact absurd rfl (h.closed p)
  | _ => simp [step, ne_quote_of_isPunctuation hc, hc]

/-- A blank starts a run, unless it goes on with one. -/
theorem step_blank (hc : isBlank c) (hlast : ∀ u ∈ ts.getLast?, u.kind ≠ .whitespace) :
    s.step c = ⟨ts.reverse, .whitespace [c]⟩ := by
  have hq := (ne_of_isBlank hc).1
  have hp := not_isPunctuation_of_isBlank hc
  have hfinished := h.finished
  rw [← List.head?_reverse, ← hfinished] at hlast
  rw [← hfinished]
  obtain ⟨done, pending⟩ := s
  cases pending with
  | string p => exact absurd rfl (h.closed p)
  | whitespace w => exact absurd rfl (hlast _ rfl)
  | nothing => simp [step, hq, hp, hc]
  | bare w => simp [step, hq, hp, hc]

/-- A bare character starts a run, unless it goes on with one. -/
theorem step_bareChar (hc : isBareChar c) (hlast : ∀ u ∈ ts.getLast?, u.kind ≠ .bare) :
    s.step c = ⟨ts.reverse, .bare [c]⟩ := by
  obtain ⟨hq, hp, hb⟩ := isBareChar_iff.mp hc
  have hfinished := h.finished
  rw [← List.head?_reverse, ← hfinished] at hlast
  rw [← hfinished]
  obtain ⟨done, pending⟩ := s
  cases pending with
  | string p => exact absurd rfl (h.closed p)
  | bare w => exact absurd rfl (hlast _ rfl)
  | nothing => simp [step, hq, hp, hb]
  | whitespace w => simp [step, hq, hp, hb]

/-- **Reading a token** adds it to the tokens before, when it is apart from the last of them. -/
theorem token (ht : t.Lawful) (hapart : ∀ u ∈ ts.getLast?, Apart u t) :
    Between (t.text.foldl step s) (ts ++ [t]) := by
  obtain ⟨kind, text⟩ := t
  cases kind with
  | string =>
      obtain ⟨cs, rfl, hcs⟩ := ht
      have hread : ('"' :: (cs ++ ['"'])).foldl step s =
          ⟨⟨.string, '"' :: (cs ++ ['"'])⟩ :: ts.reverse, .nothing⟩ := by
        rw [List.foldl_cons, h.step_quote, List.foldl_append,
          foldl_step_of_grows .string fun w c hc => step_string (hcs c hc) w]
        simp [step]
      rw [List.cons_append, hread]
      exact ⟨by simp [Scan.finished], by simp⟩
  | punctuation =>
      obtain ⟨c, rfl, hc⟩ := ht
      rw [List.foldl_cons, h.step_mark hc]
      exact ⟨by simp [Scan.finished, mark], by simp⟩
  | whitespace =>
      obtain ⟨hne, hall⟩ := ht
      obtain ⟨c, cs, rfl⟩ := List.exists_cons_of_ne_nil hne
      obtain ⟨hc, hcs⟩ := List.forall_mem_cons.mp hall
      -- white space right before would take the token in
      have hlast : ∀ u ∈ ts.getLast?, u.kind ≠ .whitespace := fun u hu hkind =>
        hapart u hu ⟨hkind, .inl hkind⟩
      rw [List.foldl_cons, h.step_blank hc hlast,
        foldl_step_of_grows .whitespace fun w c hc => step_whitespace (hcs c hc) w]
      exact ⟨by simp [Scan.finished], by simp⟩
  | bare =>
      obtain ⟨hne, hall⟩ := ht
      obtain ⟨c, cs, rfl⟩ := List.exists_cons_of_ne_nil hne
      obtain ⟨hc, hcs⟩ := List.forall_mem_cons.mp hall
      have hlast : ∀ u ∈ ts.getLast?, u.kind ≠ .bare := fun u hu hkind =>
        hapart u hu ⟨hkind, .inr hkind⟩
      rw [List.foldl_cons, h.step_bareChar hc hlast,
        foldl_step_of_grows .bare fun w c hc => step_bare (hcs c hc) w]
      exact ⟨by simp [Scan.finished], by simp⟩

end Between

/-- Between the tokens of a cut, all of them are read. -/
theorem between_plainText (h : IsCut ts) : Between ((plainText ts).foldl step start) ts := by
  obtain ⟨hlawful, hapart⟩ := h
  -- from the right, since what a token needs is known of the last one before it
  induction ts using List.reverseRecOn with
  | nil => exact ⟨rfl, by simp [start]⟩
  | append_singleton ts t ih =>
      obtain ⟨hts, -, hlast⟩ := List.isChain_append.mp hapart
      have hbefore := ih (fun u hu => hlawful u (List.mem_append_left _ hu)) hts
      rw [plainText_append, List.foldl_append, plainText_cons, plainText_nil, List.append_nil]
      exact hbefore.token (hlawful t (by simp)) fun u hu => hlast u hu t (by simp)

end Scan

variable {cs : List Char} {ts : List Token} {e : UnterminatedString}

/-- **Joined tokens** are cut where they were joined. -/
theorem tokenize_plainText (h : IsCut ts) : tokenize (plainText ts) = .ok ts := by
  obtain ⟨hfinished, hclosed⟩ := Scan.between_plainText h
  rw [tokenize_eq_ok_iff, hfinished, List.reverse_reverse]
  exact ⟨hclosed, rfl⟩

/-- **The tokens of a dump** are the cut that joins to it. -/
theorem tokenize_eq_ok_iff_isCut : tokenize cs = .ok ts ↔ IsCut ts ∧ plainText ts = cs := by
  constructor
  · intro h
    exact ⟨⟨lawful_of_tokenize h, apart_of_tokenize h⟩, plainText_of_tokenize h⟩
  · rintro ⟨hcut, rfl⟩
    exact tokenize_plainText hcut

/-! ### Quotes -/

theorem Token.Lawful.even_count_quote {t : Token} (ht : t.Lawful) : Even (t.text.count '"') := by
  have hnone : ∀ {text : List Char}, (∀ c ∈ text, c ≠ '"') → text.count '"' = 0 := fun hne =>
    List.count_eq_zero.mpr fun hmem => hne _ hmem rfl
  obtain ⟨kind, text⟩ := t
  cases kind with
  | string =>
      obtain ⟨cs, rfl, hcs⟩ := ht
      rw [List.count_append, List.count_cons_self, hnone hcs]
      exact even_two
  | whitespace => simp [hnone fun c hc => (ne_of_isBlank (ht.2 c hc)).1]
  | punctuation =>
      obtain ⟨c, rfl, hc⟩ := ht
      simp [ne_quote_of_isPunctuation hc]
  | bare => simp [hnone fun c hc => (isBareChar_iff.mp (ht.2 c hc)).1]

/-- The quotes of tokens pair up. -/
theorem even_count_quote (h : ∀ t ∈ ts, t.Lawful) : Even ((plainText ts).count '"') := by
  induction ts with
  | nil => simp
  | cons t ts ih =>
      obtain ⟨ht, hts⟩ := List.forall_mem_cons.mp h
      rw [plainText_cons, List.count_append]
      exact ht.even_count_quote.add (ih hts)

/-- A dump fails to be cut when it ends in an open string. -/
theorem tokenize_eq_error_iff_pending : tokenize cs = .error e ↔
    ∃ p, (cs.foldl Scan.step Scan.start).pending = .string p ∧
      e = ⟨cs.length - p.length⟩ := by
  rw [tokenize]
  generalize cs.foldl Scan.step Scan.start = s
  obtain ⟨done, pending⟩ := s
  cases pending <;> simp [eq_comm]

/-- The **last quote** of a text, by its offset. -/
def IsLastQuote (cs : List Char) (offset : Nat) : Prop :=
  ∃ before after, cs = before ++ '"' :: after ∧ '"' ∉ after ∧ offset = before.length

/-- The quote of a dump that fails to be cut is its last one, and the others pair up. -/
theorem exists_of_tokenize_eq_error (h : tokenize cs = .error e) :
    ∃ before after, cs = before ++ '"' :: after ∧ '"' ∉ after ∧ e.offset = before.length ∧
      Even (before.count '"') := by
  obtain ⟨p, hp, rfl⟩ := tokenize_eq_error_iff_pending.mp h
  obtain ⟨htext, hlawful, -, hopened, -⟩ := Scan.reads_foldl cs
  generalize cs.foldl Scan.step Scan.start = s at hp htext hlawful hopened
  obtain ⟨q, hq, hne⟩ := hopened p hp
  have hlength : p.length = q.length + 1 := by
    rw [← List.length_reverse, hq, List.length_cons]
  have hopen : s.opened = '"' :: q := by
    simp only [Scan.opened, hp, hq]
  rw [hopen] at htext
  refine ⟨plainText s.finished.reverse, q, htext.symm, fun hmem => hne _ hmem rfl, ?_,
    even_count_quote fun t ht => hlawful t (List.mem_reverse.mp ht)⟩
  have hcs := congrArg List.length htext
  rw [List.length_append, List.length_cons] at hcs
  change cs.length - p.length = _
  omega

theorem odd_count_of_tokenize_eq_error (h : tokenize cs = .error e) : Odd (cs.count '"') := by
  obtain ⟨before, after, rfl, hafter, -, hbefore⟩ := exists_of_tokenize_eq_error h
  rw [List.count_append, List.count_cons_self, List.count_eq_zero.mpr hafter]
  exact hbefore.add_one

/-- **Cutting and joining are inverse.** A dump fails to be cut when its quotes are odd, at the
last of them. Otherwise its tokens are a cut that joins to it, and every cut is the one of its
joined tokens. -/
theorem tokenize_lossless :
    (∀ cs, ((∃ e, tokenize cs = .error e) ↔ Odd (cs.count '"')) ∧
      (∀ e, tokenize cs = .error e → IsLastQuote cs e.offset ∧
        (ConfigError.unterminated e).message =
          "unterminated string literal at offset " ++ String.ofList (Numeral.decimal e.offset)) ∧
      (Even (cs.count '"') → ∃ ts, tokenize cs = .ok ts ∧ IsCut ts ∧ plainText ts = cs)) ∧
    ∀ ts, IsCut ts → Even ((plainText ts).count '"') ∧ tokenize (plainText ts) = .ok ts := by
  have hcut : ∀ cs, Even (cs.count '"') →
      ∃ ts, tokenize cs = .ok ts ∧ IsCut ts ∧ plainText ts = cs := by
    intro cs heven
    cases h : tokenize cs with
    | ok ts => exact ⟨ts, rfl, tokenize_eq_ok_iff_isCut.mp h⟩
    | error e =>
        exact absurd heven (Nat.not_even_iff_odd.mpr (odd_count_of_tokenize_eq_error h))
  refine ⟨fun cs => ⟨⟨?_, fun hodd => ?_⟩, fun e h => ⟨?_, rfl⟩, hcut cs⟩, fun ts h =>
    ⟨even_count_quote h.lawful, tokenize_plainText h⟩⟩
  · rintro ⟨e, h⟩
    exact odd_count_of_tokenize_eq_error h
  · cases h : tokenize cs with
    | error e => exact ⟨e, rfl⟩
    | ok ts =>
        obtain ⟨hts, rfl⟩ := tokenize_eq_ok_iff_isCut.mp h
        exact absurd (even_count_quote hts.lawful) (Nat.not_even_iff_odd.mpr hodd)
  · obtain ⟨before, after, hcs, hafter, hoffset, -⟩ := exists_of_tokenize_eq_error h
    exact ⟨before, after, hcs, hafter, hoffset⟩

/-- A string between two bare runs ends both. -/
example : tokenize "true\"a b\"1".toList =
    .ok [⟨.bare, "true".toList⟩, ⟨.string, "\"a b\"".toList⟩, ⟨.bare, "1".toList⟩] := by rfl

end MarketRegistry
