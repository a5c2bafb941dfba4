import MarketRegistry.Dump.Token
import Mathlib.Data.List.Chain

/-!
# The tokens of a dump

What the cutting of a dump guarantees of its tokens: they lose nothing, each covers what its
kind says, and no run is cut in two. All of it is an invariant of the reading from the left
(`Scan.Reads`), which every character keeps.

## Main results

* `Token.Lawful` — what a token of each kind covers.
* `Token.Apart` — which tokens may stand next to each other.
* `plainText_of_tokenize`, `lawful_of_tokenize`, `apart_of_tokenize` — the tokens of a dump.
-/

namespace MarketRegistry

theorem ne_of_isBlank {c : Char} (h : isBlank c) : c ≠ '"' ∧ c ≠ '\\' := by
  constructor <;> (rintro rfl; exact absurd h (by decide))

namespace Token

/-- Characters of bare runs. -/
def isBareChar (c : Char) : Bool :=
  c != '"' && !isPunctuation c && !isBlank c

theorem isBareChar_iff {c : Char} : isBareChar c ↔ c ≠ '"' ∧ ¬isPunctuation c ∧ ¬isBlank c := by
  simp [isBareChar, and_assoc]

theorem ne_quote_of_isPunctuation {c : Char} (h : isPunctuation c) : c ≠ '"' := by
  rintro rfl
  exact absurd h (by decide)

theorem not_isPunctuation_of_isBlank {c : Char} (h : isBlank c) : ¬isPunctuation c := by
  intro hc
  simp only [isPunctuation, Bool.or_eq_true, beq_iff_eq] at hc
  rcases hc with ((((rfl | rfl) | rfl) | rfl) | rfl) | rfl <;> exact absurd h (by decide)

/-- A token is **lawful** when it covers what its kind says. -/
def Lawful (t : Token) : Prop :=
  match t.kind with
  | .string => ∃ cs, t.text = '"' :: cs ++ ['"'] ∧ ∀ c ∈ cs, c ≠ '"'
  | .whitespace => t.text ≠ [] ∧ ∀ c ∈ t.text, isBlank c
  | .punctuation => ∃ c, t.text = [c] ∧ isPunctuation c
  | .bare => t.text ≠ [] ∧ ∀ c ∈ t.text, isBareChar c

/-- Tokens **apart**: two runs of one kind never stand next to each other. -/
def Apart (a b : Token) : Prop :=
  ¬(a.kind = b.kind ∧ (a.kind = .whitespace ∨ a.kind = .bare))

@[simp]
theorem kind_mark (c : Char) : (mark c).kind = .punctuation := rfl

theorem Lawful.text_ne_nil {t : Token} (h : t.Lawful) : t.text ≠ [] := by
  obtain ⟨kind, text⟩ := t
  cases kind with
  | string =>
      obtain ⟨cs, rfl, -⟩ := h
      simp
  | whitespace => exact h.1
  | punctuation =>
      obtain ⟨c, rfl, -⟩ := h
      simp
  | bare => exact h.1

end Token

@[simp]
theorem plainText_nil : plainText [] = [] := rfl

@[simp]
theorem plainText_cons (t : Token) (ts : List Token) :
    plainText (t :: ts) = t.text ++ plainText ts := rfl

@[simp]
theorem plainText_append (ts us : List Token) :
    plainText (ts ++ us) = plainText ts ++ plainText us :=
  List.flatMap_append

/-! ### The reading from the left -/

namespace Scan

open Token

/-- The text of a string that is still open. -/
def opened (s : Scan) : List Char :=
  match s.pending with
  | .string p => p.reverse
  | _ => []

/-- What is known once **some characters are read**. Two runs of one kind cannot meet, since
nothing pending means that the last token is no run. -/
structure Reads (s : Scan) (cs : List Char) : Prop where
  text : plainText s.finished.reverse ++ s.opened = cs
  lawful : ∀ t ∈ s.finished, t.Lawful
  apart : s.finished.IsChain fun b a => Apart a b
  opened : ∀ p, s.pending = .string p → ∃ q, p.reverse = '"' :: q ∧ ∀ c ∈ q, c ≠ '"'
  settled : s.pending = .nothing →
    ∀ t ∈ s.finished.head?, t.kind ≠ .whitespace ∧ t.kind ≠ .bare

theorem reads_start : Reads start [] where
  text := rfl
  lawful := by simp [start, finished]
  apart := .nil
  opened := by simp [start]
  settled := by simp [start, finished]

variable {s : Scan} {cs : List Char} {c : Char}

/-- A new pending string, with everything else finished. -/
theorem Reads.openString (h : Reads s cs) (hs : s.opened = []) :
    Reads ⟨s.finished, .string ['"']⟩ (cs ++ ['"']) where
  text := by
    have := h.text
    rw [hs, List.append_nil] at this
    rw [← this]
    rfl
  lawful := h.lawful
  apart := h.apart
  opened p hp := by
    cases hp
    exact ⟨[], rfl, by simp⟩
  settled := by simp

/-- A new token that is finished at once. -/
theorem Reads.push (h : Reads s cs) {t : Token} {ds : List Char} (ht : t.Lawful)
    (htext : s.opened ++ ds = t.text) (hkind : t.kind ≠ .whitespace ∧ t.kind ≠ .bare) :
    Reads ⟨t :: s.finished, .nothing⟩ (cs ++ ds) where
  text := by
    rw [← h.text, List.append_assoc, htext]
    simp [finished, Scan.opened]
  lawful := List.forall_mem_cons.mpr ⟨ht, h.lawful⟩
  apart := List.isChain_cons.mpr ⟨fun a _ hab => by
    rcases hab.2 with hk | hk
    · exact hkind.1 (hab.1 ▸ hk)
    · exact hkind.2 (hab.1 ▸ hk), h.apart⟩
  opened := by simp
  settled _ t' ht' := by
    obtain rfl := Option.mem_some_iff.mp ht'
    exact hkind

/-- A new run of white space or of bare characters, of one character so far. -/
theorem Reads.startRun (h : Reads s cs) {kind : TokenKind} (hs : s.opened = [])
    (ht : (Token.mk kind [c]).Lawful) (happart : ∀ t ∈ s.finished.head?, t.kind ≠ kind)
    {pending : Pending} (hp : (Scan.mk s.finished pending).finished = ⟨kind, [c]⟩ :: s.finished)
    (hne : pending ≠ .nothing) (hns : ∀ p, pending ≠ .string p) :
    Reads ⟨s.finished, pending⟩ (cs ++ [c]) where
  text := by
    have := h.text
    rw [hs, List.append_nil] at this
    rw [hp, ← this]
    cases pending <;> simp_all [Scan.opened]
  lawful := by
    rw [hp]
    exact List.forall_mem_cons.mpr ⟨ht, h.lawful⟩
  apart := by
    rw [hp]
    exact List.isChain_cons.mpr ⟨fun a ha hab => happart a ha hab.1, h.apart⟩
  opened p hpp := absurd hpp (hns p)
  settled hn := absurd hn hne

/-- A run that goes on for a character. -/
theorem Reads.growRun {done : List Token} (kind : TokenKind) {w : List Char}
    {pending pending' : Pending} (h : Reads ⟨done, pending⟩ cs)
    (hp : (Scan.mk done pending).finished = ⟨kind, w⟩ :: done)
    (hp' : (Scan.mk done pending').finished = ⟨kind, w ++ [c]⟩ :: done)
    (hs : (Scan.mk done pending).opened = []) (hs' : (Scan.mk done pending').opened = [])
    (ht : (Token.mk kind w).Lawful → (Token.mk kind (w ++ [c])).Lawful)
    (hne : pending' ≠ .nothing) (hns : ∀ p, pending' ≠ .string p) :
    Reads ⟨done, pending'⟩ (cs ++ [c]) where
  text := by
    have := h.text
    rw [hp, hs, List.append_nil] at this
    rw [hp', hs', ← this]
    simp
  lawful := by
    have := h.lawful
    rw [hp, List.forall_mem_cons] at this
    rw [hp']
    exact List.forall_mem_cons.mpr ⟨ht this.1, this.2⟩
  apart := by
    have := h.apart
    rw [hp, List.isChain_cons] at this
    rw [hp']
    exact List.isChain_cons.mpr this
  opened p hpp := absurd hpp (hns p)
  settled hn := absurd hn hne

/-- A quote between two tokens opens a string. -/
theorem Reads.quote (h : Reads s cs) (hs : s.opened = []) (hc : c = '"') :
    Reads ⟨s.finished, .string [c]⟩ (cs ++ [c]) := by
  subst hc
  exact h.openString hs

/-- A punctuation character is a token on its own. -/
theorem Reads.mark (h : Reads s cs) (hs : s.opened = []) (hc : isPunctuation c) :
    Reads ⟨Token.mark c :: s.finished, .nothing⟩ (cs ++ [c]) :=
  h.push ⟨c, rfl, hc⟩ (by rw [hs]; rfl) (by simp [Token.mark])

/-- A string goes on to the next quote. -/
theorem Reads.stepString {done : List Token} {p : List Char}
    (h : Reads ⟨done, .string p⟩ cs) (c : Char) :
    Reads ((Scan.mk done (.string p)).step c) (cs ++ [c]) := by
  obtain ⟨q, hq, hqq⟩ := h.opened p rfl
  simp only [Scan.step]
  split_ifs with hc
  · obtain rfl : c = '"' := by simpa using hc
    exact h.push (t := ⟨.string, ('"' :: p).reverse⟩)
      ⟨q, by rw [List.reverse_cons, hq], hqq⟩ (by simp [Scan.opened]) (by simp)
  · have hc : c ≠ '"' := by simpa using hc
    refine ⟨?_, h.lawful, h.apart, ?_, by simp⟩
    · rw [← h.text]
      simp [finished, Scan.opened]
    · intro p' hp'
      cases hp'
      refine ⟨q ++ [c], by rw [List.reverse_cons, hq]; rfl, fun d hd => ?_⟩
      rcases List.mem_append.mp hd with hd | hd
      · exact hqq d hd
      · rw [List.mem_singleton.mp hd]
        exact hc

theorem lawful_blank (hc : isBlank c) : (Token.mk .whitespace [c]).Lawful :=
  ⟨by simp, by simpa using hc⟩

theorem lawful_bare (hq : ¬(c == '"') = true) (hp : ¬isPunctuation c) (hb : ¬isBlank c) :
    (Token.mk .bare [c]).Lawful :=
  ⟨by simp, by simp_all [isBareChar]⟩

/-- A lawful run stays lawful with one more character of its kind. -/
theorem lawful_grow {kind : TokenKind} {w : List Char} (hkind : kind = .whitespace ∨ kind = .bare)
    (hw : (Token.mk kind w).Lawful) (hc : (Token.mk kind [c]).Lawful) :
    (Token.mk kind (w ++ [c])).Lawful := by
  have hall : ∀ p : Char → Prop, (∀ d ∈ w, p d) → (∀ d ∈ [c], p d) → ∀ d ∈ w ++ [c], p d :=
    fun p hw hc d hd => (List.mem_append.mp hd).elim (hw d) (hc d)
  rcases hkind with rfl | rfl
  · exact ⟨by simp, hall _ hw.2 hc.2⟩
  · exact ⟨by simp, hall _ hw.2 hc.2⟩

/-- **Every character keeps** what is known. -/
theorem Reads.step (h : Reads s cs) (c : Char) : Reads (s.step c) (cs ++ [c]) := by
  obtain ⟨done, pending⟩ := s
  cases pending with
  | string p => exact h.stepString c
  | nothing =>
      have hset := h.settled rfl
      simp only [Scan.step]
      split_ifs with hq hp hb
      · exact h.quote rfl (by simpa using hq)
      · exact h.mark rfl hp
      · exact h.startRun rfl (lawful_blank hb) (fun t ht => (hset t ht).1) rfl (by simp)
          (by simp)
      · exact h.startRun rfl (lawful_bare hq hp hb) (fun t ht => (hset t ht).2) rfl
          (by simp) (by simp)
  | whitespace w =>
      simp only [Scan.step]
      split_ifs with hq hp hb
      · exact h.quote rfl (by simpa using hq)
      · exact h.mark rfl hp
      · exact h.growRun .whitespace (w := w.reverse) rfl (by simp [finished]) rfl rfl
          (fun ht => lawful_grow (.inl rfl) ht (lawful_blank hb)) (by simp) (by simp)
      · exact h.startRun rfl (lawful_bare hq hp hb) (by simp [finished]) rfl (by simp) (by simp)
  | bare w =>
      simp only [Scan.step]
      split_ifs with hq hp hb
      · exact h.quote rfl (by simpa using hq)
      · exact h.mark rfl hp
      · exact h.startRun rfl (lawful_blank hb) (by simp [finished]) rfl (by simp) (by simp)
      · exact h.growRun .bare (w := w.reverse) rfl (by simp [finished]) rfl rfl
          (fun ht => lawful_grow (.inr rfl) ht (lawful_bare hq hp hb)) (by simp) (by simp)

/-- What is known of a whole dump. -/
theorem reads_foldl (cs : List Char) : Reads (cs.foldl Scan.step start) cs := by
  induction cs using List.reverseRecOn with
  | nil => exact reads_start
  | append_singleton cs c ih =>
      rw [List.foldl_append]
      exact ih.step c

end Scan

/-! ### The tokens -/

/-- A dump is cut into tokens unless it ends in an open string. -/
theorem tokenize_eq_ok_iff {cs : List Char} {ts : List Token} :
    tokenize cs = .ok ts ↔
      (∀ p, (cs.foldl Scan.step Scan.start).pending ≠ .string p) ∧
        ts = (cs.foldl Scan.step Scan.start).finished.reverse := by
  rw [tokenize]
  generalize cs.foldl Scan.step Scan.start = s
  obtain ⟨done, pending⟩ := s
  cases pending <;> simp [eq_comm]

variable {cs : List Char} {ts : List Token}

/-- **Nothing is lost.** -/
theorem plainText_of_tokenize (h : tokenize cs = .ok ts) : plainText ts = cs := by
  obtain ⟨hopen, rfl⟩ := tokenize_eq_ok_iff.mp h
  have htext := (Scan.reads_foldl cs).text
  generalize cs.foldl Scan.step Scan.start = s at hopen htext ⊢
  obtain ⟨done, pending⟩ := s
  cases pending with
  | string p => exact absurd rfl (hopen p)
  | _ => simpa [Scan.opened] using htext

/-- **Every token is lawful.** -/
theorem lawful_of_tokenize (h : tokenize cs = .ok ts) : ∀ t ∈ ts, t.Lawful := by
  obtain ⟨-, rfl⟩ := tokenize_eq_ok_iff.mp h
  exact fun t ht => (Scan.reads_foldl cs).lawful t (List.mem_reverse.mp ht)

/-- **No run is cut in two.** -/
theorem apart_of_tokenize (h : tokenize cs = .ok ts) : ts.IsChain Token.Apart := by
  obtain ⟨-, rfl⟩ := tokenize_eq_ok_iff.mp h
  exact List.isChain_reverse.mpr (Scan.reads_foldl cs).apart

end MarketRegistry
