import MarketRegistry.Proofs.Dump.Literals
import MarketRegistry.Proofs.Dump.Lossless

/-!
# The casing fixes

Each casing fix respells one word: where the word stands in a text, one of its letters is written
anew. The new letter is in neither word, and the letter that it takes the place of is not in the
other word. So no word comes into being and none of the other kind goes, a second respelling
finds the words where they stood in the text itself, and the two respellings may change places.

## Main definitions

* `Respelling`, `Respelling.Respells` — a word and its new letter, and the texts before and after.
* `Respelling.Apart` — a respelling that leaves the word of another one alone.
* `Recased` — a text before and after the casing fixes.

## Main results

* `respells_fixMinutes`, `respells_fixHours` — what each casing fix does.
* `Respelling.Respells.andThen` — one respelling after another.
* `casing_fixes_exact` — what both do, in either order.
-/

namespace MarketRegistry

/-- A **respelling**: a word, the place of one of its letters, and the letter that is written there
instead, which is not in the word. -/
structure Respelling where
  word : List Char
  place : Nat
  letter : Char
  place_lt : place < word.length := by decide
  letter_notMem : letter ∉ word := by decide

namespace Respelling

/-- The word `5Min`, with a small letter. -/
def minutes : Respelling where
  word := ['5', 'M', 'i', 'n']
  place := 1
  letter := 'm'

/-- The word `24H`, with a small letter. -/
def hours : Respelling where
  word := ['2', '4', 'H']
  place := 2
  letter := 'h'

/-- The letter of the word that is written anew. -/
def old (r : Respelling) : Char :=
  r.word.get ⟨r.place, r.place_lt⟩

/-- The word **stands** in a text from an offset on. -/
def StandsAt (r : Respelling) (cs : List Char) (j : Nat) : Prop :=
  r.word <+: cs.drop j

/-- A respelling **hits** an offset of a text: the letter there is that of a word. -/
def Hits (r : Respelling) (cs : List Char) (i : Nat) : Prop :=
  ∃ j, i = j + r.place ∧ r.StandsAt cs j

/-- A text and the same text **respelled**. -/
structure Respells (r : Respelling) (cs ds : List Char) : Prop where
  hit : ∀ {i}, r.Hits cs i → ds[i]? = some r.letter
  miss : ∀ {i}, ¬r.Hits cs i → ds[i]? = cs[i]?

/-- A respelling **apart** from another one: neither of its letters is in the other word. -/
structure Apart (r s : Respelling) : Prop where
  old : r.old ∉ s.word
  letter : r.letter ∉ s.word

variable {r s : Respelling} {bs cs ds ds' es : List Char} {c : Char} {i j : Nat}

/-! ### Where words stand -/

theorem standsAt_iff :
    r.StandsAt cs j ↔ ∀ k, ∀ h : k < r.word.length, cs[j + k]? = some r.word[k] := by
  rw [StandsAt, List.prefix_iff_getElem?]
  simp only [List.getElem?_drop]

theorem Hits.getElem?_eq (h : r.Hits cs i) : cs[i]? = some r.old := by
  obtain ⟨j, rfl, hj⟩ := h
  exact standsAt_iff.mp hj r.place r.place_lt

/-- A word begins with its first letter. -/
theorem StandsAt.head?_eq (h : r.StandsAt (c :: cs) 0) : r.word.head? = some c := by
  rw [StandsAt, List.drop_zero, List.prefix_cons_iff] at h
  obtain hnil | ⟨rest, hword, -⟩ := h
  · have hplace := r.place_lt
    rw [hnil] at hplace
    exact absurd hplace (Nat.not_lt_zero _)
  · rw [hword, List.head?_cons]

theorem old_mem (r : Respelling) : r.old ∈ r.word :=
  List.getElem_mem r.place_lt

theorem letter_ne_old (r : Respelling) : r.letter ≠ r.old := by
  intro h
  exact r.letter_notMem (h ▸ r.old_mem)

/-- A word that stands in a text is a part of it. -/
theorem exists_standsAt_iff : (∃ j, r.StandsAt cs j) ↔ r.word <:+: cs := by
  rw [List.infix_iff_prefix_suffix]
  constructor
  · rintro ⟨j, h⟩
    exact ⟨_, h, List.drop_suffix j cs⟩
  · rintro ⟨t, ht, hsuffix⟩
    refine ⟨cs.length - t.length, ?_⟩
    rw [StandsAt, ← List.suffix_iff_eq_drop.mp hsuffix]
    exact ht

/-- The offsets of words behind the first character. -/
theorem hits_cons_succ : r.Hits (c :: cs) (i + 1) ↔
    r.Hits cs i ∨ (i + 1 = r.place ∧ r.StandsAt (c :: cs) 0) := by
  constructor
  · rintro ⟨j, hj, h⟩
    cases j with
    | zero => exact .inr ⟨by omega, h⟩
    | succ j => exact .inl ⟨j, by omega, h⟩
  · rintro (⟨j, rfl, h⟩ | ⟨hplace, h⟩)
    · exact ⟨j + 1, by omega, h⟩
    · exact ⟨0, by omega, h⟩

/-! ### Respelled texts -/

namespace Respells

variable (h : r.Respells cs ds)
include h

/-- **Other letters** stay where they are. -/
theorem getElem?_eq_some_iff (hletter : c ≠ r.letter) (hold : c ≠ r.old) :
    ds[i]? = some c ↔ cs[i]? = some c := by
  by_cases hi : r.Hits cs i
  · rw [h.hit hi, hi.getElem?_eq]
    simp [hletter.symm, hold.symm]
  · rw [h.miss hi]

/-- **Words of another kind** stand where they stood. -/
theorem standsAt_iff (hrs : r.Apart s) : s.StandsAt ds j ↔ s.StandsAt cs j := by
  simp only [Respelling.standsAt_iff]
  refine forall_congr' fun k => forall_congr' fun hk => h.getElem?_eq_some_iff ?_ ?_
  · exact fun heq => hrs.letter (heq ▸ List.getElem_mem hk)
  · exact fun heq => hrs.old (heq ▸ List.getElem_mem hk)

theorem hits_iff (hrs : r.Apart s) : s.Hits ds i ↔ s.Hits cs i :=
  exists_congr fun _ => and_congr_right fun _ => h.standsAt_iff hrs

/-- **No word is left.** -/
theorem not_standsAt : ¬r.StandsAt ds j := by
  intro hj
  -- a word of the new text holds no new letter, so it stood in the old text
  have hold : r.StandsAt cs j := by
    refine Respelling.standsAt_iff.mpr fun k hk => ?_
    have hds := Respelling.standsAt_iff.mp hj k hk
    rwa [h.miss] at hds
    intro hhit
    rw [h.hit hhit] at hds
    exact r.letter_notMem (Option.some.inj hds ▸ List.getElem_mem hk)
  have hnew := h.hit ⟨j, rfl, hold⟩
  rw [Respelling.standsAt_iff.mp hj r.place r.place_lt] at hnew
  exact r.letter_ne_old (Option.some.inj hnew).symm

theorem length_eq : ds.length = cs.length := by
  have hnone : ∀ i : Nat, ds[i]? = none ↔ cs[i]? = none := by
    intro i
    by_cases hi : r.Hits cs i
    · simp [h.hit hi, hi.getElem?_eq]
    · rw [h.miss hi]
  simp only [List.getElem?_eq_none_iff] at hnone
  exact Nat.le_antisymm ((hnone cs.length).mpr le_rfl) ((hnone ds.length).mp le_rfl)

/-- A text is respelled in one way. -/
theorem unique (h' : r.Respells cs ds') : ds = ds' := by
  refine List.ext_getElem? fun i => ?_
  by_cases hi : r.Hits cs i
  · rw [h.hit hi, h'.hit hi]
  · rw [h.miss hi, h'.miss hi]

/-- A text without the word stays as it is. -/
theorem eq_of_not_standsAt (hcs : ∀ j, ¬r.StandsAt cs j) : ds = cs :=
  h.unique ⟨fun ⟨j, _, hj⟩ => absurd hj (hcs j), fun _ => rfl⟩

/-- A character in front at which no word begins is kept. -/
theorem cons (hc : ¬r.StandsAt (c :: cs) 0) : r.Respells (c :: cs) (c :: ds) where
  hit := by
    rintro (_ | i) hi
    · obtain ⟨j, hj, hstands⟩ := hi
      obtain rfl : j = 0 := by omega
      exact absurd hstands hc
    · exact h.hit ((hits_cons_succ.mp hi).resolve_right fun hword => hc hword.2)
  miss := by
    rintro (_ | i) hi
    · rfl
    · exact h.miss fun hi' => hi (hits_cons_succ.mpr (.inl hi'))

/-- Characters in front that are no first letter of the word are kept. -/
theorem append (hbefore : ∀ c ∈ bs, r.word.head? ≠ some c) :
    r.Respells (bs ++ cs) (bs ++ ds) := by
  induction bs with
  | nil => exact h
  | cons b bs ih =>
      obtain ⟨hb, hbs⟩ := List.forall_mem_cons.mp hbefore
      exact (ih hbs).cons fun hstands => hb hstands.head?_eq

/-- A word in front gets its new letter. -/
theorem cons_of_standsAt (hc : r.StandsAt (c :: cs) 0) :
    r.Respells (c :: cs) ((c :: ds).set r.place r.letter) where
  hit := by
    intro i hi
    by_cases hplace : r.place = i
    · subst hplace
      have hlt : r.place < (c :: ds).length := by
        rw [List.length_cons, h.length_eq]
        exact r.place_lt.trans_le hc.length_le
      rw [List.getElem?_set_self hlt]
    · rw [List.getElem?_set_ne hplace]
      cases i with
      | zero =>
          obtain ⟨j, hj, -⟩ := hi
          omega
      | succ i =>
          exact h.hit ((hits_cons_succ.mp hi).resolve_right fun hword => hplace hword.1.symm)
  miss := by
    intro i hi
    have hplace : r.place ≠ i := by
      rintro rfl
      exact hi ⟨0, (Nat.zero_add _).symm, hc⟩
    rw [List.getElem?_set_ne hplace]
    cases i with
    | zero => rfl
    | succ i => exact h.miss fun hi' => hi (hits_cons_succ.mpr (.inl hi'))

end Respells

theorem respells_nil : r.Respells [] [] where
  hit := by
    intro i hi
    have hold := hi.getElem?_eq
    cases hold
  miss := fun _ => rfl

/-- A text **respelled twice**, by words that both stand in the text itself. -/
structure RespellsBoth (r s : Respelling) (cs es : List Char) : Prop where
  first : ∀ {i}, r.Hits cs i → es[i]? = some r.letter
  second : ∀ {i}, s.Hits cs i → es[i]? = some s.letter
  miss : ∀ {i}, ¬r.Hits cs i → ¬s.Hits cs i → es[i]? = cs[i]?

/-- **One respelling after another** finds its words where they stood in the text itself. -/
theorem Respells.andThen (h : r.Respells cs ds) (h' : s.Respells ds es) (hrs : r.Apart s) :
    RespellsBoth r s cs es where
  first := by
    intro i hi
    have hnot : ¬s.Hits ds i := by
      rw [h.hits_iff hrs]
      intro hs
      have hold := hs.getElem?_eq
      rw [hi.getElem?_eq] at hold
      exact hrs.old (Option.some.inj hold ▸ s.old_mem)
    rw [h'.miss hnot, h.hit hi]
  second := fun hi => h'.hit ((h.hits_iff hrs).mpr hi)
  miss := fun hr hs => by rw [h'.miss (mt (h.hits_iff hrs).mp hs), h.miss hr]

theorem RespellsBoth.symm (h : RespellsBoth r s cs es) : RespellsBoth s r cs es :=
  ⟨h.second, h.first, fun hs hr => h.miss hr hs⟩

theorem RespellsBoth.unique (h : RespellsBoth r s cs ds) (h' : RespellsBoth r s cs ds') :
    ds = ds' := by
  refine List.ext_getElem? fun i => ?_
  by_cases hr : r.Hits cs i
  · rw [h.first hr, h'.first hr]
  · by_cases hs : s.Hits cs i
    · rw [h.second hs, h'.second hs]
    · rw [h.miss hr hs, h'.miss hr hs]

/-- **What differs** after two respellings. -/
theorem RespellsBoth.ne_iff (h : RespellsBoth r s cs es) :
    es[i]? ≠ cs[i]? ↔ r.Hits cs i ∨ s.Hits cs i := by
  constructor
  · intro hne
    by_contra hnot
    obtain ⟨hr, hs⟩ := not_or.mp hnot
    exact hne (h.miss hr hs)
  · rintro (hi | hi)
    · rw [h.first hi, hi.getElem?_eq]
      exact fun heq => r.letter_ne_old (Option.some.inj heq)
    · rw [h.second hi, hi.getElem?_eq]
      exact fun heq => s.letter_ne_old (Option.some.inj heq)

/-! ### The two fixes -/

/-- **Every `5Min`** is respelled. -/
theorem respells_fixMinutes (cs : List Char) : minutes.Respells cs (fixMinutes cs) := by
  fun_induction fixMinutes cs with
  | case1 cs ih =>
      have hrest : minutes.Respells (['M', 'i', 'n'] ++ cs) (['M', 'i', 'n'] ++ fixMinutes cs) :=
        ih.append (by simp [minutes])
      exact hrest.cons_of_standsAt (c := '5') ⟨cs, rfl⟩
  | case2 c cs hnot ih =>
      refine ih.cons ?_
      rintro ⟨rest, hrest⟩
      cases hrest
      exact hnot rest rfl rfl
  | case3 => exact respells_nil

/-- **Every `24H`** is respelled. -/
theorem respells_fixHours (cs : List Char) : hours.Respells cs (fixHours cs) := by
  fun_induction fixHours cs with
  | case1 cs ih =>
      have hrest : hours.Respells (['4', 'H'] ++ cs) (['4', 'H'] ++ fixHours cs) :=
        ih.append (by simp [hours])
      exact hrest.cons_of_standsAt (c := '2') ⟨cs, rfl⟩
  | case2 c cs hnot ih =>
      refine ih.cons ?_
      rintro ⟨rest, hrest⟩
      cases hrest
      exact hnot rest rfl rfl
  | case3 => exact respells_nil

theorem apart_minutes_hours : minutes.Apart hours :=
  ⟨by decide, by decide⟩

theorem apart_hours_minutes : hours.Apart minutes :=
  ⟨by decide, by decide⟩

theorem respellsBoth_fixCasing (cs : List Char) : RespellsBoth minutes hours cs (fixCasing cs) :=
  (respells_fixMinutes cs).andThen (respells_fixHours _) apart_minutes_hours

/-- **The order** of the fixes does not matter. -/
theorem fixMinutes_fixHours (cs : List Char) : fixMinutes (fixHours cs) = fixCasing cs :=
  ((respells_fixHours cs).andThen (respells_fixMinutes _) apart_hours_minutes).symm.unique
    (respellsBoth_fixCasing cs)

theorem not_standsAt_minutes (cs : List Char) (j : Nat) : ¬minutes.StandsAt (fixCasing cs) j := by
  rw [fixCasing, (respells_fixHours _).standsAt_iff apart_hours_minutes]
  exact (respells_fixMinutes cs).not_standsAt

theorem not_standsAt_hours (cs : List Char) (j : Nat) : ¬hours.StandsAt (fixCasing cs) j :=
  (respells_fixHours _).not_standsAt

/-- A letter that neither fix touches stays where it is. -/
theorem getElem?_fixCasing_eq_some_iff (hc : c ∉ ['M', 'm', 'H', 'h']) :
    (fixCasing cs)[i]? = some c ↔ cs[i]? = some c := by
  simp only [List.mem_cons, List.not_mem_nil, or_false, not_or] at hc
  obtain ⟨hM, hm, hH, hh⟩ := hc
  rw [fixCasing, (respells_fixHours _).getElem?_eq_some_iff hh hH,
    (respells_fixMinutes _).getElem?_eq_some_iff hm hM]

end Respelling

/-! ### What the fixes make of a text -/

open Respelling

/-- A text and the same text **with its casing put right**. -/
structure Recased (cs ds : List Char) : Prop where
  length : ds.length = cs.length
  /-- In each `5Min` the second character is written anew. -/
  minutes : ∀ j, "5Min".toList <+: cs.drop j → cs[j + 1]? = some 'M' ∧ ds[j + 1]? = some 'm'
  /-- In each `24H` the third character is written anew. -/
  hours : ∀ j, "24H".toList <+: cs.drop j → cs[j + 2]? = some 'H' ∧ ds[j + 2]? = some 'h'
  /-- Nothing else is. -/
  differs_iff : ∀ i : Nat, ds[i]? ≠ cs[i]? ↔ (∃ j, i = j + 1 ∧ "5Min".toList <+: cs.drop j) ∨
    ∃ j, i = j + 2 ∧ "24H".toList <+: cs.drop j
  noMinutes : ¬"5Min".toList <:+: ds
  noHours : ¬"24H".toList <:+: ds
  /-- The quotes are where they were. -/
  quotes : ∀ i : Nat, ds[i]? = some '"' ↔ cs[i]? = some '"'

theorem recased_fixCasing (cs : List Char) : Recased cs (fixCasing cs) where
  length := (respells_fixHours _).length_eq.trans (respells_fixMinutes cs).length_eq
  minutes := by
    intro j hj
    have hhit : Respelling.minutes.Hits cs (j + 1) := ⟨j, rfl, hj⟩
    exact ⟨hhit.getElem?_eq, (respellsBoth_fixCasing cs).first hhit⟩
  hours := by
    intro j hj
    have hhit : Respelling.hours.Hits cs (j + 2) := ⟨j, rfl, hj⟩
    exact ⟨hhit.getElem?_eq, (respellsBoth_fixCasing cs).second hhit⟩
  differs_iff := fun _ => (respellsBoth_fixCasing cs).ne_iff
  noMinutes := by
    intro hword
    obtain ⟨j, hj⟩ := (exists_standsAt_iff (r := Respelling.minutes)).mpr hword
    exact not_standsAt_minutes cs j hj
  noHours := by
    intro hword
    obtain ⟨j, hj⟩ := (exists_standsAt_iff (r := Respelling.hours)).mpr hword
    exact not_standsAt_hours cs j hj
  quotes := fun _ => getElem?_fixCasing_eq_some_iff (by decide)

/-! ### String tokens -/

/-- A token that is **one string wherever it stands**: between the tokens of any texts it is cut
out again. -/
def Token.IsOneString (t : Token) : Prop :=
  t.kind = .string ∧ ∀ before after, IsCut before → IsCut after →
    tokenize (plainText before ++ t.text ++ plainText after) = .ok (before ++ t :: after)

theorem Token.apart_of_string {t u : Token} (h : t.kind = .string) :
    Token.Apart t u ∧ Token.Apart u t := by
  refine ⟨fun ⟨_, hrun⟩ => ?_, fun ⟨hkind, hrun⟩ => ?_⟩
  · simp [h] at hrun
  · simp [hkind, h] at hrun

theorem Token.Lawful.isOneString {t : Token} (ht : t.Lawful) (h : t.kind = .string) :
    t.IsOneString := by
  refine ⟨h, fun before after hbefore hafter => ?_⟩
  have hcut : IsCut (before ++ t :: after) := by
    refine ⟨List.forall_mem_append.mpr ⟨hbefore.lawful, List.forall_mem_cons.mpr
      ⟨ht, hafter.lawful⟩⟩, List.isChain_append.mpr ⟨hbefore.apart, ?_, ?_⟩⟩
    · exact List.isChain_cons.mpr ⟨fun u _ => (Token.apart_of_string h).1, hafter.apart⟩
    · rintro u - v hv
      cases hv
      exact (Token.apart_of_string h).2
  have hread := tokenize_plainText hcut
  rwa [plainText_append, plainText_cons, ← List.append_assoc] at hread

/-- The content of a string token holds no quote. -/
theorem Token.Lawful.not_mem_content {t : Token} (ht : t.Lawful) (h : t.kind = .string) :
    '"' ∉ t.content := by
  obtain ⟨kind, text⟩ := t
  obtain rfl : kind = .string := h
  obtain ⟨cs, rfl, hcs⟩ := ht
  have hcontent : (⟨.string, '"' :: cs ++ ['"']⟩ : Token).content = cs := by
    simp [Token.content]
  rw [hcontent]
  exact fun hmem => hcs _ hmem rfl

theorem isOneString_token_text {cs : List Char} (h : '"' ∉ cs) :
    (Literal.text (fixCasing cs)).token.IsOneString := by
  refine Token.Lawful.isOneString (t := (Literal.text (fixCasing cs)).token) ?_ rfl
  refine ⟨fixCasing cs, rfl, fun c hc heq => h ?_⟩
  obtain ⟨i, hi⟩ := List.mem_iff_getElem?.mp (heq ▸ hc)
  exact List.mem_iff_getElem?.mpr ⟨i, ((recased_fixCasing cs).quotes i).mp hi⟩

/-- **The casing fixes are exact.** In either order they give the same text: the letters of
`5Min` and `24H` are put right wherever these stand, nothing else changes, neither word is left
or comes into being, and fixing the casing again changes nothing. The quotes of a text stay, so
the token of a string that is no more than text is one string again. -/
theorem casing_fixes_exact (cs : List Char) :
    fixHours (fixMinutes cs) = fixCasing cs ∧ fixMinutes (fixHours cs) = fixCasing cs ∧
      Recased cs (fixCasing cs) ∧
      (fixMinutes (fixCasing cs) = fixCasing cs ∧ fixHours (fixCasing cs) = fixCasing cs ∧
        fixCasing (fixCasing cs) = fixCasing cs) ∧
      ∀ dump ts t, tokenize dump = .ok ts → t ∈ ts → t.kind = .string → t.content = cs →
        ¬(Literal.classify cs).isConverted →
        (Literal.classify cs).token = ⟨.string, '"' :: fixCasing cs ++ ['"']⟩ ∧
          (Literal.classify cs).token.IsOneString := by
  have hminutes : fixMinutes (fixCasing cs) = fixCasing cs :=
    (respells_fixMinutes _).eq_of_not_standsAt (not_standsAt_minutes cs)
  have hhours : fixHours (fixCasing cs) = fixCasing cs :=
    (respells_fixHours _).eq_of_not_standsAt (not_standsAt_hours cs)
  have htwice : fixCasing (fixCasing cs) = fixCasing cs := by
    rw [fixCasing, hminutes, hhours]
  refine ⟨rfl, fixMinutes_fixHours cs, recased_fixCasing cs, ⟨hminutes, hhours, htwice⟩, ?_⟩
  rintro dump ts t htokens ht hstring rfl htext
  have hquote := (lawful_of_tokenize htokens t ht).not_mem_content hstring
  cases hl : Literal.classify t.content with
  | integer i => simp [hl, Literal.isConverted] at htext
  | key a => simp [hl, Literal.isConverted] at htext
  | text ds =>
      obtain rfl := Literal.eq_fixCasing_of_classify hl
      exact ⟨rfl, isOneString_token_text hquote⟩

/-- Words that share a letter with what follows them are fixed all the same. -/
example : fixCasing "5Min5Min24H24H5M".toList = "5min5min24h24h5M".toList := by decide

end MarketRegistry
