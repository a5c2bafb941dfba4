import MarketRegistry.Json.Nesting
import MarketRegistry.Proofs.Json.Proper

/-!
# Outlines of readings

Whether a text is json does not depend on what its strings and numbers hold. The progress of a
reader is determined by its outline: the kinds of the open containers and the place in the
innermost one. Two texts whose readings have the same outline at some place are accepted alike
from there on.

## Main results

* `Outline.step` — the reader without contents, and `Reading.outline_step`, which says so.
* `exists_ofLexemes_iff` — lexemes are json when the outline of their reading is at its end.
* `Outline.run_toLexemes` — a value other than a string moves an outline as any other does.
* `Lexing.not_accepts_of_startsValue` — no value directly follows another.
-/

namespace MarketRegistry

/-- The places where a reader may be. -/
inductive Place where
  | value
  | firstItem
  | firstKey
  | key
  | colon
  | after
  deriving DecidableEq

/-- The **outline** of a reading: its open containers, innermost first, and its place. -/
structure Outline where
  frames : List Container
  place : Place
  deriving DecidableEq

namespace Outline

/-- Nothing read yet. -/
def start : Outline :=
  ⟨[], .value⟩

/-- A value read, and no container open. -/
def finish : Outline :=
  ⟨[], .after⟩

/-- The lexeme at which a value starts. -/
def startValue (frames : List Container) : Lexeme → Option Outline
  | .bracketOpen => some ⟨frames, .firstItem⟩
  | .braceOpen => some ⟨frames, .firstKey⟩
  | .string _ | .number _ | .bool _ | .null => some ⟨frames, .after⟩
  | _ => none

/-- The lexeme that follows a value. -/
def afterValue : List Container → Lexeme → Option Outline
  | .array :: frames, .comma => some ⟨.array :: frames, .value⟩
  | .array :: frames, .bracketClose => some ⟨frames, .after⟩
  | .object :: frames, .comma => some ⟨frames, .key⟩
  | .object :: frames, .braceClose => some ⟨frames, .after⟩
  | _, _ => none

/-- One lexeme more. -/
def step : Outline → Lexeme → Option Outline
  | ⟨frames, .value⟩, l => startValue frames l
  | ⟨frames, .firstItem⟩, .bracketClose => some ⟨frames, .after⟩
  | ⟨frames, .firstItem⟩, l => startValue (.array :: frames) l
  | ⟨frames, .firstKey⟩, .braceClose => some ⟨frames, .after⟩
  | ⟨frames, .firstKey⟩, .string _ => some ⟨frames, .colon⟩
  | ⟨frames, .key⟩, .string _ => some ⟨frames, .colon⟩
  | ⟨frames, .colon⟩, .colon => some ⟨.object :: frames, .value⟩
  | ⟨frames, .after⟩, l => afterValue frames l
  | _, _ => none

/-- Several lexemes more. -/
def run (o : Outline) (ls : List Lexeme) : Option Outline :=
  ls.foldlM step o

theorem run_cons (o : Outline) (l : Lexeme) (ls : List Lexeme) :
    o.run (l :: ls) = (o.step l).bind fun o => o.run ls := by
  rw [run, List.foldlM_cons]
  rfl

theorem run_append (o : Outline) (ls ms : List Lexeme) :
    o.run (ls ++ ms) = (o.run ls).bind fun o => o.run ms := by
  induction ls generalizing o with
  | nil => rfl
  | cons l ls ih =>
      rw [List.cons_append, run_cons, run_cons, Option.bind_assoc]
      congr 1
      funext o'
      exact ih o'

end Outline

/-! ### Readings and their outlines -/

/-- The kind of an open container. -/
def Frame.container : Frame → Container
  | .array _ => .array
  | .object _ _ => .object

namespace Reading

/-- The outline of a reading. -/
def outline : Reading → Outline
  | value frames => ⟨frames.map Frame.container, .value⟩
  | firstItem frames => ⟨frames.map Frame.container, .firstItem⟩
  | firstKey frames => ⟨frames.map Frame.container, .firstKey⟩
  | key frames _ => ⟨frames.map Frame.container, .key⟩
  | colon frames _ _ => ⟨frames.map Frame.container, .colon⟩
  | after frames _ => ⟨frames.map Frame.container, .after⟩

theorem outline_startValue (frames : List Frame) (l : Lexeme) :
    (startValue frames l).toOption.map outline =
      Outline.startValue (frames.map Frame.container) l := by
  cases l <;> rfl

theorem outline_afterValue (frames : List Frame) (j : Json) (l : Lexeme) :
    (afterValue j frames l).toOption.map outline =
      Outline.afterValue (frames.map Frame.container) l := by
  match frames with
  | [] => cases l <;> rfl
  | .array _ :: _ => cases l <;> rfl
  | .object _ _ :: _ => cases l <;> rfl

/-- **The outline of a step** is the step of the outline. -/
theorem outline_step (r : Reading) (l : Lexeme) :
    (r.step l).toOption.map outline = r.outline.step l := by
  cases r with
  | value frames => exact outline_startValue frames l
  | firstItem frames => cases l <;> rfl
  | firstKey frames => cases l <;> rfl
  | key frames ms => cases l <;> rfl
  | colon frames ms k => cases l <;> rfl
  | after frames j => exact outline_afterValue frames j l

/-- The outline of a run is the run of the outline. -/
theorem outline_run (r : Reading) (ls : List Lexeme) :
    (r.run ls).toOption.map outline = r.outline.run ls := by
  induction ls generalizing r with
  | nil => rfl
  | cons l ls ih =>
      rw [Outline.run_cons, ← outline_step]
      cases h : r.step l with
      | error e => simp [run, List.foldlM_cons, h, bind, Except.bind, Except.toOption]
      | ok r' =>
          rw [Json.run_cons h, ih r']
          rfl

end Reading

/-- **Lexemes are json** when the outline of their reading is at its end. -/
theorem exists_ofLexemes_iff {ls : List Lexeme} :
    (∃ j, Json.ofLexemes ls = .ok j) ↔ Outline.start.run ls = some .finish := by
  rw [show Outline.start = (Reading.value []).outline from rfl, ← Reading.outline_run]
  simp only [Json.ofLexemes, bind, Except.bind]
  cases (Reading.value []).run ls with
  | error e => simp [Except.toOption]
  | ok r =>
      cases r with
      | after frames j =>
          cases frames <;> simp [Reading.result, Except.toOption, Reading.outline, Outline.finish]
      | _ => simp [Reading.result, Except.toOption, Reading.outline, Outline.finish]

/-! ### Values -/

namespace Outline

/-- The outline after a value, where one is due. -/
def filled? : Outline → Option Outline
  | ⟨frames, .value⟩ => some ⟨frames, .after⟩
  | ⟨frames, .firstItem⟩ => some ⟨.array :: frames, .after⟩
  | _ => none

/-- A reader is **done with a value** or a key when none may come next. -/
def IsFull (o : Outline) : Prop :=
  o.place = .colon ∨ o.place = .after

variable {o o' : Outline}

theorem place_of_filled? (h : o.filled? = some o') : o'.place = .after := by
  obtain ⟨frames, place⟩ := o
  cases place <;> cases h <;> rfl

theorem isFull_of_filled? (h : o.filled? = some o') : o'.IsFull :=
  .inr (place_of_filled? h)

/-- An object stands in the place of a value and waits for its first key. -/
theorem of_step_braceOpen (h : o.step .braceOpen = some o') :
    o'.place = .firstKey ∧ o.filled?.isSome := by
  obtain ⟨frames, place⟩ := o
  cases place with
  | value | firstItem =>
      cases h
      exact ⟨rfl, rfl⟩
  | firstKey | key | colon => cases h
  | after =>
      match frames with
      | [] | .array :: _ | .object :: _ => cases h

/-- A string that is no key stands in the place of a value. -/
theorem filled?_of_step_string {t : Text} (h : o.step (.string t) = some o')
    (hplace : o'.place ≠ .colon) : o.filled? = some o' := by
  obtain ⟨frames, place⟩ := o
  cases place with
  | value | firstItem =>
      cases h
      rfl
  | firstKey | key =>
      cases h
      exact absurd rfl hplace
  | colon => cases h
  | after =>
      match frames with
      | [] | .array :: _ | .object :: _ => cases h

/-- A string may stand in the place of any value. -/
theorem step_string_of_filled? (h : o.filled? = some o') (t : Text) :
    o.step (.string t) = some o' := by
  obtain ⟨frames, place⟩ := o
  cases place <;> cases h <;> rfl

/-- A string leaves no room for another value. -/
theorem isFull_of_step_string {t : Text} (h : o.step (.string t) = some o') : o'.IsFull := by
  obtain ⟨frames, place⟩ := o
  cases place with
  | firstKey | key =>
      cases h
      exact .inl rfl
  | value | firstItem =>
      cases h
      exact .inr rfl
  | colon => cases h
  | after =>
      match frames with
      | [] | .array :: _ | .object :: _ => cases h

theorem IsFull.filled?_eq_none (h : o.IsFull) : o.filled? = none := by
  obtain ⟨frames, place⟩ := o
  rcases h with h | h <;> cases h <;> rfl

/-- No value may start where there is no room for it. -/
theorem IsFull.step_eq_none (h : o.IsFull) {l : Lexeme} (hl : l.startsValue) :
    o.step l = none := by
  obtain ⟨frames, place⟩ := o
  rcases h with h | h <;> cases h
  · cases l <;> first | rfl | cases hl
  · match frames with
    | [] | .array :: _ | .object :: _ => cases l <;> first | rfl | cases hl

/-- Only proper lexemes are read. -/
theorem step_eq_none_of_improper (o : Outline) {l : Lexeme} (hl : ¬l.isProper) :
    o.step l = none := by
  obtain ⟨frames, place⟩ := o
  cases l <;> first | exact absurd rfl hl | skip
  all_goals
    cases place with
    | after =>
        match frames with
        | [] | .array :: _ | .object :: _ => rfl
    | _ => rfl

/-- A word is a value or nothing. -/
theorem step_ofWord (o : Outline) (cs : List Char) :
    o.step (.ofWord cs) = if (Lexeme.ofWord cs).isProper then o.filled? else none := by
  obtain ⟨hmark, hstring⟩ := Lexeme.ofWord_of_word cs
  obtain ⟨frames, place⟩ := o
  cases hword : Lexeme.ofWord cs with
  | braceOpen | braceClose | bracketOpen | bracketClose | colon | comma =>
      simp [hword, Lexeme.markChar?] at hmark
  | string t => simp [hword, Lexeme.string?] at hstring
  | number _ | bool _ | null | constant _ | bad =>
      cases place with
      | after => rcases frames with _ | ⟨_ | _, _⟩ <;> rfl
      | _ => rfl

/-- Containers as frames of a reader. -/
theorem exists_frames (frames : List Container) :
    ∃ fs : List Frame, fs.map Frame.container = frames := by
  induction frames with
  | nil => exact ⟨[], rfl⟩
  | cons c frames ih =>
      obtain ⟨fs, rfl⟩ := ih
      cases c with
      | array => exact ⟨.array [] :: fs, rfl⟩
      | object => exact ⟨.object [] [] :: fs, rfl⟩

theorem exists_toLexemes_of_ne_string {j : Json} (hj : ∀ t, j ≠ .string t) :
    ∃ l ls, j.toLexemes = l :: ls ∧ l.startsValue ∧ l.string? = none := by
  match j with
  | .null | .bool _ | .number _ => exact ⟨_, _, by rw [Json.toLexemes], rfl, rfl⟩
  | .string t => exact absurd rfl (hj t)
  | .array [] | .array (_ :: _) => exact ⟨_, _, by rw [Json.toLexemes], rfl, rfl⟩
  | .object [] | .object ((_, _) :: _) => exact ⟨_, _, by rw [Json.toLexemes], rfl, rfl⟩

/-- **A value other than a string** moves an outline as any other does. -/
theorem run_toLexemes (o : Outline) {j : Json} (hj : ∀ t, j ≠ .string t) :
    o.run j.toLexemes = o.filled? := by
  obtain ⟨frames, place⟩ := o
  obtain ⟨fs, rfl⟩ := exists_frames frames
  have hvalue : ∀ fs : List Frame, run ⟨fs.map Frame.container, .value⟩ j.toLexemes =
      some ⟨fs.map Frame.container, .after⟩ := by
    intro fs
    have h := Json.run_toLexemes j fs []
    rw [List.append_nil] at h
    rw [show (⟨fs.map Frame.container, .value⟩ : Outline) = (Reading.value fs).outline from rfl,
      ← Reading.outline_run, h]
    rfl
  obtain ⟨l, ls, hl, hstarts, hstring⟩ := exists_toLexemes_of_ne_string hj
  cases place with
  | value => exact hvalue fs
  | firstItem =>
      have hfirst : run ⟨fs.map Frame.container, .firstItem⟩ j.toLexemes =
          run ⟨(Frame.array [] :: fs).map Frame.container, .value⟩ j.toLexemes := by
        rw [hl, run_cons, run_cons]
        congr 1
        cases l <;> first | rfl | cases hstarts
      rw [hfirst, hvalue]
      rfl
  | firstKey | key =>
      rw [hl, run_cons]
      cases l with
      | string t => cases hstring
      | _ => first | rfl | cases hstarts
  | colon | after =>
      rw [hl, run_cons, IsFull.step_eq_none (by simp [IsFull]) hstarts]
      rfl

end Outline

/-! ### Readings of texts -/

namespace Lexing

/-- The outline of the lexemes that are finished. -/
def outline (s : Lexing) : Option Outline :=
  Outline.start.run s.done.reverse

/-- A reading is **accepted** when the text up to it is json. -/
def Accepts (s : Lexing) : Prop :=
  Outline.start.run s.finished.reverse = some .finish

/-- A text is json when its reading is accepted. -/
theorem exists_read_iff {cs : List Char} : (∃ j, Json.read cs = .ok j) ↔ (start.run cs).Accepts :=
  exists_ofLexemes_iff

variable {ls : List Lexeme} {p q : Phase} {o : Outline} {cs : List Char} {c : Char}

theorem accepts_between :
    (Lexing.mk ls .between).Accepts ↔ (Lexing.mk ls .between).outline = some .finish := Iff.rfl

/-- One more finished lexeme. -/
theorem outline_cons (l : Lexeme) (ls : List Lexeme) (p q : Phase) :
    (Lexing.mk (l :: ls) p).outline = (Lexing.mk ls q).outline.bind fun o => o.step l := by
  rw [outline, List.reverse_cons, Outline.run_append]
  congr 1
  funext o
  rw [Outline.run_cons]
  cases o.step l <;> rfl

theorem outline_cons_eq_some_iff {l : Lexeme} {o' : Outline} :
    (Lexing.mk (l :: ls) p).outline = some o' ↔
      ∃ o, (Lexing.mk ls .between).outline = some o ∧ o.step l = some o' := by
  rw [outline_cons _ _ _ .between, Option.bind_eq_some_iff]

/-- Several finished lexemes more. -/
theorem outline_append (ms ls : List Lexeme) (p q : Phase) :
    (Lexing.mk (ms ++ ls) p).outline =
      (Lexing.mk ls q).outline.bind fun o => o.run ms.reverse := by
  rw [outline, List.reverse_append, Outline.run_append]
  rfl

/-- **Finished lexemes stay**: what is accepted in the end has had an outline all along. -/
theorem Accepts.exists_outline {s : Lexing} (h : (s.run cs).Accepts) :
    ∃ o, s.outline = some o := by
  have habove : s = (Lexing.mk [] s.phase).above s.done := rfl
  rw [habove, run_above, Accepts, finished_above, List.reverse_append, Outline.run_append] at h
  obtain ⟨o, ho, -⟩ := Option.bind_eq_some_iff.mp h
  exact ⟨o, ho⟩

/-- **The last lexeme has been taken** where a reading is accepted in the end. -/
theorem Accepts.exists_step {l : Lexeme} (h : ((Lexing.mk (l :: ls) p).run cs).Accepts) :
    ∃ o o', (Lexing.mk ls .between).outline = some o ∧ o.step l = some o' := by
  obtain ⟨o', ho'⟩ := h.exists_outline
  obtain ⟨o, ho, hstep⟩ := outline_cons_eq_some_iff.mp ho'
  exact ⟨o, o', ho, hstep⟩

theorem Accepts.isSome_step {l : Lexeme} (h : ((Lexing.mk (l :: ls) p).run cs).Accepts)
    (ho : (Lexing.mk ls .between).outline = some o) : (o.step l).isSome := by
  obtain ⟨o₁, o', ho₁, hstep⟩ := h.exists_step
  obtain rfl := Option.some.inj (ho.symm.trans ho₁)
  exact Option.isSome_of_eq_some hstep

end Lexing

/-- Whether a string is being read. -/
def Phase.inString : Phase → Bool
  | .string _ | .escape _ | .unit .. => true
  | _ => false

namespace Lexing

variable {ls : List Lexeme} {p q : Phase} {o : Outline} {cs : List Char} {c : Char}

/-- A string that is being read ends, breaks or goes on. -/
theorem step_inString (ls : List Lexeme) (hp : p.inString) (c : Char) :
    (∃ t, (Lexing.mk ls p).step c = ⟨.string t :: ls, .between⟩) ∨
      (Lexing.mk ls p).step c = fail ls ∨
      ∃ q : Phase, q.inString ∧ (Lexing.mk ls p).step c = ⟨ls, q⟩ := by
  cases p with
  | between | word _ | broken => cases hp
  | string t =>
      simp only [step, stepString]
      split_ifs
      · exact .inl ⟨_, rfl⟩
      · exact .inr (.inr ⟨_, rfl, rfl⟩)
      · exact .inr (.inl rfl)
      · exact .inr (.inr ⟨_, rfl, rfl⟩)
  | escape t =>
      simp only [step, stepEscape]
      split_ifs
      · exact .inr (.inr ⟨_, rfl, rfl⟩)
      · cases escaped? c with
        | none => exact .inr (.inl rfl)
        | some e => exact .inr (.inr ⟨_, rfl, rfl⟩)
  | unit t value left =>
      simp only [step, stepUnit]
      cases Numeral.hexDigit? c with
      | none => exact .inr (.inl rfl)
      | some d =>
          simp only
          split_ifs <;> exact .inr (.inr ⟨_, rfl, rfl⟩)

/-- A broken reading is never accepted. -/
theorem not_accepts_fail : ¬((fail ls).run cs).Accepts := by
  intro h
  rw [fail] at h
  obtain ⟨o, o', -, hstep⟩ := h.exists_step
  rw [o.step_eq_none_of_improper (by decide)] at hstep
  cases hstep

/-- A string that is being read is not json yet. -/
theorem not_accepts_inString (hp : p.inString) : ¬(Lexing.mk ls p).Accepts := by
  cases p with
  | between | word _ | broken => cases hp
  | string t | escape t | unit t value left =>
      intro h
      have hfail : ((fail ls).run []).Accepts := h
      exact not_accepts_fail hfail

/-- **A string that is being read** needs a place for it. -/
theorem Accepts.exists_step_string (hp : p.inString) (h : ((Lexing.mk ls p).run cs).Accepts) :
    ∃ o o' t, (Lexing.mk ls .between).outline = some o ∧ o.step (.string t) = some o' := by
  induction cs generalizing p with
  | nil => exact absurd h (not_accepts_inString hp)
  | cons c cs ih =>
      rw [run_cons] at h
      rcases step_inString ls hp c with ⟨t, hstep⟩ | hstep | ⟨q, hq, hstep⟩
      · rw [hstep] at h
        obtain ⟨o, o', ho, ho'⟩ := h.exists_step
        exact ⟨o, o', t, ho, ho'⟩
      · rw [hstep] at h
        exact absurd h not_accepts_fail
      · rw [hstep] at h
        exact ih hq h

/-- **A word that is being read** needs a place for a value, and only word letters are in it. -/
theorem Accepts.exists_filled? {w : List Char} (h : ((Lexing.mk ls (.word w)).run cs).Accepts) :
    (∃ o o', (Lexing.mk ls .between).outline = some o ∧ o.filled? = some o') ∧
      ∀ c ∈ w, isWordLetter c := by
  have hword : ∀ {w cs : List Char},
      ((Lexing.mk (.ofWord w.reverse :: ls) .between).run cs).Accepts →
        (∃ o o', (Lexing.mk ls .between).outline = some o ∧ o.filled? = some o') ∧
          ∀ c ∈ w, isWordLetter c := by
    intro w cs h
    obtain ⟨o, o', ho, ho'⟩ := h.exists_step
    rw [Outline.step_ofWord] at ho'
    split at ho'
    · rename_i hproper
      exact ⟨⟨o, o', ho, ho'⟩, fun c hc =>
        Lexeme.isWordLetter_of_isProper hproper c (List.mem_reverse.mpr hc)⟩
    · cases ho'
  induction cs generalizing w with
  | nil => exact @hword w [] h
  | cons c cs ih =>
      by_cases hc : isWordChar c
      · rw [run_cons, step_word hc] at h
        obtain ⟨hplace, hletters⟩ := ih h
        exact ⟨hplace, fun d hd => hletters d (List.mem_cons_of_mem c hd)⟩
      · rw [run_cons, step_of_not_isWordChar hc, ← run_cons] at h
        exact hword h

/-- The characters at which a value starts. -/
def startsValue (c : Char) : Bool :=
  isWordChar c || c == '"' || c == '\x7b' || c == '['

/-- **No value directly follows another**, nor a key. -/
theorem not_accepts_of_startsValue (ho : (Lexing.mk ls .between).outline = some o)
    (hfull : o.IsFull) (hc : startsValue c) :
    ¬((Lexing.mk ls .between).run (c :: cs)).Accepts := by
  intro h
  rw [run_cons] at h
  have hmark : ∀ {m : Lexeme}, m.startsValue →
      ¬((Lexing.mk (m :: ls) .between).run cs).Accepts := by
    intro m hm h
    have hsome := h.isSome_step ho
    rw [hfull.step_eq_none hm] at hsome
    cases hsome
  simp only [startsValue, Bool.or_eq_true, beq_iff_eq] at hc
  rcases hc with ((hc | rfl) | rfl) | rfl
  · rw [step_between hc] at h
    obtain ⟨⟨o', o'', ho', hfilled⟩, -⟩ := h.exists_filled?
    rw [ho] at ho'
    cases ho'
    rw [hfull.filled?_eq_none] at hfilled
    cases hfilled
  · have hstring : ((Lexing.mk ls (.string [])).run cs).Accepts := h
    obtain ⟨o', o'', t, ho', hstep⟩ := hstring.exists_step_string rfl
    rw [ho] at ho'
    cases ho'
    rw [hfull.step_eq_none rfl] at hstep
    cases hstep
  · exact hmark rfl h
  · exact hmark rfl h

/-- No value directly follows a word. -/
theorem not_accepts_of_word {w : List Char} (hc : startsValue c) (hw : ¬isWordChar c) :
    ¬((Lexing.mk ls (.word w)).run (c :: cs)).Accepts := by
  intro h
  obtain ⟨⟨o, o', ho, hfilled⟩, -⟩ := h.exists_filled?
  rw [run_cons, step_of_not_isWordChar hw, ← run_cons] at h
  have hsome := h.isSome_step ho
  rw [Outline.step_ofWord] at hsome
  split at hsome
  · rename_i hproper
    refine not_accepts_of_startsValue ?_ (Outline.isFull_of_filled? hfilled) hc h
    rw [outline_cons _ _ _ .between, ho, Option.bind_some, Outline.step_ofWord, if_pos hproper,
      hfilled]
  · cases hsome

end Lexing

end MarketRegistry
