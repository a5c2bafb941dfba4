import MarketRegistry.Json.Reader
import Mathlib.Data.List.Chain

/-!
# The lexemes of a tree

Reading lexemes is the inverse of writing a syntax tree as lexemes: the written form of a tree
is unique, and the reader accepts nothing else. What is known about the reader's stack is the
lexemes that it has taken so far (`Reading.taken`), which every step extends by its lexeme.

## Main results

* `Json.toLexemes` — the lexemes that write a tree.
* `Json.ofLexemes_eq_ok_iff` — a list of lexemes reads as a tree if and only if the tree writes it.
* `Json.isChain_toLexemes` — which lexemes may follow one another in a written tree.
-/

namespace MarketRegistry

namespace Json

/-- The values of bytes. -/
def ofBytes (bytes : List UInt8) : List Json :=
  bytes.map fun b => .number (.int b.toNat)

mutual

/-- The **lexemes of a tree**. -/
def toLexemes : Json → List Lexeme
  | .null => [.null]
  | .bool b => [.bool b]
  | .number n => [.number n]
  | .string t => [.string t]
  | .array [] => [.bracketOpen, .bracketClose]
  | .array (j :: js) => .bracketOpen :: (j.toLexemes ++ itemsTail js)
  | .object [] => [.braceOpen, .braceClose]
  | .object ((k, v) :: ms) =>
    .braceOpen :: .string k :: .colon :: (v.toLexemes ++ membersTail ms)

/-- The lexemes after an element of an array: the further elements and the end. -/
def itemsTail : List Json → List Lexeme
  | [] => [.bracketClose]
  | j :: js => .comma :: (j.toLexemes ++ itemsTail js)

/-- The lexemes after a member of an object: the further members and the end. -/
def membersTail : List (Text × Json) → List Lexeme
  | [] => [.braceClose]
  | (k, v) :: ms => .comma :: .string k :: .colon :: (v.toLexemes ++ membersTail ms)

end

end Json

/-! ### What a reader has taken -/

namespace Reading

/-- Elements of an array, each with the comma after it. -/
def itemsTaken (js : List Json) : List Lexeme :=
  js.flatMap fun j => j.toLexemes ++ [.comma]

/-- Members of an object, each with the comma after it. -/
def membersTaken (ms : List (Text × Json)) : List Lexeme :=
  ms.flatMap fun m => .string m.1 :: .colon :: (m.2.toLexemes ++ [.comma])

/-- The lexemes that open a container and fill it up to the value to come. -/
def frameTaken : Frame → List Lexeme
  | .array items => .bracketOpen :: itemsTaken items.reverse
  | .object ms k => .braceOpen :: (membersTaken ms.reverse ++ [.string k, .colon])

/-- The lexemes of all open containers, the outermost first. -/
def framesTaken (frames : List Frame) : List Lexeme :=
  frames.reverse.flatMap frameTaken

/-- The **lexemes taken** by a reader on the way to where it is. -/
def taken : Reading → List Lexeme
  | value frames => framesTaken frames
  | firstItem frames => framesTaken frames ++ [.bracketOpen]
  | firstKey frames => framesTaken frames ++ [.braceOpen]
  | key frames ms => framesTaken frames ++ .braceOpen :: membersTaken ms.reverse
  | colon frames ms k =>
    framesTaken frames ++ .braceOpen :: (membersTaken ms.reverse ++ [.string k])
  | after frames j => framesTaken frames ++ j.toLexemes

theorem framesTaken_cons (f : Frame) (frames : List Frame) :
    framesTaken (f :: frames) = framesTaken frames ++ frameTaken f := by
  simp [framesTaken, List.flatMap_append]

theorem itemsTaken_append (js : List Json) (j : Json) :
    itemsTaken (js ++ [j]) = itemsTaken js ++ (j.toLexemes ++ [.comma]) := by
  simp [itemsTaken, List.flatMap_append]

theorem membersTaken_append (ms : List (Text × Json)) (k : Text) (v : Json) :
    membersTaken (ms ++ [(k, v)]) =
      membersTaken ms ++ .string k :: .colon :: (v.toLexemes ++ [.comma]) := by
  simp [membersTaken, List.flatMap_append]

/-- The end of an array that has at least one element. -/
theorem toLexemes_array_append (js : List Json) (j : Json) :
    (Json.array (js ++ [j])).toLexemes =
      .bracketOpen :: (itemsTaken js ++ (j.toLexemes ++ [.bracketClose])) := by
  have tail : ∀ js : List Json, .comma :: itemsTaken js ++ (j.toLexemes ++ [.bracketClose]) =
      Json.itemsTail (js ++ [j]) := by
    intro js
    induction js with
    | nil => simp [itemsTaken, Json.itemsTail]
    | cons i js ih =>
        rw [show i :: js ++ [j] = i :: (js ++ [j]) from rfl, Json.itemsTail, ← ih]
        simp [itemsTaken]
  cases js with
  | nil => simp [itemsTaken, Json.toLexemes, Json.itemsTail]
  | cons i js =>
      rw [List.cons_append, Json.toLexemes, ← tail]
      simp [itemsTaken]

/-- The end of an object that has at least one member. -/
theorem toLexemes_object_append (ms : List (Text × Json)) (k : Text) (v : Json) :
    (Json.object (ms ++ [(k, v)])).toLexemes =
      .braceOpen ::
        (membersTaken ms ++ .string k :: .colon :: (v.toLexemes ++ [.braceClose])) := by
  have tail : ∀ ms : List (Text × Json),
      .comma :: membersTaken ms ++ .string k :: .colon :: (v.toLexemes ++ [.braceClose]) =
        Json.membersTail (ms ++ [(k, v)]) := by
    intro ms
    induction ms with
    | nil => simp [membersTaken, Json.membersTail]
    | cons m ms ih =>
        obtain ⟨k', v'⟩ := m
        rw [show (k', v') :: ms ++ [(k, v)] = (k', v') :: (ms ++ [(k, v)]) from rfl,
          Json.membersTail, ← ih]
        simp [membersTaken]
  cases ms with
  | nil => simp [membersTaken, Json.toLexemes, Json.membersTail]
  | cons m ms =>
      obtain ⟨k', v'⟩ := m
      rw [List.cons_append, Json.toLexemes, ← tail]
      simp [membersTaken]

/-- Starting a value takes its lexeme. -/
theorem taken_startValue {frames : List Frame} {l : Lexeme} {r : Reading}
    (h : startValue frames l = .ok r) : r.taken = framesTaken frames ++ [l] := by
  cases l <;> simp only [startValue, Except.ok.injEq, reduceCtorEq] at h <;> subst h <;>
    simp [taken, Json.toLexemes]

/-- What follows a value takes its lexeme. -/
theorem taken_afterValue {frames : List Frame} {j : Json} {l : Lexeme} {r : Reading}
    (h : afterValue j frames l = .ok r) :
    r.taken = framesTaken frames ++ j.toLexemes ++ [l] := by
  unfold afterValue at h
  split at h <;> simp only [Except.ok.injEq, reduceCtorEq] at h <;> subst h
  · simp [taken, framesTaken_cons, frameTaken, itemsTaken_append]
  · simp [taken, framesTaken_cons, frameTaken, toLexemes_array_append]
  · simp [taken, framesTaken_cons, frameTaken, membersTaken_append]
  · simp [taken, framesTaken_cons, frameTaken, toLexemes_object_append]

/-- **Every step takes its lexeme.** -/
theorem taken_step {r r' : Reading} {l : Lexeme} (h : step r l = .ok r') :
    r'.taken = r.taken ++ [l] := by
  unfold step at h
  split at h
  · exact taken_startValue h
  · cases h
    simp [taken, Json.toLexemes]
  · rw [taken_startValue h]
    simp [taken, framesTaken_cons, frameTaken, itemsTaken]
  · cases h
    simp [taken, Json.toLexemes]
  · cases h
    simp [taken, membersTaken]
  · cases h
    simp [taken]
  · cases h
    simp [taken, framesTaken_cons, frameTaken]
  · exact taken_afterValue h
  · simp at h

/-- A run takes all its lexemes. -/
theorem taken_run {r r' : Reading} {ls : List Lexeme} (h : run r ls = .ok r') :
    r'.taken = r.taken ++ ls := by
  induction ls generalizing r with
  | nil =>
      cases h
      simp
  | cons l ls ih =>
      simp only [run, List.foldlM_cons, bind, Except.bind] at h
      split at h
      · simp at h
      · rename_i s hs
        rw [ih h, taken_step hs, List.append_assoc, List.singleton_append]

end Reading

/-! ### Reading what was written -/

namespace Json

open Reading

theorem run_cons {r s : Reading} {l : Lexeme} {ls : List Lexeme} (h : step r l = .ok s) :
    run r (l :: ls) = run s ls := by
  simp [run, List.foldlM_cons, h, bind, Except.bind]

/-- At the first place of an array, anything but its end is read as a first element. -/
theorem run_firstItem {frames : List Frame} {l : Lexeme} {ls : List Lexeme}
    (h : l ≠ .bracketClose) :
    run (.firstItem frames) (l :: ls) = run (.value (.array [] :: frames)) (l :: ls) := by
  cases l <;> first | rfl | exact absurd rfl h

/-- No tree is written with a closing bracket in front. -/
theorem toLexemes_eq_cons (j : Json) : ∃ l ls, j.toLexemes = l :: ls ∧ l ≠ .bracketClose := by
  cases j with
  | array js => cases js <;> exact ⟨_, _, by rw [toLexemes], by simp⟩
  | object ms => cases ms <;> exact ⟨_, _, by rw [toLexemes], by simp⟩
  | _ => exact ⟨_, _, by rw [toLexemes], by simp⟩

mutual

/-- **A written tree is read** where a value is due. -/
theorem run_toLexemes (j : Json) (frames : List Frame) (ls : List Lexeme) :
    run (.value frames) (j.toLexemes ++ ls) = run (.after frames j) ls := by
  match j with
  | .null | .bool _ | .number _ | .string _ => rfl
  | .array [] => rfl
  | .object [] => rfl
  | .array (j :: js) =>
      obtain ⟨l, ls', hl, hne⟩ := toLexemes_eq_cons j
      have first : run (.firstItem frames) (j.toLexemes ++ (itemsTail js ++ ls)) =
          run (.value (.array [] :: frames)) (j.toLexemes ++ (itemsTail js ++ ls)) := by
        rw [hl]
        exact run_firstItem hne
      rw [toLexemes, List.cons_append, run_cons (s := .firstItem frames) rfl,
        List.append_assoc, first, run_toLexemes j, run_itemsTail js, List.reverse_nil,
        List.nil_append]
  | .object ((k, v) :: ms) =>
      rw [toLexemes, List.cons_append, run_cons (s := .firstKey frames) rfl,
        List.cons_append, run_cons (s := .colon frames [] k) rfl,
        List.cons_append, run_cons (s := .value (.object [] k :: frames)) rfl,
        List.append_assoc, run_toLexemes v, run_membersTail ms, List.reverse_nil,
        List.nil_append]

/-- The further elements of an array are read after one of them. -/
theorem run_itemsTail (js : List Json) (items : List Json) (j : Json) (frames : List Frame)
    (ls : List Lexeme) :
    run (.after (.array items :: frames) j) (itemsTail js ++ ls) =
      run (.after frames (.array (items.reverse ++ j :: js))) ls := by
  match js with
  | [] =>
      rw [itemsTail, List.singleton_append, run_cons rfl, List.reverse_cons]
  | i :: js =>
      rw [itemsTail, List.cons_append, run_cons rfl, List.append_assoc, run_toLexemes i,
        run_itemsTail js, List.reverse_cons, List.append_assoc, List.singleton_append]

/-- The further members of an object are read after one of them. -/
theorem run_membersTail (ms : List (Text × Json)) (members : List (Text × Json)) (k : Text)
    (v : Json) (frames : List Frame) (ls : List Lexeme) :
    run (.after (.object members k :: frames) v) (membersTail ms ++ ls) =
      run (.after frames (.object (members.reverse ++ (k, v) :: ms))) ls := by
  match ms with
  | [] =>
      rw [membersTail, List.singleton_append, run_cons rfl, List.reverse_cons]
  | (k', v') :: ms =>
      rw [membersTail, List.cons_append, run_cons rfl, List.cons_append, run_cons rfl,
        List.cons_append, run_cons rfl, List.append_assoc, run_toLexemes v',
        run_membersTail ms, List.reverse_cons, List.append_assoc, List.singleton_append]

end

/-- **Reading inverts writing**: the lexemes that read as a tree are those that write it. -/
theorem ofLexemes_eq_ok_iff {ls : List Lexeme} {j : Json} :
    ofLexemes ls = .ok j ↔ ls = j.toLexemes := by
  constructor
  · intro h
    simp only [ofLexemes, bind, Except.bind] at h
    split at h
    · simp at h
    · rename_i r hr
      have htaken := taken_run hr
      unfold result at h
      split at h
      · cases h
        simpa [taken, framesTaken] using htaken.symm
      · simp at h
  · rintro rfl
    have hrun := run_toLexemes j [] []
    rw [List.append_nil] at hrun
    rw [ofLexemes, hrun]
    rfl

end Json

/-! ### What may follow what -/

namespace Lexeme

/-- Lexemes at which a value starts. -/
def startsValue : Lexeme → Bool
  | .braceOpen | .bracketOpen | .string _ | .number _ | .bool _ | .null => true
  | _ => false

/-- Lexemes at which a value ends. -/
def endsValue : Lexeme → Bool
  | .braceClose | .bracketClose | .string _ | .number _ | .bool _ | .null => true
  | _ => false

/-- Whether a lexeme is a string. -/
def isString : Lexeme → Bool
  | .string _ => true
  | _ => false

/-- What **may follow**: no value after a value, and a colon after a string only. -/
def MayFollow (a b : Lexeme) : Prop :=
  ¬(a.endsValue ∧ b.startsValue) ∧ (b = .colon → a.isString)

end Lexeme

namespace Json

open Lexeme

/-- Lexemes that may stand after any value. -/
def Continues (ls : List Lexeme) : Prop :=
  ls.IsChain MayFollow ∧ ∀ l ∈ ls.head?, ¬l.startsValue ∧ l ≠ .colon

theorem Continues.isChain_cons {ls : List Lexeme} (h : Continues ls) (a : Lexeme) :
    (a :: ls).IsChain MayFollow :=
  List.isChain_cons.mpr ⟨fun b hb => ⟨fun hab => (h.2 b hb).1 hab.2,
    fun hc => absurd hc (h.2 b hb).2⟩, h.1⟩

theorem continues_cons {a : Lexeme} {ls : List Lexeme} (hs : ¬a.startsValue) (hc : a ≠ .colon)
    (h : (a :: ls).IsChain MayFollow) : Continues (a :: ls) :=
  ⟨h, fun l hl => by obtain rfl := Option.mem_some_iff.mp hl; exact ⟨hs, hc⟩⟩

mutual

/-- A written tree has only neighbours that may follow, after a lexeme that ends no value. -/
theorem isChain_cons_toLexemes (j : Json) {p : Lexeme} {ls : List Lexeme}
    (hp : ¬p.endsValue) (hls : Continues ls) :
    (p :: (j.toLexemes ++ ls)).IsChain MayFollow := by
  have next : ∀ {b : Lexeme} {bs : List Lexeme}, b ≠ .colon → (b :: bs).IsChain MayFollow →
      (p :: b :: bs).IsChain MayFollow := fun hb hbs =>
    List.isChain_cons_cons.mpr ⟨⟨fun h => hp h.1, fun h => absurd h hb⟩, hbs⟩
  match j with
  | .null | .bool _ | .number _ | .string _ => exact next (by simp) (hls.isChain_cons _)
  | .array [] =>
      exact next (by simp) ((continues_cons (by decide) (by decide)
        (hls.isChain_cons _)).isChain_cons _)
  | .object [] =>
      exact next (by simp) ((continues_cons (by decide) (by decide)
        (hls.isChain_cons _)).isChain_cons _)
  | .array (j :: js) =>
      rw [toLexemes, List.cons_append, List.append_assoc]
      exact next (by simp)
        (isChain_cons_toLexemes j (by decide) (continues_itemsTail js hls))
  | .object ((k, v) :: ms) =>
      rw [toLexemes, List.cons_append, List.cons_append, List.cons_append, List.append_assoc]
      have value := isChain_cons_toLexemes v (p := .colon) (by decide)
        (continues_membersTail ms hls)
      exact next (by simp) (.cons_cons (by simp [MayFollow, endsValue])
        (.cons_cons (by simp [MayFollow, startsValue, isString]) value))

/-- The further elements of an array may stand after any of them. -/
theorem continues_itemsTail (js : List Json) {ls : List Lexeme} (hls : Continues ls) :
    Continues (itemsTail js ++ ls) := by
  match js with
  | [] => exact continues_cons (by decide) (by decide) (hls.isChain_cons _)
  | j :: js =>
      rw [itemsTail, List.cons_append, List.append_assoc]
      exact continues_cons (by decide) (by decide)
        (isChain_cons_toLexemes j (by decide) (continues_itemsTail js hls))

/-- The further members of an object may stand after any of them. -/
theorem continues_membersTail (ms : List (Text × Json)) {ls : List Lexeme}
    (hls : Continues ls) : Continues (membersTail ms ++ ls) := by
  match ms with
  | [] => exact continues_cons (by decide) (by decide) (hls.isChain_cons _)
  | (k, v) :: ms =>
      rw [membersTail, List.cons_append, List.cons_append, List.cons_append,
        List.append_assoc]
      have value := isChain_cons_toLexemes v (p := .colon) (by decide)
        (continues_membersTail ms hls)
      exact continues_cons (by decide) (by decide)
        (.cons_cons (by simp [MayFollow, endsValue])
          (.cons_cons (by simp [MayFollow, startsValue, isString]) value))

end

/-- **Neighbours in a written tree** may follow one another. -/
theorem isChain_toLexemes (j : Json) : j.toLexemes.IsChain MayFollow := by
  have chain : (.comma :: (j.toLexemes ++ [])).IsChain MayFollow :=
    isChain_cons_toLexemes j (by decide) ⟨.nil, by simp⟩
  rw [List.append_nil] at chain
  exact chain.of_cons

end Json

end MarketRegistry
