import MarketRegistry.Proofs.Dump.Literals
import MarketRegistry.Proofs.Json.Syntax

/-!
# Normalization of trees

What the normalization of a dump does to the syntax tree of a dump that is json. The two edits
of the text are two walks over the tree: unit variants collapse to strings, and strings become
their literals.

## Main definitions

* `Json.normalized` — the tree after both edits.
* `Json.collapsed` — the tree after the first of them.
* `Json.unitVariants`, `Json.strings`, `Json.objectKeys` — what the edits meet in a tree.

## Main results

* `Json.collapseLexemes_toLexemes` — unit variants are found by their six lexemes.
* `Json.toLexemes_normalized` — strings become literals lexeme by lexeme, if no key does.
* `Json.not_isChain_of_isConverted` — a key that becomes a literal leaves no json.
-/

namespace MarketRegistry

/-! ### Texts -/

namespace Text

/-- The literal that a text stands for, if it has no lone halves. -/
def literal? (t : Text) : Option Literal :=
  t.toChars?.map Literal.classify

/-- Whether a text stands for an integer or an address. -/
def isConverted (t : Text) : Bool :=
  t.literal?.any Literal.isConverted

/-- The value that a text stands for. -/
def literalJson (t : Text) : Json :=
  t.literal?.elim (.string t) Literal.json

/-- A text with the casing fixes. -/
def fixedCasing (t : Text) : Text :=
  t.toChars?.elim t fun cs => ofChars (fixCasing cs)

theorem literalJson_ofChars (cs : List Char) :
    (ofChars cs).literalJson = (Literal.classify cs).json := by
  rw [literalJson, literal?, toChars?_ofChars]
  rfl

theorem isConverted_ofChars (cs : List Char) :
    (ofChars cs).isConverted = (Literal.classify cs).isConverted := by
  rw [isConverted, literal?, toChars?_ofChars]
  rfl

theorem fixedCasing_ofChars (cs : List Char) :
    (ofChars cs).fixedCasing = ofChars (fixCasing cs) := by
  rw [fixedCasing, toChars?_ofChars]
  rfl

/-- A text that is not converted stands for itself, up to the casing fixes. -/
theorem literalJson_eq_string {t : Text} (h : ¬t.isConverted) :
    t.literalJson = .string t.fixedCasing := by
  rw [isConverted, literal?] at h
  rw [literalJson, fixedCasing, literal?]
  cases hcs : t.toChars? with
  | none => rfl
  | some cs =>
      rw [hcs] at h
      cases hl : Literal.classify cs with
      | integer i => simp [hl, Literal.isConverted] at h
      | key a => simp [hl, Literal.isConverted] at h
      | text ds =>
          simp only [Option.map_some, hl, Option.elim_some, Literal.json]
          rw [Literal.eq_fixCasing_of_classify hl]

/-- A converted text stands for a number or an array. -/
theorem literalJson_of_isConverted {t : Text} (h : t.isConverted) :
    (∃ n, t.literalJson = .number n) ∨ ∃ js, t.literalJson = .array js := by
  rw [isConverted] at h
  rw [literalJson]
  cases hl : t.literal? with
  | none => simp [hl] at h
  | some l =>
      cases l with
      | integer i => exact .inl ⟨_, rfl⟩
      | key a => exact .inr ⟨_, rfl⟩
      | text cs => simp [hl, Literal.isConverted] at h

end Text

/-! ### Trees -/

namespace Json

/-- The name of a unit variant: the only key of an object whose value is the empty object. -/
def unitVariant? : List (Text × Json) → Option Text
  | [(k, .object [])] => some k
  | _ => none

mutual

/-- A tree **normalized**: unit variants and strings become the values that they stand for, and
the casing of the other keys is fixed. -/
def normalized : Json → Json
  | .null => .null
  | .bool b => .bool b
  | .number n => .number n
  | .string t => t.literalJson
  | .array js => .array (normalizedItems js)
  | .object ms => (unitVariant? ms).elim (.object (normalizedMembers ms)) Text.literalJson

/-- Elements of an array, normalized. -/
def normalizedItems : List Json → List Json
  | [] => []
  | j :: js => j.normalized :: normalizedItems js

/-- Members of an object, normalized. -/
def normalizedMembers : List (Text × Json) → List (Text × Json)
  | [] => []
  | (k, v) :: ms => (k.fixedCasing, v.normalized) :: normalizedMembers ms

end

mutual

/-- The number of unit variants in a tree. -/
def unitVariants : Json → Nat
  | .array js => unitVariantsItems js
  | .object ms => if (unitVariant? ms).isSome then 1 else unitVariantsMembers ms
  | _ => 0

/-- The number of unit variants in the elements of an array. -/
def unitVariantsItems : List Json → Nat
  | [] => 0
  | j :: js => j.unitVariants + unitVariantsItems js

/-- The number of unit variants in the members of an object. -/
def unitVariantsMembers : List (Text × Json) → Nat
  | [] => 0
  | (_, v) :: ms => v.unitVariants + unitVariantsMembers ms

end

mutual

/-- All strings of a tree in order, keys included. -/
def strings : Json → List Text
  | .string t => [t]
  | .array js => stringsItems js
  | .object ms => stringsMembers ms
  | _ => []

/-- The strings of the elements of an array. -/
def stringsItems : List Json → List Text
  | [] => []
  | j :: js => j.strings ++ stringsItems js

/-- The strings of the members of an object. -/
def stringsMembers : List (Text × Json) → List Text
  | [] => []
  | (k, v) :: ms => k :: (v.strings ++ stringsMembers ms)

end

mutual

/-- The keys of all objects of a tree but the unit variants. -/
def objectKeys : Json → List Text
  | .array js => objectKeysItems js
  | .object ms => if (unitVariant? ms).isSome then [] else objectKeysMembers ms
  | _ => []

/-- The keys in the elements of an array. -/
def objectKeysItems : List Json → List Text
  | [] => []
  | j :: js => j.objectKeys ++ objectKeysItems js

/-- The keys of members and those in their values. -/
def objectKeysMembers : List (Text × Json) → List Text
  | [] => []
  | (k, v) :: ms => k :: (v.objectKeys ++ objectKeysMembers ms)

end

/-- Members are normalized one by one. -/
theorem normalizedMembers_eq_map (ms : List (Text × Json)) :
    normalizedMembers ms = ms.map fun m => (m.1.fixedCasing, m.2.normalized) := by
  induction ms with
  | nil => rfl
  | cons m ms ih =>
      obtain ⟨k, v⟩ := m
      rw [normalizedMembers, ih, List.map_cons]

theorem normalizedItems_eq_map (js : List Json) : normalizedItems js = js.map normalized := by
  induction js with
  | nil => rfl
  | cons j js ih => rw [normalizedItems, ih, List.map_cons]

/-- The keys in members are those of the members and those in their values. -/
theorem forall_objectKeysMembers {ms : List (Text × Json)} {p : Text → Prop} :
    (∀ k ∈ objectKeysMembers ms, p k) ↔ ∀ m ∈ ms, p m.1 ∧ ∀ k ∈ m.2.objectKeys, p k := by
  induction ms with
  | nil => simp [objectKeysMembers]
  | cons m ms ih =>
      obtain ⟨k, v⟩ := m
      rw [objectKeysMembers, List.forall_mem_cons, List.forall_mem_append, ih, List.forall_mem_cons,
        and_assoc]

theorem forall_objectKeysItems {js : List Json} {p : Text → Prop} :
    (∀ k ∈ objectKeysItems js, p k) ↔ ∀ j ∈ js, ∀ k ∈ j.objectKeys, p k := by
  induction js with
  | nil => simp [objectKeysItems]
  | cons j js ih =>
      rw [objectKeysItems, List.forall_mem_append, ih, List.forall_mem_cons]

/-! ### Collapsed trees -/

mutual

/-- A tree with every unit variant **collapsed** to its name. -/
def collapsed : Json → Json
  | .null => .null
  | .bool b => .bool b
  | .number n => .number n
  | .string t => .string t
  | .array js => .array (collapsedItems js)
  | .object ms => (unitVariant? ms).elim (.object (collapsedMembers ms)) .string

/-- Elements of an array with their unit variants collapsed. -/
def collapsedItems : List Json → List Json
  | [] => []
  | j :: js => j.collapsed :: collapsedItems js

/-- Members of an object with the unit variants of their values collapsed. -/
def collapsedMembers : List (Text × Json) → List (Text × Json)
  | [] => []
  | (k, v) :: ms => (k, v.collapsed) :: collapsedMembers ms

end

/-- A unit variant is nothing but its name, a colon and braces. -/
theorem eq_of_unitVariant? {ms : List (Text × Json)} {k : Text} (h : unitVariant? ms = some k) :
    ms = [(k, .object [])] := by
  unfold unitVariant? at h
  split at h
  · cases h
    rfl
  · simp at h

/-! ### Collapsing lexemes -/

/-- Lexemes with every unit variant collapsed to its string, and the number of them. -/
def collapseLexemes : List Lexeme → List Lexeme × Nat
  | .braceOpen :: .string k :: .colon :: .braceOpen :: .braceClose :: .braceClose :: ls =>
    let r := collapseLexemes ls
    (.string k :: r.1, r.2 + 1)
  | l :: ls =>
    let r := collapseLexemes ls
    (l :: r.1, r.2)
  | [] => ([], 0)

/-- Only an opening brace begins a unit variant. -/
theorem collapseLexemes_cons {l : Lexeme} (h : l ≠ .braceOpen) (ls : List Lexeme) :
    collapseLexemes (l :: ls) = (l :: (collapseLexemes ls).1, (collapseLexemes ls).2) := by
  rw [collapseLexemes]
  exact fun _ _ hl _ => h hl

/-- A value that begins with both braces is the empty object. -/
theorem eq_empty_of_toLexemes {j : Json} {ls ls' : List Lexeme}
    (h : j.toLexemes ++ ls = .braceOpen :: .braceClose :: ls') : j = .object [] ∧ ls = ls' := by
  match j with
  | .null | .bool _ | .number _ | .string _ => simp [toLexemes] at h
  | .array [] | .array (_ :: _) => simp [toLexemes] at h
  | .object [] => simpa [toLexemes] using h
  | .object ((_, _) :: _) => simp [toLexemes] at h

/-- An opening brace that begins no unit variant stays. -/
theorem collapseLexemes_braceOpen {k : Text} {v : Json} {ms : List (Text × Json)}
    (h : unitVariant? ((k, v) :: ms) = none) (ls : List Lexeme) :
    collapseLexemes (.braceOpen :: .string k :: .colon :: (v.toLexemes ++ (membersTail ms ++ ls))) =
      (.braceOpen :: .string k :: .colon ::
          (collapseLexemes (v.toLexemes ++ (membersTail ms ++ ls))).1,
        (collapseLexemes (v.toLexemes ++ (membersTail ms ++ ls))).2) := by
  have hno : ∀ (k' : Text) (ls' : List Lexeme), .string k :: .colon ::
      (v.toLexemes ++ (membersTail ms ++ ls)) = .string k' :: .colon ::
        .braceOpen :: .braceClose :: .braceClose :: ls' → False := by
    intro k' ls' heq
    obtain ⟨rfl, hms⟩ := eq_empty_of_toLexemes (List.cons.inj (List.cons.inj heq).2).2
    cases ms with
    | nil => simp [unitVariant?] at h
    | cons m ms => simp [membersTail] at hms
  rw [collapseLexemes, collapseLexemes_cons (by simp), collapseLexemes_cons (by simp)]
  exact fun k' ls' _ heq => hno k' ls' heq

mutual

/-- **Unit variants are found by their lexemes**, one after the other. -/
theorem collapseLexemes_toLexemes (j : Json) (ls : List Lexeme) :
    collapseLexemes (j.toLexemes ++ ls) =
      (j.collapsed.toLexemes ++ (collapseLexemes ls).1,
        j.unitVariants + (collapseLexemes ls).2) := by
  match j with
  | .null | .bool _ | .number _ | .string _ =>
      rw [toLexemes, List.singleton_append, collapseLexemes_cons (by simp)]
      simp [collapsed, toLexemes, unitVariants]
  | .array [] =>
      rw [toLexemes, List.cons_append, List.singleton_append, collapseLexemes_cons (by simp),
        collapseLexemes_cons (by simp), unitVariants, unitVariantsItems, Nat.zero_add]
      rfl
  | .array (j :: js) =>
      rw [toLexemes, List.cons_append, List.append_assoc, collapseLexemes_cons (by simp),
        collapseLexemes_toLexemes j, collapseLexemes_itemsTail js, collapsed, collapsedItems,
        toLexemes, unitVariants, unitVariantsItems, List.cons_append, List.append_assoc,
        Nat.add_assoc]
  | .object [] =>
      rw [toLexemes, List.cons_append, List.singleton_append, collapseLexemes,
        collapseLexemes_cons (by simp), unitVariants]
      · simp [unitVariant?, unitVariantsMembers, collapsed, collapsedMembers, toLexemes]
      · simp
  | .object ((k, v) :: ms) =>
      -- a unit variant goes at once, of any other object only the brace
      cases hu : unitVariant? ((k, v) :: ms) with
      | some k' =>
          cases eq_of_unitVariant? hu
          simp [toLexemes, membersTail, collapsed, unitVariants, unitVariant?, collapseLexemes,
            Nat.add_comm]
      | none =>
          rw [toLexemes, List.cons_append, List.cons_append, List.cons_append,
            List.append_assoc, collapseLexemes_braceOpen hu, collapseLexemes_toLexemes v,
            collapseLexemes_membersTail ms, collapsed, hu, Option.elim_none, collapsedMembers,
            toLexemes, unitVariants, hu, unitVariantsMembers]
          simp [Nat.add_assoc]

theorem collapseLexemes_itemsTail (js : List Json) (ls : List Lexeme) :
    collapseLexemes (itemsTail js ++ ls) =
      (itemsTail (collapsedItems js) ++ (collapseLexemes ls).1,
        unitVariantsItems js + (collapseLexemes ls).2) := by
  match js with
  | [] =>
      rw [itemsTail, List.singleton_append, collapseLexemes_cons (by simp), unitVariantsItems,
        Nat.zero_add]
      rfl
  | j :: js =>
      rw [itemsTail, List.cons_append, List.append_assoc, collapseLexemes_cons (by simp),
        collapseLexemes_toLexemes j, collapseLexemes_itemsTail js, collapsedItems, itemsTail,
        unitVariantsItems, List.cons_append, List.append_assoc, Nat.add_assoc]

theorem collapseLexemes_membersTail (ms : List (Text × Json)) (ls : List Lexeme) :
    collapseLexemes (membersTail ms ++ ls) =
      (membersTail (collapsedMembers ms) ++ (collapseLexemes ls).1,
        unitVariantsMembers ms + (collapseLexemes ls).2) := by
  match ms with
  | [] =>
      rw [membersTail, List.singleton_append, collapseLexemes_cons (by simp),
        unitVariantsMembers, Nat.zero_add]
      rfl
  | (k, v) :: ms =>
      rw [membersTail, List.cons_append, List.cons_append, List.cons_append, List.append_assoc,
        collapseLexemes_cons (by simp), collapseLexemes_cons (by simp),
        collapseLexemes_cons (by simp), collapseLexemes_toLexemes v,
        collapseLexemes_membersTail ms, collapsedMembers, membersTail, unitVariantsMembers]
      simp [Nat.add_assoc]

end

/-! ### Literal lexemes -/

/-- A string as the lexemes of what it stands for. -/
def literalLexemes : Lexeme → List Lexeme
  | .string t => t.literalJson.toLexemes
  | l => [l]

/-- A key that is not converted stays a string. -/
theorem literalLexemes_key {k : Text} (h : ¬k.isConverted) :
    literalLexemes (.string k) = [.string k.fixedCasing] := by
  rw [literalLexemes, Text.literalJson_eq_string h, toLexemes]

mutual

/-- **Strings become literals** lexeme by lexeme, if no key is converted. -/
theorem toLexemes_normalized (j : Json) (h : ∀ k ∈ j.objectKeys, ¬k.isConverted) :
    j.normalized.toLexemes = j.collapsed.toLexemes.flatMap literalLexemes := by
  match j with
  | .null | .bool _ | .number _ => rfl
  | .string t => simp [normalized, collapsed, toLexemes, literalLexemes]
  | .array [] => rfl
  | .array (j :: js) =>
      rw [objectKeys, objectKeysItems, List.forall_mem_append] at h
      rw [normalized, normalizedItems, toLexemes, toLexemes_normalized j h.1,
        itemsTail_normalized js h.2, collapsed, collapsedItems, toLexemes]
      simp [literalLexemes]
  | .object [] => rfl
  | .object ((k, v) :: ms) =>
      rw [normalized, collapsed]
      cases hu : unitVariant? ((k, v) :: ms) with
      | some k' => simp [toLexemes, literalLexemes]
      | none =>
          rw [objectKeys, hu, if_neg (by simp), objectKeysMembers, List.forall_mem_cons,
            List.forall_mem_append] at h
          rw [Option.elim_none, Option.elim_none, normalizedMembers, toLexemes,
            toLexemes_normalized v h.2.1, membersTail_normalized ms h.2.2, collapsedMembers,
            toLexemes, List.flatMap_cons, List.flatMap_cons, literalLexemes_key h.1]
          simp [literalLexemes]

theorem itemsTail_normalized (js : List Json)
    (h : ∀ k ∈ objectKeysItems js, ¬k.isConverted) :
    itemsTail (normalizedItems js) = (itemsTail (collapsedItems js)).flatMap literalLexemes := by
  match js with
  | [] => rfl
  | j :: js =>
      rw [objectKeysItems, List.forall_mem_append] at h
      rw [normalizedItems, itemsTail, toLexemes_normalized j h.1, itemsTail_normalized js h.2,
        collapsedItems, itemsTail]
      simp [literalLexemes]

theorem membersTail_normalized (ms : List (Text × Json))
    (h : ∀ k ∈ objectKeysMembers ms, ¬k.isConverted) :
    membersTail (normalizedMembers ms) =
      (membersTail (collapsedMembers ms)).flatMap literalLexemes := by
  match ms with
  | [] => rfl
  | (k, v) :: ms =>
      rw [objectKeysMembers, List.forall_mem_cons, List.forall_mem_append] at h
      rw [normalizedMembers, membersTail, toLexemes_normalized v h.2.1,
        membersTail_normalized ms h.2.2, collapsedMembers, membersTail, List.flatMap_cons,
        List.flatMap_cons, literalLexemes_key h.1]
      simp [literalLexemes]

end

/-! ### Keys -/

mutual

/-- A key stands before a colon. -/
theorem infix_of_mem_objectKeys (j : Json) {k : Text} (h : k ∈ j.objectKeys) :
    [.string k, .colon] <:+: j.collapsed.toLexemes := by
  match j with
  | .null | .bool _ | .number _ | .string _ => simp [objectKeys] at h
  | .array [] => simp [objectKeys, objectKeysItems] at h
  | .array (j :: js) =>
      rw [objectKeys, objectKeysItems, List.mem_append] at h
      rw [collapsed, collapsedItems, toLexemes]
      refine List.IsInfix.trans ?_ (List.suffix_cons _ _).isInfix
      rcases h with h | h
      · exact (infix_of_mem_objectKeys j h).trans (List.prefix_append _ _).isInfix
      · exact (infix_of_mem_objectKeysItems js h).trans (List.suffix_append _ _).isInfix
  | .object [] => simp [objectKeys, unitVariant?, objectKeysMembers] at h
  | .object ((k', v) :: ms) =>
      rw [objectKeys] at h
      rw [collapsed]
      cases hu : unitVariant? ((k', v) :: ms) with
      | some k' => simp [hu] at h
      | none =>
          rw [hu, if_neg (by simp)] at h
          have htail := infix_of_mem_objectKeysMembers ((k', v) :: ms) h
          rw [collapsedMembers, membersTail] at htail
          rw [Option.elim_none, collapsedMembers, toLexemes]
          obtain ⟨as, bs, has⟩ := htail
          cases as with
          | nil => simp at has
          | cons a as =>
              rw [List.cons_append, List.cons_append, List.cons.injEq] at has
              exact ⟨.braceOpen :: as, bs, by rw [List.cons_append, List.cons_append, has.2]⟩

theorem infix_of_mem_objectKeysItems (js : List Json) {k : Text} (h : k ∈ objectKeysItems js) :
    [.string k, .colon] <:+: itemsTail (collapsedItems js) := by
  match js with
  | [] => simp [objectKeysItems] at h
  | j :: js =>
      rw [objectKeysItems, List.mem_append] at h
      rw [collapsedItems, itemsTail]
      refine List.IsInfix.trans ?_ (List.suffix_cons _ _).isInfix
      rcases h with h | h
      · exact (infix_of_mem_objectKeys j h).trans (List.prefix_append _ _).isInfix
      · exact (infix_of_mem_objectKeysItems js h).trans (List.suffix_append _ _).isInfix

theorem infix_of_mem_objectKeysMembers (ms : List (Text × Json)) {k : Text}
    (h : k ∈ objectKeysMembers ms) :
    [.string k, .colon] <:+: membersTail (collapsedMembers ms) := by
  match ms with
  | [] => simp [objectKeysMembers] at h
  | (k', v) :: ms =>
      rw [objectKeysMembers, List.mem_cons, List.mem_append] at h
      rw [collapsedMembers, membersTail]
      rcases h with rfl | h | h
      · exact ⟨[.comma], _, rfl⟩
      · exact ((infix_of_mem_objectKeys v h).trans (List.prefix_append _ _).isInfix).trans
          (List.suffix_append [_, _, _] _).isInfix
      · exact ((infix_of_mem_objectKeysMembers ms h).trans
          (List.suffix_append _ _).isInfix).trans (List.suffix_append [_, _, _] _).isInfix

end

/-- An array ends with its bracket. -/
theorem exists_toLexemes_array (js : List Json) :
    ∃ ls, (Json.array js).toLexemes = ls ++ [.bracketClose] := by
  rcases List.eq_nil_or_concat js with rfl | ⟨js, j, rfl⟩
  · exact ⟨[.bracketOpen], rfl⟩
  · rw [List.concat_eq_append, Reading.toLexemes_array_append, ← List.append_assoc,
      ← List.cons_append]
    exact ⟨_, rfl⟩

/-- What a converted text stands for does not end with a string. -/
theorem exists_toLexemes_of_isConverted {t : Text} (h : t.isConverted) :
    ∃ ls l, t.literalJson.toLexemes = ls ++ [l] ∧ ¬l.isString := by
  rcases Text.literalJson_of_isConverted h with ⟨n, hn⟩ | ⟨js, hjs⟩
  · exact ⟨[], .number n, by rw [hn]; rfl, by simp [Lexeme.isString]⟩
  · obtain ⟨ls, hls⟩ := exists_toLexemes_array js
    exact ⟨ls, .bracketClose, by rw [hjs, hls], by simp [Lexeme.isString]⟩

/-- **A converted key** stands before a colon, where json wants a string. -/
theorem not_isChain_of_isConverted {ls : List Lexeme} {k : Text}
    (hk : [.string k, .colon] <:+: ls) (h : k.isConverted) :
    ¬(ls.flatMap literalLexemes).IsChain Lexeme.MayFollow := by
  obtain ⟨as, bs, rfl⟩ := hk
  obtain ⟨cs, l, hl, hstring⟩ := exists_toLexemes_of_isConverted h
  intro hchain
  have hpair : [l, .colon] <:+:
      (as ++ [Lexeme.string k, Lexeme.colon] ++ bs).flatMap literalLexemes :=
    ⟨as.flatMap literalLexemes ++ cs, bs.flatMap literalLexemes, by
      simp [literalLexemes, hl]⟩
  have hfollow := List.IsChain.infix hchain hpair
  exact hstring ((List.isChain_pair.mp hfollow).2 rfl)

/-! ### Strings -/

mutual

/-- Collapsing loses no strings. -/
theorem filterMap_string?_collapsed (j : Json) :
    j.collapsed.toLexemes.filterMap Lexeme.string? = j.strings := by
  match j with
  | .null | .bool _ | .number _ | .string _ => rfl
  | .array [] => rfl
  | .array (j :: js) =>
      rw [collapsed, collapsedItems, toLexemes, strings, stringsItems,
        ← filterMap_string?_collapsed j, ← filterMap_string?_collapsedItems js,
        ← List.filterMap_append]
      rfl
  | .object [] => rfl
  | .object ((k, v) :: ms) =>
      rw [collapsed]
      cases hu : unitVariant? ((k, v) :: ms) with
      | some k' =>
          cases eq_of_unitVariant? hu
          rfl
      | none =>
          rw [Option.elim_none, collapsedMembers, toLexemes, strings, stringsMembers,
            ← filterMap_string?_collapsed v, ← filterMap_string?_collapsedMembers ms,
            ← List.filterMap_append]
          rfl

theorem filterMap_string?_collapsedItems (js : List Json) :
    (itemsTail (collapsedItems js)).filterMap Lexeme.string? = stringsItems js := by
  match js with
  | [] => rfl
  | j :: js =>
      rw [collapsedItems, itemsTail, stringsItems, ← filterMap_string?_collapsed j,
        ← filterMap_string?_collapsedItems js, ← List.filterMap_append]
      rfl

theorem filterMap_string?_collapsedMembers (ms : List (Text × Json)) :
    (membersTail (collapsedMembers ms)).filterMap Lexeme.string? = stringsMembers ms := by
  match ms with
  | [] => rfl
  | (k, v) :: ms =>
      rw [collapsedMembers, membersTail, stringsMembers, ← filterMap_string?_collapsed v,
        ← filterMap_string?_collapsedMembers ms, ← List.filterMap_append]
      rfl

end

end Json

end MarketRegistry
