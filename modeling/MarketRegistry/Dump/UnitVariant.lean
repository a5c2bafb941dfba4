import MarketRegistry.Dump.Token

/-!
# Unit variants

A dump writes a variant without fields as an object of one member whose value is the empty
object. The whole shape stands for the name of the variant, so it collapses to its string
token.

## Main definitions

* `unitVariant?` — the shape at the start of a list of tokens.
* `collapse` — all shapes of a list of tokens collapsed, with their number.
-/

namespace MarketRegistry

/-- Tokens after the white space at their start. -/
def dropBlanks (ts : List Token) : List Token :=
  ts.dropWhile Token.isWhitespace

/-- What follows a given punctuation character at the start of a list of tokens. -/
def afterMark? (c : Char) : List Token → Option (List Token)
  | t :: ts => if t = .mark c then some ts else none
  | [] => none

/-- A string token at the start of a list of tokens, and what follows. -/
def string? : List Token → Option (Token × List Token)
  | t :: ts => if t.kind = .string then some (t, ts) else none
  | [] => none

/-- The **unit variant** at the start of a list of tokens: its string and what follows. The
shape is an object whose only member has the empty object for value; white space may stand
between its six elements, not before the first. -/
def unitVariant? (ts : List Token) : Option (Token × List Token) := do
  let ts ← afterMark? '\x7b' ts
  let (variant, ts) ← string? (dropBlanks ts)
  let ts ← afterMark? ':' (dropBlanks ts)
  let ts ← afterMark? '\x7b' (dropBlanks ts)
  let ts ← afterMark? '\x7d' (dropBlanks ts)
  let ts ← afterMark? '\x7d' (dropBlanks ts)
  return (variant, ts)

/-! ### Each element leaves less to read -/

theorem length_dropBlanks_le (ts : List Token) : (dropBlanks ts).length ≤ ts.length :=
  (List.dropWhile_sublist _).length_le

theorem length_of_afterMark? {c : Char} {ts rest : List Token} (h : afterMark? c ts = some rest) :
    rest.length < ts.length := by
  cases ts with
  | nil => simp [afterMark?] at h
  | cons t ts =>
    simp only [afterMark?] at h
    split at h
    · cases h
      exact Nat.lt_succ_self _
    · simp at h

theorem length_of_string? {ts rest : List Token} {t : Token} (h : string? ts = some (t, rest)) :
    rest.length < ts.length := by
  cases ts with
  | nil => simp [string?] at h
  | cons t ts =>
    simp only [string?] at h
    split at h
    · cases h
      exact Nat.lt_succ_self _
    · simp at h

theorem length_of_unitVariant? {ts rest : List Token} {t : Token}
    (h : unitVariant? ts = some (t, rest)) : rest.length < ts.length := by
  simp only [unitVariant?, Option.bind_eq_bind, Option.bind_eq_some_iff, Prod.exists] at h
  obtain ⟨t1, h1, v, t2, h2, t3, h3, t4, h4, t5, h5, t6, h6, h⟩ := h
  cases h
  have l1 := length_of_afterMark? h1
  have l2 := length_of_string? h2
  have l3 := length_of_afterMark? h3
  have l4 := length_of_afterMark? h4
  have l5 := length_of_afterMark? h5
  have l6 := length_of_afterMark? h6
  have b1 := length_dropBlanks_le t1
  have b2 := length_dropBlanks_le t2
  have b3 := length_dropBlanks_le t3
  have b4 := length_dropBlanks_le t4
  have b5 := length_dropBlanks_le t5
  omega

/-! ### Collapsing -/

/-- Tokens after an edit, with the number of places it changed. -/
structure Edited where
  tokens : List Token
  count : Nat
  deriving DecidableEq, Repr

/-- A list of tokens with every unit variant **collapsed** to its string. -/
def collapse (ts : List Token) : Edited :=
  match h : unitVariant? ts with
  | some (variant, rest) =>
    let r := collapse rest
    ⟨variant :: r.tokens, r.count + 1⟩
  | none =>
    match ts with
    | [] => ⟨[], 0⟩
    | t :: rest =>
      let r := collapse rest
      ⟨t :: r.tokens, r.count⟩
termination_by ts.length
decreasing_by
  · exact length_of_unitVariant? h
  · exact Nat.lt_succ_self _

end MarketRegistry
