/-!
# Code points

A json string may name half of a surrogate pair on its own, which is no character. A decoded
string is therefore a list of code points: characters and lone halves.

## Main definitions

* `CodePoint` — a character, or a lone high or low half.
* `CodePoint.value` — its number, which also orders code points.
* `CodePoint.join` — the character that two halves name together.
* `Text` — a decoded string, with `Text.ofChars` and its partial inverse `Text.toChars?`.
-/

namespace MarketRegistry

/-- A **code point**: a character, or one half of a surrogate pair standing alone. -/
inductive CodePoint where
  | scalar (c : Char)
  | high (unit : Fin 1024)
  | low (unit : Fin 1024)
  deriving DecidableEq, Repr

namespace CodePoint

/-- The number of a code point. The halves fill the gap between D800 and DFFF. -/
def value : CodePoint → Nat
  | scalar c => c.toNat
  | high u => 0xD800 + u.val
  | low u => 0xDC00 + u.val

/-- The code point of a 16-bit code unit; a larger number wraps. -/
def ofUnit (n : Nat) : CodePoint :=
  let n := n % 0x10000
  if n < 0xD800 then scalar (Char.ofNat n)
  else if n < 0xDC00 then high (Fin.ofNat 1024 n)
  else if n < 0xE000 then low (Fin.ofNat 1024 n)
  else scalar (Char.ofNat n)

/-- The character that a high half followed by a low half stands for. -/
def join (h l : Fin 1024) : Char :=
  Char.ofNat (0x10000 + h.val * 1024 + l.val)

end CodePoint

/-- A **text** decoded from json. -/
abbrev Text := List CodePoint

namespace Text

/-- A list of characters as a text. -/
def ofChars (cs : List Char) : Text :=
  cs.map .scalar

/-- The text of a string. -/
def ofString (s : String) : Text :=
  ofChars s.toList

/-- The characters of a text that holds no lone half. -/
def toChars? : Text → Option (List Char)
  | [] => some []
  | .scalar c :: t => (toChars? t).map (c :: ·)
  | _ :: _ => none

theorem toChars?_ofChars (cs : List Char) : toChars? (ofChars cs) = some cs := by
  induction cs with
  | nil => rfl
  | cons c cs ih =>
    change (toChars? (ofChars cs)).map (c :: ·) = some (c :: cs)
    rw [ih]
    rfl

/-- Code point order: texts compare at their first difference, and a text comes before its
extensions. -/
def le : Text → Text → Bool
  | [], _ => true
  | _ :: _, [] => false
  | a :: s, b :: t => a.value < b.value || (a.value == b.value && le s t)

/-- A text put into a list in code point order, before the first text that is not smaller. -/
def insertSorted (t : Text) : List Text → List Text
  | [] => [t]
  | s :: rest => if le t s then t :: s :: rest else s :: insertSorted t rest

/-- A list of texts in code point order. -/
def sorted (ts : List Text) : List Text :=
  ts.foldr insertSorted []

end Text

end MarketRegistry
