/-!
# White space

The white space of a dump is the Unicode class: it separates tokens, may follow an address
and is dropped at the end of a market name. It is wider than the four characters that json
allows between its lexemes (`isJsonSpace`).

## Main definitions

* `isBlank` — membership in the class.
* `trimEnd` — a text without the white space at its end.
-/

namespace MarketRegistry

/-- A character is **blank** when it is Unicode white space: the ASCII controls 9 to 13 and
28 to 31, the space, and the spaces and separators beyond ASCII. Characters of zero width
(200B, FEFF) are not blank. -/
def isBlank (c : Char) : Bool :=
  let n := c.toNat
  (9 ≤ n && n ≤ 13) || (28 ≤ n && n ≤ 32) || n == 0x85 || n == 0xA0 || n == 0x1680 ||
    (0x2000 ≤ n && n ≤ 0x200A) || n == 0x2028 || n == 0x2029 || n == 0x202F || n == 0x205F ||
    n == 0x3000

/-- A text without the blanks at its end. -/
def trimEnd (cs : List Char) : List Char :=
  (cs.reverse.dropWhile isBlank).reverse

/-- What is trimmed is blank, and nothing else is lost. -/
theorem trimEnd_append_blanks (cs : List Char) :
    ∃ blanks, cs = trimEnd cs ++ blanks ∧ ∀ c ∈ blanks, isBlank c := by
  refine ⟨(cs.reverse.takeWhile isBlank).reverse, ?_, fun c hc => ?_⟩
  · rw [trimEnd, ← List.reverse_append, List.takeWhile_append_dropWhile, List.reverse_reverse]
  · rw [List.mem_reverse] at hc
    exact List.all_eq_true.mp List.all_takeWhile c hc

/-- White space at the end is dropped as a whole. -/
theorem trimEnd_append {cs blanks : List Char} (hblanks : ∀ c ∈ blanks, isBlank c) :
    trimEnd (cs ++ blanks) = trimEnd cs := by
  rw [trimEnd, trimEnd, List.reverse_append,
    List.dropWhile_append_of_pos fun c hc => hblanks c (List.mem_reverse.mp hc)]

/-- Nothing is trimmed off a text that does not end in white space. -/
theorem trimEnd_of_getLast? {cs : List Char} (h : ∀ c ∈ cs.getLast?, ¬isBlank c) :
    trimEnd cs = cs := by
  have hkeep : cs.reverse.dropWhile isBlank = cs.reverse := by
    cases hrev : cs.reverse with
    | nil => rfl
    | cons d ds =>
        refine List.dropWhile_cons_of_neg (h d ?_)
        rw [← List.head?_reverse, hrev]
        rfl
  rw [trimEnd, hkeep, List.reverse_reverse]

/-- What is left of a text does not end in white space. -/
theorem not_isBlank_of_getLast?_trimEnd {cs : List Char} {c : Char}
    (h : c ∈ (trimEnd cs).getLast?) : ¬isBlank c := by
  rw [trimEnd, List.getLast?_reverse] at h
  have hhead := List.head?_dropWhile_not isBlank cs.reverse
  rw [Option.mem_def.mp h] at hhead
  simpa using hhead

end MarketRegistry
