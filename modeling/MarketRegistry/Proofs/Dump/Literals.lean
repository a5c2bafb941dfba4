import MarketRegistry.Dump.Literal
import MarketRegistry.Proofs.Json.Proper

/-!
# The json of literals

A literal is rendered as the json text of a value: an integer, an array of bytes or a string.
An integer is a word, so that it stands for itself only where no word goes on before or after
it; the other literals stand for themselves anywhere.

## Main results

* `Literal.json` — the value that a literal is rendered as.
* `Literal.lexemes_render` — the lexemes of a rendered literal are those of its value.
* `Literal.closed_render` — a rendered literal that is no integer stands on its own.
-/

namespace MarketRegistry

/-! ### Casing -/

theorem mem_fixMinutes {cs : List Char} {c : Char} (h : c ∈ fixMinutes cs) :
    c ∈ cs ∨ c = 'm' := by
  fun_induction fixMinutes cs with
  | case1 cs ih =>
      simp only [List.mem_cons] at h ⊢
      rcases h with h | h | h | h | h
      · exact .inl (.inl h)
      · exact .inr h
      · exact .inl (.inr (.inr (.inl h)))
      · exact .inl (.inr (.inr (.inr (.inl h))))
      · exact (ih h).imp (fun h => .inr (.inr (.inr (.inr h)))) id
  | case2 d cs _ ih =>
      rcases List.mem_cons.mp h with rfl | h
      · exact .inl List.mem_cons_self
      · exact (ih h).imp (List.mem_cons_of_mem d) id
  | case3 => simp at h

theorem mem_fixHours {cs : List Char} {c : Char} (h : c ∈ fixHours cs) : c ∈ cs ∨ c = 'h' := by
  fun_induction fixHours cs with
  | case1 cs ih =>
      simp only [List.mem_cons] at h ⊢
      rcases h with h | h | h | h
      · exact .inl (.inl h)
      · exact .inl (.inr (.inl h))
      · exact .inr h
      · exact (ih h).imp (fun h => .inr (.inr (.inr h))) id
  | case2 d cs _ ih =>
      rcases List.mem_cons.mp h with rfl | h
      · exact .inl List.mem_cons_self
      · exact (ih h).imp (List.mem_cons_of_mem d) id
  | case3 => simp at h

/-- The casing fixes bring in small letters only. -/
theorem mem_fixCasing {cs : List Char} {c : Char} (h : c ∈ fixCasing cs) :
    c ∈ cs ∨ c = 'm' ∨ c = 'h' := by
  rcases mem_fixHours h with h | h
  · exact (mem_fixMinutes h).imp id .inl
  · exact .inr (.inr h)

/-- **The casing fixes** keep plain texts plain. -/
theorem isPlain_fixCasing {cs : List Char} (h : ∀ c ∈ cs, isPlain c) :
    ∀ c ∈ fixCasing cs, isPlain c := by
  intro c hc
  rcases mem_fixCasing hc with hc | rfl | rfl
  · exact h c hc
  · decide
  · decide

/-! ### Integers -/

theorem Literal.isInt128_of_classify {cs : List Char} {i : Int}
    (h : classify cs = .integer i) : isInt128 i := by
  rw [classify] at h
  split at h
  · rename_i j hj
    cases h
    rw [integer?] at hj
    split at hj
    · exact (Option.filter_eq_some_iff.mp hj).2
    · simp at hj
  · split at h <;> cases h

/-- The integers of 128 bits, as an interval. -/
theorem isInt128_iff {i : Int} : isInt128 i ↔ -2 ^ 127 ≤ i ∧ i < 2 ^ 127 := by
  have hpow : (Nat.pow 2 127 : Int) = 2 ^ 127 := by decide
  rw [isInt128, hpow, Bool.and_eq_true, decide_eq_true_eq, decide_eq_true_eq,
    Int.le_sub_one_iff]

/-- An integer of 128 bits is short enough for json. -/
theorem natAbs_lt_of_isInt128 {i : Int} (h : isInt128 i) :
    i.natAbs < 10 ^ Number.maxIntegerDigits := by
  have hbounds := isInt128_iff.mp h
  have hsmall : i.natAbs < 10 ^ 39 := by omega
  exact Nat.lt_of_lt_of_le hsmall (Nat.pow_le_pow_right (by decide) (by decide))

/-! ### Bytes -/

theorem decimal_toNat (b : UInt8) : Numeral.decimal b.toNat = Numeral.signedDecimal b.toNat := by
  simp [Numeral.signedDecimal]

theorem natAbs_byte_lt (b : UInt8) : (b.toNat : Int).natAbs < 10 ^ Number.maxIntegerDigits := by
  have hb := b.toNat_lt
  exact natAbs_lt_of_isInt128 (isInt128_iff.mpr (by omega))

/-- A piece of digits ends with a word. -/
theorem run_start_number {cs : List Char} {n : Number} (h : Number.ofChars? cs = some n) :
    Lexing.start.run cs = ⟨[], .word cs.reverse⟩ := by
  have hne : cs ≠ [] := by
    rintro rfl
    obtain ⟨d, ds, hcs, -⟩ := Number.unsigned_eq_cons h
    cases hcs
  exact Lexing.run_between_word hne fun c hc =>
    Number.isWordChar_of_isNumberChar (Number.isNumberChar_of_mem h c hc)

/-- Nothing that follows a byte goes on with its digits. -/
theorem cuts_byte (b : UInt8) (bytes : List UInt8) :
    Cuts (Numeral.decimal b.toNat)
      (bytes.flatMap (fun b => ',' :: Numeral.decimal b.toNat) ++ [']']) := by
  rw [decimal_toNat]
  refine .inr ⟨⟨_, by rw [run_start_number (Number.ofChars?_signedDecimal (natAbs_byte_lt b))]⟩,
    fun d hd => ?_⟩
  cases bytes with
  | nil =>
      obtain rfl : ']' = d := by simpa using hd
      decide
  | cons b' bytes =>
      obtain rfl : ',' = d := by simpa using hd
      decide

/-- The lexeme of a byte. -/
theorem lexemes_byte (b : UInt8) :
    lexemes (Numeral.decimal b.toNat) = [.number (.int b.toNat)] := by
  rw [decimal_toNat, lexemes_signedDecimal (natAbs_byte_lt b)]

/-- Bytes after the first of an array. -/
theorem lexemes_bytes_tail (bytes : List UInt8) :
    lexemes (bytes.flatMap (fun b => ',' :: Numeral.decimal b.toNat) ++ [']']) =
      Json.itemsTail (Json.ofBytes bytes) := by
  induction bytes with
  | nil =>
      rw [List.flatMap_nil, List.nil_append, lexemes_mark_cons rfl]
      rfl
  | cons b bytes ih =>
      rw [List.flatMap_cons, List.append_assoc, List.cons_append, lexemes_mark_cons rfl,
        lexemes_append (cuts_byte b bytes), ih, lexemes_byte]
      rfl

theorem intercalate_comma (b : UInt8) (bytes : List UInt8) :
    [','].intercalate ((b :: bytes).map fun b => Numeral.decimal b.toNat) =
      Numeral.decimal b.toNat ++
        bytes.flatMap fun b => ',' :: Numeral.decimal b.toNat := by
  induction bytes generalizing b with
  | nil => simp [List.intercalate]
  | cons b' bytes ih =>
      have h := ih b'
      rw [List.map_cons] at h
      rw [List.map_cons, List.map_cons, List.intercalate_cons_cons, h, List.flatMap_cons,
        List.append_assoc]
      rfl

/-- Rendered bytes hold no quotes. -/
theorem ne_quote_of_mem_bytes {bytes : List UInt8} {c : Char}
    (h : c ∈ [','].intercalate (bytes.map fun b => Numeral.decimal b.toNat)) : c ≠ '"' := by
  have hdigits : ∀ b : UInt8, '"' ∉ Numeral.decimal b.toNat := by
    intro b hq
    exact absurd (Numeral.isDecimalDigit_of_mem_decimal hq) (by decide)
  rintro rfl
  cases bytes with
  | nil => simp [List.intercalate] at h
  | cons b bytes =>
      rw [intercalate_comma, List.mem_append, List.mem_flatMap] at h
      rcases h with h | ⟨b', -, h⟩
      · exact hdigits b h
      · exact hdigits b' (List.mem_of_ne_of_mem (by decide) h)

/-- The lexemes of rendered bytes. -/
theorem lexemes_renderBytes (bytes : List UInt8) :
    lexemes (Literal.renderBytes bytes) = (Json.array (Json.ofBytes bytes)).toLexemes := by
  cases bytes with
  | nil => decide
  | cons b bytes =>
      rw [Literal.renderBytes, intercalate_comma, List.cons_append, lexemes_mark_cons rfl,
        List.append_assoc, lexemes_append (cuts_byte b bytes), lexemes_bytes_tail, lexemes_byte]
      rfl

/-! ### Rendered literals -/

namespace Literal

/-- The **value of a literal**. -/
def json : Literal → Json
  | integer i => .number (.int i)
  | key a => .array (Json.ofBytes a.bytes)
  | text cs => .string (Text.ofChars cs)

/-- A literal is **sound** when its text is json: its integers are short and its texts plain. -/
def Sound : Literal → Prop
  | integer i => isInt128 i
  | key _ => True
  | text cs => ∀ c ∈ cs, isPlain c

theorem eq_fixCasing_of_classify {cs ds : List Char} (h : classify cs = .text ds) :
    ds = fixCasing cs := by
  rw [classify] at h
  split at h
  · cases h
  · split at h <;> cases h
    rfl

/-- Plain texts have sound literals. -/
theorem sound_classify {cs : List Char} (h : ∀ c ∈ cs, isPlain c) : (classify cs).Sound := by
  cases hl : classify cs with
  | integer i => exact isInt128_of_classify hl
  | key a => trivial
  | text ds =>
      rw [eq_fixCasing_of_classify hl]
      exact isPlain_fixCasing h

/-- Integers and addresses are sound whatever they are read from. -/
theorem sound_of_isConverted {cs : List Char} (h : (classify cs).isConverted) :
    (classify cs).Sound := by
  cases hl : classify cs with
  | integer i => exact isInt128_of_classify hl
  | key a => trivial
  | text ds => simp [hl, isConverted] at h

/-- **The lexemes of a rendered literal** are those of its value. -/
theorem lexemes_render {l : Literal} (h : l.Sound) : lexemes l.render = l.json.toLexemes := by
  cases l with
  | integer i => exact lexemes_signedDecimal (natAbs_lt_of_isInt128 h)
  | key a => exact lexemes_renderBytes a.bytes
  | text cs => exact lexemes_quoted h

/-- A rendered literal that is no integer is closed. -/
theorem closed_render {l : Literal} (h : l.Sound) (hint : ∀ i, l ≠ integer i) :
    Closed l.render := by
  cases l with
  | integer i => exact absurd rfl (hint i)
  | key a => exact closed_marks rfl rfl fun c hc => ne_quote_of_mem_bytes hc
  | text cs => exact closed_quoted h

end Literal

end MarketRegistry
