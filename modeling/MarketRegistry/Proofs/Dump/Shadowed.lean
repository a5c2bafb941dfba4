import MarketRegistry.Proofs.Dump.Classified
import MarketRegistry.Proofs.Format.Plain
import MarketRegistry.Proofs.Json.Distinct

/-!
# Shadowed addresses

Integers come before addresses in the classification, so that an address whose text looks like
an integer is shadowed. It takes 32 characters that are all hexadecimal digits: more characters
write a number too large for 128 bits, since base 58 has no digit zero to begin with, and fewer
there are not. Of 32 characters at least 29 are leading ones, one for each zero byte, so that
what a shadowed address is read as fits. All other addresses stand for themselves, and what they
are rendered as is decoded to them.

## Main results

* `Address.classify_toText_of_isShadowed` — a shadowed address is an integer.
* `Address.parse_render_key` — a rendered address is decoded to itself.
* `Address.classify_toText_exact` — what the text of any address is classified as.
-/

namespace MarketRegistry

namespace Address

variable {a : Address}

/-- **A shadowed address** is the integer that its text writes, and begins with 29 zeros. -/
theorem classify_toText_of_isShadowed (h : a.isShadowed) :
    (∃ n : Nat, Numeral.WritesHex n a.toText ∧ Literal.classify a.toText = .integer n) ∧
      a.bytes.take 29 = List.replicate 29 0 := by
  simp only [isShadowed, Bool.and_eq_true, beq_iff_eq, List.all_eq_true] at h
  obtain ⟨hlength, hdigits⟩ := h
  obtain ⟨k, rest, digits, hk, hbytes, htext⟩ := exists_zeros_of_length_toText hlength
  obtain ⟨k, rfl⟩ := Nat.exists_eq_add_of_le' (show 1 ≤ k by omega)
  rw [List.replicate_succ, List.cons_append] at htext
  have hne : a.toText ≠ [] := htext ▸ List.cons_ne_nil _ _
  obtain ⟨n, hn⟩ := Numeral.exists_writesHex hne hdigits
  -- the leading one is the digit 1 in hexadecimal as well, so the number stays below `2 ^ 127`
  have hsmall : n < 2 * 16 ^ 31 := by
    have hcons := htext ▸ hn
    have htail := htext ▸ hlength
    rw [List.length_cons] at htail
    have hlt := hcons.lt_of_cons (d := 1) (by decide)
    rwa [show (List.replicate k '1' ++ digits).length = 31 by omega] at hlt
  have hinteger : IsIntegerText n a.toText :=
    ⟨.inr ⟨n, hn, hlength ▸ by decide, rfl⟩, by omega, by omega⟩
  refine ⟨⟨n, hn, ?_⟩, ?_⟩
  · rw [Literal.classify_eq_integer_iff, integer?_eq_some_iff_isIntegerText]
    exact hinteger
  · rw [hbytes, List.take_append_of_le_length (by rw [List.length_replicate]; omega),
      List.take_replicate, Nat.min_eq_left hk]

/-- **A rendered address** is read as the array of its bytes. -/
theorem parse_render_key (a : Address) :
    Json.parse (Literal.key a).render = .ok (.array (Json.ofBytes a.bytes)) := by
  have hread : Json.read (Literal.key a).render = .ok (Literal.key a).json := by
    rw [Json.read, Literal.lexemes_render (l := .key a) trivial]
    exact Json.ofLexemes_eq_ok_iff.mpr rfl
  have hdistinct : (Literal.key a).json.Distinct := by
    refine Json.distinctItems_iff.mpr fun j hj => ?_
    obtain ⟨b, -, rfl⟩ := List.mem_map.mp hj
    trivial
  rw [Json.parse, hread]
  exact congrArg Except.ok (Json.lastWins_of_distinct _ hdistinct)

/-- **The text of an address** has 32 to 44 characters. It stands for the address, and is
rendered as an array that is decoded to it, unless it is shadowed and so stands for the integer
that it writes. It is never text, and only of 32 characters is it ever an integer. -/
theorem classify_toText_exact (a : Address) :
    (32 ≤ a.toText.length ∧ a.toText.length ≤ 44) ∧
      (¬a.isShadowed → Literal.classify a.toText = .key a ∧
        ∃ j, Json.parse (Literal.classify a.toText).render = .ok j ∧
          ∀ path, decodeAddress path j = .ok a) ∧
      (a.isShadowed →
        (∃ n : Nat, Numeral.WritesHex n a.toText ∧ Literal.classify a.toText = .integer n) ∧
          a.bytes.take 29 = List.replicate 29 0) ∧
      (∀ cs, Literal.classify a.toText ≠ .text cs) ∧
      (32 < a.toText.length → ∀ i, Literal.classify a.toText ≠ .integer i) := by
  refine ⟨a.length_toText, fun h => ?_, classify_toText_of_isShadowed, fun cs hcs => ?_,
    fun hlong i hi => ?_⟩
  · rw [classify_toText h]
    exact ⟨rfl, _, parse_render_key a, fun path => decodeAddress_eq_ok_iff.mpr rfl⟩
  · by_cases h : a.isShadowed
    · obtain ⟨⟨n, -, hn⟩, -⟩ := classify_toText_of_isShadowed h
      cases hn.symm.trans hcs
    · cases (classify_toText h).symm.trans hcs
  · have h : ¬a.isShadowed := by
      rw [isShadowed, Bool.and_eq_true, beq_iff_eq]
      omega
    cases (classify_toText h).symm.trans hi

/-- The zero address is shadowed: its text is a number of 32 ones. -/
example : zero.isShadowed := by decide +kernel

end Address

end MarketRegistry
