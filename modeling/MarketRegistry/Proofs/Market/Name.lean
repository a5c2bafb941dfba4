import MarketRegistry.Market.Name
import MarketRegistry.Proofs.Format.Plain

/-!
# Names and their buffers

A name is limited in bytes and trimmed in characters, and the white space that is trimmed is a
wider class than the padding. So a name comes back from its buffer without the white space at
its end, and a buffer comes back from its name only when nothing but padding has been trimmed.

## Main definitions

* `IsStem` — a text cut in two in front of the white space at its end.
* `Name.IsUtf8` — bytes that are the UTF-8 form of a text.

## Main results

* `Name.ofUtf8?_eq_some_iff` — UTF-8 is read back, and nothing else is read.
* `Name.encode_eq_ok_iff`, `Name.decode_eq_ok_iff`, `Name.ofInts_eq_error_iff` — what the two
  directions do, and when they fail.
* `Name.buffers_round_trip` — names through buffers and buffers through names.
-/

namespace MarketRegistry

/-! ### White space at the end -/

/-- A text cut into its **stem** and all of the white space at its end. -/
structure IsStem (cs stem blanks : List Char) : Prop where
  eq_append : cs = stem ++ blanks
  isBlank_of_mem : ∀ c ∈ blanks, isBlank c
  not_isBlank_getLast? : ∀ c ∈ stem.getLast?, ¬isBlank c

theorem IsStem.trimEnd_eq {cs stem blanks : List Char} (h : IsStem cs stem blanks) :
    trimEnd cs = stem := by
  rw [h.eq_append, trimEnd_append h.isBlank_of_mem, trimEnd_of_getLast? h.not_isBlank_getLast?]

/-- **Trimming** leaves the stem of a text. -/
theorem exists_isStem_trimEnd (cs : List Char) : ∃ blanks, IsStem cs (trimEnd cs) blanks := by
  obtain ⟨blanks, hcs, hblanks⟩ := trimEnd_append_blanks cs
  exact ⟨blanks, hcs, hblanks, fun _ => not_isBlank_of_getLast?_trimEnd⟩

theorem trimEnd_eq_self_iff {cs : List Char} :
    trimEnd cs = cs ↔ ∀ c ∈ cs.getLast?, ¬isBlank c := by
  refine ⟨fun h c hc => ?_, trimEnd_of_getLast?⟩
  rw [← h] at hc
  exact not_isBlank_of_getLast?_trimEnd hc

namespace Name

variable {cs ds : List Char} {bytes : List UInt8}

/-! ### UTF-8 -/

/-- Bytes that are the **UTF-8 form** of a text. -/
def IsUtf8 (bytes : List UInt8) : Prop :=
  ∃ cs, bytes = utf8 cs

theorem utf8_append (cs ds : List Char) : utf8 (cs ++ ds) = utf8 cs ++ utf8 ds :=
  List.flatMap_append

/-- **UTF-8 is read back**, and nothing else is read. -/
theorem ofUtf8?_eq_some_iff : ofUtf8? bytes = some cs ↔ bytes = utf8 cs := by
  constructor
  · intro h
    obtain ⟨chars, hchars, rfl⟩ := Option.map_eq_some_iff.mp h
    have hsome : bytes.toByteArray.utf8Decode?.isSome := hchars ▸ rfl
    have hbytes := ByteArray.utf8Encode_get_utf8Decode? (h := hsome)
    simp only [hchars, Option.get_some] at hbytes
    exact (List.toByteArray_inj.mp hbytes).symm
  · rintro rfl
    have hdecode : (utf8 cs).toByteArray.utf8Decode? = some cs.toArray :=
      List.utf8Decode?_utf8Encode
    rw [ofUtf8?, hdecode]
    rfl

theorem ofUtf8?_eq_none_iff : ofUtf8? bytes = none ↔ ¬IsUtf8 bytes := by
  simp only [Option.eq_none_iff_forall_ne_some, ne_eq, ofUtf8?_eq_some_iff, IsUtf8, not_exists]

/-- Texts with one UTF-8 form are equal. -/
theorem utf8_inj : utf8 cs = utf8 ds ↔ cs = ds := by
  refine ⟨fun h => ?_, congrArg utf8⟩
  have hread := ofUtf8?_eq_some_iff.mpr h
  rw [ofUtf8?_eq_some_iff.mpr rfl] at hread
  exact Option.some.inj hread

/-- The padding is the UTF-8 form of spaces. -/
theorem utf8_replicate_space (n : Nat) : utf8 (List.replicate n ' ') = List.replicate n 32 := by
  induction n with
  | zero => rfl
  | succ n ih =>
      rw [List.replicate_succ, List.replicate_succ, ← ih]
      rfl

/-- Only spaces have the UTF-8 form of padding. -/
theorem utf8_eq_padding_iff {n : Nat} (hlen : (utf8 cs).length = n) :
    utf8 cs = List.replicate n 32 ↔ ∀ c ∈ cs, c = ' ' := by
  rw [← utf8_replicate_space, utf8_inj]
  constructor
  · rintro rfl c hc
    exact List.eq_of_mem_replicate hc
  · intro h
    have hcs : cs = List.replicate cs.length ' ' := List.eq_replicate_iff.mpr ⟨rfl, h⟩
    rw [hcs, utf8_replicate_space, List.length_replicate] at hlen
    rw [← hlen]
    exact hcs

/-! ### Both directions -/

/-- **A name is put into a buffer** when its UTF-8 form fits, with spaces behind it. -/
theorem encode_eq_ok_iff {buf : Buffer capacity} : encode cs = .ok buf ↔
    buf.bytes = utf8 cs ++ List.replicate (capacity - (utf8 cs).length) 32 := by
  rw [encode]
  split
  · rw [Except.ok.injEq]
    constructor
    · rintro rfl
      rfl
    · intro h
      obtain ⟨bytes, hlen⟩ := buf
      simp only [Buffer.mk.injEq]
      exact h.symm
  · rename_i hlong
    refine iff_of_false (by rintro ⟨⟩) fun h => ?_
    have hlen := congrArg List.length h
    rw [buf.length_bytes, List.length_append] at hlen
    omega

theorem encode_eq_error_iff {e : Failure} :
    encode cs = .error e ↔ e = .nameTooLong ∧ capacity < (utf8 cs).length := by
  rw [encode]
  split
  · exact iff_of_false (by rintro ⟨⟩) fun h => absurd h.2 (by omega)
  · rename_i hlong
    rw [Except.error.injEq, eq_comm]
    exact (and_iff_left (by omega)).symm

/-- **A buffer is read** when it is UTF-8, to the stem of its text. -/
theorem decode_eq_ok_iff : decode bytes = .ok ds ↔ ∃ cs, bytes = utf8 cs ∧ trimEnd cs = ds := by
  rw [decode]
  cases hread : ofUtf8? bytes with
  | none =>
      refine iff_of_false nofun ?_
      rintro ⟨cs, hcs, -⟩
      exact ofUtf8?_eq_none_iff.mp hread ⟨cs, hcs⟩
  | some cs =>
      obtain rfl := ofUtf8?_eq_some_iff.mp hread
      simp only [Except.ok.injEq, utf8_inj]
      exact ⟨fun h => ⟨cs, rfl, h⟩, fun ⟨_, hcs, h⟩ => hcs ▸ h⟩

theorem decode_eq_error_iff {e : ConfigError} :
    decode bytes = .error e ↔ e = .nameNotUtf8 ∧ ¬IsUtf8 bytes := by
  rw [decode, ← ofUtf8?_eq_none_iff]
  cases ofUtf8? bytes with
  | none => simp [eq_comm]
  | some cs => simp

/-- The values of bytes. -/
def values (bytes : List UInt8) : List Int :=
  bytes.map fun b => (b.toNat : Int)

/-- Bytes are read from their values. -/
theorem ofInts_values (bytes : List UInt8) : ofInts (values bytes) = decode bytes := by
  have hbytes : (values bytes).mapM byte? = some bytes := mapM_byte?_eq_some_iff.mpr rfl
  rw [ofInts, hbytes]

/-- **Integers are no name** when one of them is no byte, or when the bytes are not UTF-8. -/
theorem ofInts_eq_error_iff {ns : List Int} {e : ConfigError} :
    ofInts ns = .error e ↔ e = .nameNotUtf8 ∧
      ((∃ n ∈ ns, ¬(0 ≤ n ∧ n ≤ 255)) ∨ ∃ bytes, ns = values bytes ∧ ¬IsUtf8 bytes) := by
  rw [← mapM_byte?_eq_none_iff]
  cases hbytes : ns.mapM byte? with
  | none =>
      rw [ofInts, hbytes, Except.error.injEq, eq_comm]
      exact (and_iff_left (.inl rfl)).symm
  | some bytes =>
      obtain rfl : ns = values bytes := mapM_byte?_eq_some_iff.mp hbytes
      rw [ofInts_values, decode_eq_error_iff]
      refine and_congr_right fun _ => ⟨fun h => .inr ⟨bytes, rfl, h⟩, ?_⟩
      rintro (hnone | ⟨bytes', hvalues, h⟩)
      · cases hnone
      · have hbytes' : (values bytes').mapM byte? = some bytes' := mapM_byte?_eq_some_iff.mpr rfl
        rw [hvalues, hbytes'] at hbytes
        rwa [← Option.some.inj hbytes]

/-! ### Round trips -/

/-- A stem is no longer than its text. -/
theorem length_utf8_stem_le {stem blanks : List Char} (h : IsStem cs stem blanks) :
    (utf8 stem).length ≤ (utf8 cs).length := by
  rw [h.eq_append, utf8_append, List.length_append]
  exact Nat.le_add_right _ _

/-- A buffer is read to the stem of the name that it was made for. -/
theorem decode_of_encode {buf : Buffer capacity} (h : encode cs = .ok buf) :
    decode buf.bytes = .ok (trimEnd cs) := by
  have hspaces : ∀ c ∈ List.replicate (capacity - (utf8 cs).length) ' ', isBlank c := by
    intro c hc
    rw [List.eq_of_mem_replicate hc]
    rfl
  refine decode_eq_ok_iff.mpr ⟨cs ++ List.replicate (capacity - (utf8 cs).length) ' ', ?_, ?_⟩
  · rw [encode_eq_ok_iff.mp h, utf8_append, utf8_replicate_space]
  · exact trimEnd_append hspaces

/-- The stem of the text of a buffer is put into that buffer when only spaces are trimmed. -/
theorem encode_stem_iff {stem blanks : List Char} {buf : Buffer capacity}
    (hbuf : buf.bytes = utf8 cs) (h : IsStem cs stem blanks) :
    encode stem = .ok buf ↔ ∀ c ∈ blanks, c = ' ' := by
  have hlen := buf.length_bytes
  rw [hbuf, h.eq_append, utf8_append, List.length_append] at hlen
  rw [encode_eq_ok_iff, hbuf, h.eq_append, utf8_append, List.append_cancel_left_eq]
  exact utf8_eq_padding_iff (by omega)

/-- **Names through buffers, and buffers through names.** A name is put into a buffer unless its
UTF-8 form is longer than 32 bytes, and comes back from it without the white space at its end.
Integers are read as a name unless one of them is no byte or the bytes are not UTF-8. What a
buffer of UTF-8 is read to can always be put into a buffer again, which is read to the same, and
which is the first buffer exactly when nothing but spaces was trimmed. -/
theorem buffers_round_trip :
    (∀ name : List Char,
      (∀ e, encode name = .error e ↔ e = .nameTooLong ∧ 32 < (utf8 name).length) ∧
      ∀ buf, encode name = .ok buf → buf.bytes.length = 32 ∧
        (∃ stem blanks, IsStem name stem blanks ∧ ofInts (values buf.bytes) = .ok stem) ∧
        (ofInts (values buf.bytes) = .ok name ↔ ∀ c ∈ name.getLast?, ¬isBlank c)) ∧
    (∀ (ns : List Int) (e : ConfigError), ofInts ns = .error e ↔ e = .nameNotUtf8 ∧
      ((∃ n ∈ ns, ¬(0 ≤ n ∧ n ≤ 255)) ∨ ∃ bytes, ns = values bytes ∧ ¬IsUtf8 bytes)) ∧
    ∀ (buf : Buffer capacity) (text : List Char), buf.bytes = utf8 text →
      ∃ symbol blanks buf', IsStem text symbol blanks ∧
        ofInts (values buf.bytes) = .ok symbol ∧ encode symbol = .ok buf' ∧
        ofInts (values buf'.bytes) = .ok symbol ∧ (buf' = buf ↔ ∀ c ∈ blanks, c = ' ') := by
  refine ⟨fun name => ⟨fun e => encode_eq_error_iff, fun buf hbuf => ?_⟩,
    fun ns e => ofInts_eq_error_iff, fun buf text htext => ?_⟩
  · obtain ⟨blanks, hstem⟩ := exists_isStem_trimEnd name
    have hdecode := decode_of_encode hbuf
    rw [← ofInts_values] at hdecode
    refine ⟨buf.length_bytes, ⟨_, blanks, hstem, hdecode⟩, ?_⟩
    rw [hdecode, Except.ok.injEq, trimEnd_eq_self_iff]
  · obtain ⟨blanks, hstem⟩ := exists_isStem_trimEnd text
    have hfits : (utf8 (trimEnd text)).length ≤ capacity := by
      have hle := length_utf8_stem_le hstem
      rwa [← htext, buf.length_bytes] at hle
    obtain ⟨buf', hbuf'⟩ : ∃ buf', encode (trimEnd text) = .ok buf' := by
      rw [encode, dif_pos hfits]
      exact ⟨_, rfl⟩
    refine ⟨trimEnd text, blanks, buf', hstem, ?_, hbuf', ?_, ?_⟩
    · rw [ofInts_values]
      exact decode_eq_ok_iff.mpr ⟨text, htext, rfl⟩
    · rw [ofInts_values, decode_of_encode hbuf',
        trimEnd_of_getLast? hstem.not_isBlank_getLast?]
    · rw [← encode_stem_iff htext hstem, hbuf', Except.ok.injEq]

/-- A name that ends in a blank of three bytes. -/
def wideBlankName : List Char :=
  "BTC\u3000".toList

/-- The buffer of that name. -/
def wideBlankBuffer : Buffer capacity :=
  ⟨utf8 wideBlankName ++ List.replicate 26 32, by decide⟩

theorem round_trip_wideBlankBuffer : encode wideBlankName = .ok wideBlankBuffer ∧
    ofInts (values wideBlankBuffer.bytes) = .ok "BTC".toList ∧
    ∃ buf', encode "BTC".toList = .ok buf' ∧ ofInts (values buf'.bytes) = .ok "BTC".toList ∧
      buf' ≠ wideBlankBuffer := by
  have hencode : encode wideBlankName = .ok wideBlankBuffer := rfl
  have htext : wideBlankBuffer.bytes = utf8 (wideBlankName ++ List.replicate 26 ' ') := by decide
  obtain ⟨hnames, -, hbuffers⟩ := buffers_round_trip
  obtain ⟨-, ⟨stem, blanks, hstem, hread⟩, -⟩ := (hnames wideBlankName).2 wideBlankBuffer hencode
  obtain rfl : "BTC".toList = stem := hstem.trimEnd_eq
  obtain ⟨symbol, blanks', buf', hsymbol, hread', hencode', hagain, hsame⟩ :=
    hbuffers wideBlankBuffer _ htext
  obtain rfl : "BTC".toList = symbol := hsymbol.trimEnd_eq
  refine ⟨hencode, hread, buf', hencode', hagain, fun heq => ?_⟩
  have hsplit : "BTC".toList ++ blanks' = "BTC".toList ++ '\u3000' :: List.replicate 26 ' ' :=
    hsymbol.eq_append.symm.trans rfl
  have hwide : '\u3000' ∈ blanks' := by
    rw [List.append_cancel_left hsplit]
    exact List.mem_cons_self
  exact absurd (hsame.mp heq _ hwide) (by decide)

end Name

end MarketRegistry
