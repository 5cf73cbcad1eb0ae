import StackBound.Text.Utf8

/-! Texts and their characters. The glyphs of a text spell it again. The characters of a text that
encodes characters are those characters, so such a text is shown as it is. -/
namespace StackBound

namespace Utf8

variable {a b c d : UInt8}

theorem isTail_iff : isTail b = true ↔ 128 ≤ b.toNat ∧ b.toNat ≤ 191 := by
  simp [isTail, UInt8.le_iff_toNat_le]

theorem not_ascii (high : 128 ≤ a.toNat) : ¬ a < 0x80 := by
  rw [UInt8.lt_iff_toNat_lt]
  exact Nat.not_lt.mpr high

theorem first_one (ascii : a.toNat < 128) (rest : Bytes) :
    first a rest = (.char (Char.ofNat a.toNat), 0) := by
  have low : a < 0x80 := UInt8.lt_iff_toNat_lt.mpr ascii
  simp only [first, low, ↓reduceIte]

theorem first_two (least : 0xC2 ≤ a.toNat) (most : a.toNat ≤ 0xDF) (second : isTail b = true)
    (rest : Bytes) : first a (b :: rest) = (.char (pair a b), 1) := by
  have high := not_ascii (a := a) (by omega)
  have pairs : isPair a b = true := by
    simp [isPair, second, UInt8.le_iff_toNat_le, least, most]
  simp only [first, high, ↓reduceIte, List.headD_cons, pairs]

theorem first_three (least : 0xE0 ≤ a.toNat) (most : a.toNat ≤ 0xEF) (second : isTail b = true)
    (third : isTail c = true) (short : a.toNat = 0xE0 → 0xA0 ≤ b.toNat)
    (scalar : a.toNat = 0xED → b.toNat ≤ 0x9F) (rest : Bytes) :
    first a (b :: c :: rest) = (.char (triple a b c), 2) := by
  have high := not_ascii (a := a) (by omega)
  have pairs : isPair a b = false := by
    simp [isPair, UInt8.le_iff_toNat_le]
    omega
  have triples : isTriple a b c = true := by
    simp [isTriple, second, third, UInt8.le_iff_toNat_le, ← UInt8.toNat_inj, least, most]
    omega
  simp [first, high, pairs, triples]

theorem first_four (least : 0xF0 ≤ a.toNat) (most : a.toNat ≤ 0xF4) (second : isTail b = true)
    (third : isTail c = true) (fourth : isTail d = true) (short : a.toNat = 0xF0 → 0x90 ≤ b.toNat)
    (scalar : a.toNat = 0xF4 → b.toNat ≤ 0x8F) (rest : Bytes) :
    first a (b :: c :: d :: rest) = (.char (quad a b c d), 3) := by
  have high := not_ascii (a := a) (by omega)
  have pairs : isPair a b = false := by
    simp [isPair, UInt8.le_iff_toNat_le]
    omega
  have triples : isTriple a b c = false := by
    simp [isTriple, UInt8.le_iff_toNat_le]
    omega
  have quads : isQuad a b c d = true := by
    simp [isQuad, second, third, fourth, UInt8.le_iff_toNat_le, ← UInt8.toNat_inj, least, most]
    omega
  simp [first, high, pairs, triples, quads]

theorem toNat_ofNat {n : Nat} (h : n < 256) : (UInt8.ofNat n).toNat = n := by
  simp [Nat.mod_eq_of_lt h]

/-! A byte after the first carries six bits of the code point. -/

theorem toNat_tail (n : Nat) : (UInt8.ofNat (n % 64 + 128)).toNat = n % 64 + 128 :=
  toNat_ofNat (by omega)

theorem isTail_tail (n : Nat) : isTail (.ofNat (n % 64 + 128)) = true := by
  rw [isTail_iff, toNat_tail]
  omega

section Encoded

variable {v : Nat} (rest : Bytes)

theorem first_encoded_one (most : v ≤ 127) : first (.ofNat v) rest = (.char (.ofNat v), 0) := by
  have lead : (UInt8.ofNat v).toNat = v := toNat_ofNat (by omega)
  rw [first_one (by omega), lead]

theorem first_encoded_two (least : 127 < v) (most : v ≤ 2047) :
    first (.ofNat (v / 64 % 32 + 192)) (.ofNat (v % 64 + 128) :: rest) = (.char (.ofNat v), 1) := by
  have lead : (UInt8.ofNat (v / 64 % 32 + 192)).toNat = v / 64 % 32 + 192 := toNat_ofNat (by omega)
  rw [first_two (by omega) (by omega) (isTail_tail v), pair, tail, toNat_tail, lead]
  congr 3
  omega

theorem first_encoded_three (least : 2047 < v) (most : v ≤ 65535)
    (valid : v < 0xD800 ∨ 0xDFFF < v) :
    first (.ofNat (v / 4096 % 16 + 224))
      (.ofNat (v / 64 % 64 + 128) :: .ofNat (v % 64 + 128) :: rest) = (.char (.ofNat v), 2) := by
  have lead : (UInt8.ofNat (v / 4096 % 16 + 224)).toNat = v / 4096 % 16 + 224 :=
    toNat_ofNat (by omega)
  have short : (UInt8.ofNat (v / 4096 % 16 + 224)).toNat = 0xE0 →
      0xA0 ≤ (UInt8.ofNat (v / 64 % 64 + 128)).toNat := by
    rw [lead, toNat_tail]
    omega
  have scalar : (UInt8.ofNat (v / 4096 % 16 + 224)).toNat = 0xED →
      (UInt8.ofNat (v / 64 % 64 + 128)).toNat ≤ 0x9F := by
    rw [lead, toNat_tail]
    omega
  rw [first_three (by omega) (by omega) (isTail_tail (v / 64)) (isTail_tail v) short scalar, triple,
    tail, tail, toNat_tail, toNat_tail, lead]
  congr 3
  omega

theorem first_encoded_four (least : 65535 < v) (most : v < 0x110000) :
    first (.ofNat (v / 262144 % 8 + 240)) (.ofNat (v / 4096 % 64 + 128) ::
      .ofNat (v / 64 % 64 + 128) :: .ofNat (v % 64 + 128) :: rest) = (.char (.ofNat v), 3) := by
  have lead : (UInt8.ofNat (v / 262144 % 8 + 240)).toNat = v / 262144 % 8 + 240 :=
    toNat_ofNat (by omega)
  have short : (UInt8.ofNat (v / 262144 % 8 + 240)).toNat = 0xF0 →
      0x90 ≤ (UInt8.ofNat (v / 4096 % 64 + 128)).toNat := by
    rw [lead, toNat_tail]
    omega
  have scalar : (UInt8.ofNat (v / 262144 % 8 + 240)).toNat = 0xF4 →
      (UInt8.ofNat (v / 4096 % 64 + 128)).toNat ≤ 0x8F := by
    rw [lead, toNat_tail]
    omega
  rw [first_four (by omega) (by omega) (isTail_tail (v / 4096)) (isTail_tail (v / 64))
    (isTail_tail v) short scalar, quad, tail, tail, tail, toNat_tail, toNat_tail, toNat_tail, lead]
  congr 3
  omega

end Encoded

/-- The code points of characters leave out the surrogates. -/
theorem toNat_valid (c : Char) :
    c.val.toNat < 0xD800 ∨ 0xDFFF < c.val.toNat ∧ c.val.toNat < 0x110000 := c.valid

/-- The bytes of a character, whatever follows them, are read as that character. -/
theorem first_encode (c : Char) (rest : Bytes) :
    ∃ a more, String.utf8EncodeChar c = a :: more ∧
      first a (more ++ rest) = (.char c, more.length) := by
  have valid := toNat_valid c
  have same : Char.ofNat c.val.toNat = c := Char.ofNat_toNat c
  generalize hv : c.val.toNat = v at valid same
  subst same
  simp only [String.utf8EncodeChar, hv]
  by_cases one : v ≤ 127
  · exact ⟨_, [], if_pos one, first_encoded_one rest one⟩
  by_cases two : v ≤ 2047
  · exact ⟨_, [_], by rw [if_neg one, if_pos two], first_encoded_two rest (by omega) two⟩
  by_cases three : v ≤ 65535
  · exact ⟨_, [_, _], by rw [if_neg one, if_neg two, if_pos three],
      first_encoded_three rest (by omega) three (by omega)⟩
  · exact ⟨_, [_, _, _], by rw [if_neg one, if_neg two, if_neg three],
      first_encoded_four rest (by omega) (by omega)⟩

/-- Only an ASCII character has an ASCII byte, and it has no other. -/
theorem mem_utf8EncodeChar {c : Char} {b : UInt8} (member : b ∈ String.utf8EncodeChar c) :
    c.toNat < 128 ∧ b = c.toNat.toUInt8 ∨ 128 ≤ b.toNat := by
  have same : c.val.toNat = c.toNat := rfl
  have high {n k : Nat} (least : 128 ≤ k) (most : n + k < 256) : 128 ≤ (UInt8.ofNat (n + k)).toNat := by
    rw [toNat_ofNat most]
    omega
  simp only [String.utf8EncodeChar, same] at member
  split at member
  next ascii =>
    rw [List.mem_singleton] at member
    exact .inl ⟨by omega, member⟩
  split at member
  · simp only [List.mem_cons, List.not_mem_nil, or_false] at member
    rcases member with rfl | rfl <;> exact .inr (high (by omega) (by omega))
  split at member
  · simp only [List.mem_cons, List.not_mem_nil, or_false] at member
    rcases member with rfl | rfl | rfl <;> exact .inr (high (by omega) (by omega))
  · simp only [List.mem_cons, List.not_mem_nil, or_false] at member
    rcases member with rfl | rfl | rfl | rfl <;> exact .inr (high (by omega) (by omega))

theorem collect_drop (found : List Glyph) (skip : Nat) (text : Bytes) :
    collect found skip text = collect found 0 (text.drop skip) := by
  induction text generalizing skip with
  | nil => cases skip <;> rfl
  | cons b rest ih =>
    cases skip with
    | zero => rfl
    | succ skip => exact ih skip

theorem collect_encode (found : List Glyph) (c : Char) (rest : Bytes) :
    collect found 0 (String.utf8EncodeChar c ++ rest) = collect (.char c :: found) 0 rest := by
  obtain ⟨a, more, bytes, read⟩ := first_encode c rest
  rw [bytes, List.cons_append, collect, read, collect_drop, List.drop_left]

theorem ofNat_eq {n : Nat} (same : n = a.toNat) : UInt8.ofNat n = a := by
  rw [same]
  exact UInt8.ofNat_toNat

theorem toNat_charOfNat {n : Nat} (valid : n < 0xD800 ∨ 0xDFFF < n ∧ n < 0x110000) :
    (Char.ofNat n).val.toNat = n := by
  rw [Char.ofNat, dif_pos valid]
  rfl

theorem encode_one (ascii : a.toNat < 128) :
    String.utf8EncodeChar (Char.ofNat a.toNat) = [a] := by
  have value := toNat_charOfNat (n := a.toNat) (by omega)
  simp only [String.utf8EncodeChar, value]
  rw [if_pos (by omega), ofNat_eq rfl]

theorem encode_pair (found : isPair a b = true) : String.utf8EncodeChar (pair a b) = [a, b] := by
  simp only [isPair, isTail, Bool.and_eq_true, decide_eq_true_eq, UInt8.le_iff_toNat_le,
    UInt8.reduceToNat] at found
  obtain ⟨⟨least, most⟩, low, high⟩ := found
  have value := toNat_charOfNat (n := a.toNat % 32 * 64 + b.toNat % 64) (by omega)
  simp only [String.utf8EncodeChar, pair, tail, value]
  rw [if_neg (by omega), if_pos (by omega), ofNat_eq (a := a) (by omega), ofNat_eq (a := b) (by omega)]

theorem encode_triple (found : isTriple a b c = true) :
    String.utf8EncodeChar (triple a b c) = [a, b, c] := by
  simp only [isTriple, isTail, Bool.and_eq_true, Bool.or_eq_true, bne_iff_ne, ne_eq, ← UInt8.toNat_inj,
    decide_eq_true_eq, UInt8.le_iff_toNat_le, UInt8.reduceToNat] at found
  have value := toNat_charOfNat (n := (a.toNat % 16 * 64 + b.toNat % 64) * 64 + c.toNat % 64) (by omega)
  simp only [String.utf8EncodeChar, triple, tail, value]
  rw [if_neg (by omega), if_neg (by omega), if_pos (by omega), ofNat_eq (a := a) (by omega),
    ofNat_eq (a := b) (by omega), ofNat_eq (a := c) (by omega)]

theorem encode_quad (found : isQuad a b c d = true) :
    String.utf8EncodeChar (quad a b c d) = [a, b, c, d] := by
  simp only [isQuad, isTail, Bool.and_eq_true, Bool.or_eq_true, bne_iff_ne, ne_eq, ← UInt8.toNat_inj,
    decide_eq_true_eq, UInt8.le_iff_toNat_le, UInt8.reduceToNat] at found
  have value := toNat_charOfNat
    (n := ((a.toNat % 8 * 64 + b.toNat % 64) * 64 + c.toNat % 64) * 64 + d.toNat % 64) (by omega)
  simp only [String.utf8EncodeChar, quad, tail, value]
  rw [if_neg (by omega), if_neg (by omega), if_neg (by omega), ofNat_eq (a := a) (by omega),
    ofNat_eq (a := b) (by omega), ofNat_eq (a := c) (by omega), ofNat_eq (a := d) (by omega)]

/-! Bytes that are not there read as zero, which continues no character. -/

theorem take_one {rest : Bytes} (second : isTail (rest.headD 0) = true) :
    rest.take 1 = [rest.headD 0] := by
  cases rest with
  | nil => exact absurd second (by decide)
  | cons b more => rfl

theorem take_two {rest : Bytes} (second : isTail (rest.headD 0) = true)
    (third : isTail ((rest.drop 1).headD 0) = true) :
    rest.take 2 = [rest.headD 0, (rest.drop 1).headD 0] := by
  cases rest with
  | nil => exact absurd second (by decide)
  | cons b more => exact congrArg (b :: ·) (take_one third)

theorem take_three {rest : Bytes} (second : isTail (rest.headD 0) = true)
    (third : isTail ((rest.drop 1).headD 0) = true) (fourth : isTail ((rest.drop 2).headD 0) = true) :
    rest.take 3 = [rest.headD 0, (rest.drop 1).headD 0, (rest.drop 2).headD 0] := by
  cases rest with
  | nil => exact absurd second (by decide)
  | cons b more => exact congrArg (b :: ·) (take_two third fourth)

/-- A glyph spells the bytes that it was found in. -/
theorem bytes_first (a : UInt8) (rest : Bytes) :
    (first a rest).1.bytes = a :: rest.take (first a rest).2 := by
  by_cases one : a < 0x80
  · have small : a.toNat < 128 := UInt8.lt_iff_toNat_lt.mp one
    rw [first_one small]
    exact encode_one small
  by_cases two : isPair a (rest.headD 0) = true
  · have read : first a rest = (.char (pair a (rest.headD 0)), 1) := by
      simp only [first, one, two, ↓reduceIte]
    have spelled := encode_pair two
    simp only [isPair, Bool.and_eq_true] at two
    simp only [read, Glyph.bytes, spelled, take_one two.2]
  by_cases three : isTriple a (rest.headD 0) ((rest.drop 1).headD 0) = true
  · have read : first a rest = (.char (triple a (rest.headD 0) ((rest.drop 1).headD 0)), 2) := by
      simp only [first, one, two, three, Bool.false_eq_true, ↓reduceIte]
    have spelled := encode_triple three
    simp only [isTriple, Bool.and_eq_true] at three
    obtain ⟨⟨⟨⟨-, second⟩, third⟩, -⟩, -⟩ := three
    simp only [read, Glyph.bytes, spelled, take_two second third]
  by_cases four : isQuad a (rest.headD 0) ((rest.drop 1).headD 0) ((rest.drop 2).headD 0) = true
  · have read : first a rest = (.char (quad a (rest.headD 0) ((rest.drop 1).headD 0)
        ((rest.drop 2).headD 0)), 3) := by
      simp only [first, one, two, three, four, Bool.false_eq_true, ↓reduceIte]
    have spelled := encode_quad four
    simp only [isQuad, Bool.and_eq_true] at four
    obtain ⟨⟨⟨⟨⟨-, second⟩, third⟩, fourth⟩, -⟩, -⟩ := four
    simp only [read, Glyph.bytes, spelled, take_three second third fourth]
  · simp only [first, one, two, three, four, Bool.false_eq_true, ↓reduceIte, Glyph.bytes,
      List.take_zero]

theorem ofGlyphs_collect (found : List Glyph) (skip : Nat) (text : Bytes) :
    Bytes.ofGlyphs (collect found skip text) = Bytes.ofGlyphs found.reverse ++ text.drop skip := by
  induction text generalizing found skip with
  | nil => cases skip <;> simp [collect]
  | cons a rest ih =>
    cases skip with
    | succ skip => rw [collect, ih, List.drop_succ_cons]
    | zero =>
      have spelled : Bytes.ofGlyphs ((first a rest).1 :: found).reverse =
          Bytes.ofGlyphs found.reverse ++ a :: rest.take (first a rest).2 := by
        rw [← bytes_first]
        simp [Bytes.ofGlyphs]
      rw [collect, ih, spelled, List.append_assoc, List.cons_append, List.take_append_drop]
      rfl

theorem high_of_stray {rest : Bytes} {n : Nat} (found : first a rest = (.stray b, n)) :
    128 ≤ b.toNat := by
  have spelled := bytes_first a rest
  rw [found] at spelled
  obtain rfl : b = a := (List.cons.inj spelled).1
  refine Nat.le_of_not_lt fun ascii => ?_
  rw [first_one ascii] at found
  cases found

theorem high_of_mem_collect {found : List Glyph} {skip : Nat} {text : Bytes}
    (before : ∀ b, .stray b ∈ found → 128 ≤ b.toNat) :
    ∀ b, .stray b ∈ collect found skip text → 128 ≤ b.toNat := by
  induction text generalizing found skip with
  | nil => cases skip <;> simpa [collect] using before
  | cons a rest ih =>
    cases skip with
    | succ skip => exact ih before
    | zero =>
      refine ih fun b member => ?_
      rcases List.mem_cons.mp member with same | earlier
      · exact high_of_stray (n := (first a rest).2) (Prod.ext same.symm rfl)
      · exact before b earlier

end Utf8

namespace Bytes

/-- The glyphs of a text spell it. -/
@[simp] theorem ofGlyphs_glyphs (text : Bytes) : ofGlyphs text.glyphs = text := by
  rw [glyphs, Utf8.ofGlyphs_collect]
  rfl

/-- Only a byte outside ASCII stands for itself. -/
theorem high_of_mem_glyphs {text : Bytes} {b : UInt8} (member : .stray b ∈ text.glyphs) :
    128 ≤ b.toNat :=
  Utf8.high_of_mem_collect (by simp) b member

def encode (chars : List Char) : Bytes := chars.flatMap String.utf8EncodeChar

def IsUtf8 (text : Bytes) : Prop := ∃ chars, text = encode chars

theorem glyphs_encode (chars : List Char) : (encode chars).glyphs = chars.map Glyph.char := by
  suffices collected : ∀ found, Utf8.collect found 0 (encode chars) =
      found.reverse ++ chars.map Glyph.char from collected []
  induction chars with
  | nil => simp [encode, Utf8.collect]
  | cons c rest ih =>
    intro found
    rw [encode, List.flatMap_cons, Utf8.collect_encode]
    rw [encode] at ih
    simp [ih]

theorem wellFormed_encode (chars : List Char) : (encode chars).wellFormed = encode chars := by
  rw [wellFormed, glyphs_encode, List.map_map]
  congr 1
  exact List.map_id chars

theorem IsUtf8.wellFormed_eq {text : Bytes} (h : text.IsUtf8) : text.wellFormed = text := by
  obtain ⟨chars, rfl⟩ := h
  exact wellFormed_encode chars

/-- What is shown of a text is well-formed, whatever the text. -/
theorem isUtf8_wellFormed (text : Bytes) : text.wellFormed.IsUtf8 := ⟨_, rfl⟩

theorem isUtf8_iff {text : Bytes} : text.IsUtf8 ↔ text.wellFormed = text :=
  ⟨IsUtf8.wellFormed_eq, fun same => same ▸ isUtf8_wellFormed text⟩

instance (text : Bytes) : Decidable text.IsUtf8 := decidable_of_iff _ isUtf8_iff.symm

theorem isUtf8_utf8 (s : String) : (utf8 s).IsUtf8 := ⟨s.toList, rfl⟩

theorem IsUtf8.append {a b : Bytes} (first : a.IsUtf8) (second : b.IsUtf8) : IsUtf8 (a ++ b) := by
  obtain ⟨chars, rfl⟩ := first
  obtain ⟨more, rfl⟩ := second
  exact ⟨chars ++ more, by simp [encode]⟩

theorem isUtf8_of_ascii {text : Bytes} (ascii : ∀ b ∈ text, b.toNat < 128) : text.IsUtf8 := by
  induction text with
  | nil => exact ⟨[], rfl⟩
  | cons b rest ih =>
    obtain ⟨small, later⟩ := List.forall_mem_cons.mp ascii
    have alone : ∀ n < 128, String.utf8EncodeChar (Char.ofNat n) = [.ofNat n] := by decide
    have same : String.utf8EncodeChar (Char.ofNat b.toNat) = [b] := by
      rw [alone b.toNat small, UInt8.ofNat_toNat]
    have one : IsUtf8 [b] := ⟨[Char.ofNat b.toNat], by simp [encode, same]⟩
    exact one.append (ih later)

end Bytes

theorem utf8_append (s t : String) : utf8 (s ++ t) = utf8 s ++ utf8 t := by
  simp [utf8]

end StackBound
