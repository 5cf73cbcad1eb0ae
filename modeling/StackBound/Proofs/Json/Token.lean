import StackBound.Json.Token
import StackBound.Proofs.Text.Decimal
import StackBound.Proofs.Text.Utf8
import Mathlib.Data.List.TakeDrop

/-! Lexemes read back from their texts. A string reads back as it is shown, and a numeral only where
the text after it does not go on with it, so lists of lexemes are read back before such texts. Gaps
between lexemes do not matter. -/
namespace StackBound.Json

namespace Piece

theorem read?_byte {b : UInt8} (visible : 32 ≤ b.toNat) (quote : b ≠ 34) (escape : b ≠ 92)
    (found : List Piece) (taken : Nat) (rest : Bytes) :
    read? found taken (b :: rest) = read? (.byte b :: found) (taken + 1) rest := by
  have plain : ¬ b < 32 := by
    rw [UInt8.lt_iff_toNat_lt]
    exact Nat.not_lt.mpr visible
  rw [read?.eq_5 _ _ _ _ quote (fun _ _ _ _ _ same => absurd same escape)
    (fun _ _ same => absurd same escape)]
  simp [plain, escape]

theorem read?_bytes {bytes : Bytes} (visible : ∀ b ∈ bytes, 32 ≤ b.toNat ∧ b ≠ 34 ∧ b ≠ 92)
    (found : List Piece) (taken : Nat) (rest : Bytes) :
    read? found taken (bytes ++ rest) =
      read? ((bytes.map Piece.byte).reverse ++ found) (taken + bytes.length) rest := by
  induction bytes generalizing found taken with
  | nil => rfl
  | cons b more ih =>
    obtain ⟨⟨least, quote, escape⟩, later⟩ := List.forall_mem_cons.mp visible
    rw [List.cons_append, read?_byte least quote escape, ih later]
    simp [Nat.add_assoc, Nat.add_comm 1]

theorem foldl_add_bytes (bytes written : Bytes) :
    (bytes.map Piece.byte).foldl Spelling.add ⟨written, none⟩ = ⟨bytes.reverse ++ written, none⟩ := by
  induction bytes generalizing written with
  | nil => rfl
  | cons b more ih =>
    rw [List.map_cons, List.foldl_cons]
    simp only [Spelling.add, Spelling.settle, ih]
    simp

/-- Some bytes inside a string stand for a character, whatever stands around them. -/
def Spells (bytes : Bytes) (c : Char) : Prop :=
  ∃ pieces : List Piece,
    (∀ found taken rest, read? found taken (bytes ++ rest) =
      read? (pieces.reverse ++ found) (taken + bytes.length) rest) ∧
    ∀ written, pieces.foldl Spelling.add ⟨written, none⟩ =
      ⟨(String.utf8EncodeChar c).reverse ++ written, none⟩

theorem spells_bytes {c : Char}
    (visible : ∀ b ∈ String.utf8EncodeChar c, 32 ≤ b.toNat ∧ b ≠ 34 ∧ b ≠ 92) :
    Spells (String.utf8EncodeChar c) c :=
  ⟨_, read?_bytes visible, foldl_add_bytes _⟩

theorem spells_short (key : UInt8) {c : Char} (other : key ≠ 117)
    (known : short? key = some c.toNat.toUInt8) (ascii : c.toNat < 128) : Spells [92, key] c := by
  have one : String.utf8EncodeChar c = [c.toNat.toUInt8] := by
    have small : c.val.toNat ≤ 127 := Nat.le_of_lt_succ ascii
    simp only [String.utf8EncodeChar, small, ↓reduceIte]
    rfl
  refine ⟨[.byte c.toNat.toUInt8], fun found taken rest => ?_, fun written => ?_⟩
  · rw [List.cons_append, List.cons_append, List.nil_append,
      read?.eq_4 _ _ _ _ (fun _ _ _ _ _ same => absurd same other), known]
    rfl
  · rw [one]
    rfl

theorem spells_unit {a b c d : UInt8} {char : Char}
    (digits : unit? a b c d = some (.unit char.toNat)) : Spells [92, 117, a, b, c, d] char := by
  refine ⟨[.unit char.toNat], fun found taken rest => ?_, fun written => ?_⟩
  · simp only [List.cons_append, List.nil_append, read?, digits]
    rfl
  · have valid := Utf8.toNat_valid char
    have same : char.val.toNat = char.toNat := rfl
    have high : isHigh char.toNat = false := by simp [isHigh]; omega
    have low : isLow char.toNat = false := by simp [isLow]; omega
    simp [Spelling.add, Spelling.putUnit, high, low, Spelling.put]

theorem spells_escaped {c : Char} (ascii : c.toNat < 128) : Spells (Token.escaped c.toNat) c := by
  have digits : ∀ n < 128, ∃ a b, Token.escaped n = [92, 117, 48, 48, a, b] ∧
      unit? 48 48 a b = some (.unit n) := by
    intro n small
    refine ⟨_, _, rfl, ?_⟩
    revert n
    decide
  obtain ⟨a, b, escaped, unit⟩ := digits c.toNat ascii
  rw [escaped]
  exact spells_unit unit

/-- Every character is written so that it is read again. -/
theorem spells_spell (c : Char) : Spells (Token.spell c) c := by
  unfold Token.spell
  split
  -- Every character without a short form of its own goes through the tests one by one.
  case h_6 quote escape newline back tab =>
    split
    next backspace => exact spells_short 98 (by decide) (by rw [backspace]; rfl) (by omega)
    split
    next feed => exact spells_short 102 (by decide) (by rw [feed]; rfl) (by omega)
    split
    next numbered =>
      simp only [Bool.or_eq_true, decide_eq_true_eq] at numbered
      apply spells_escaped
      rcases numbered with ((control | rfl) | rfl) | rfl
      · omega
      all_goals decide
    split
    next => subst_vars; exact spells_unit rfl
    split
    next => subst_vars; exact spells_unit rfl
    next numbered _ _ =>
      simp only [Bool.or_eq_true, decide_eq_true_eq, not_or] at numbered
      refine spells_bytes fun b member => ?_
      rcases Utf8.mem_utf8EncodeChar member with ⟨ascii, rfl⟩ | high
      · have value : c.toNat.toUInt8.toNat = c.toNat := Utf8.toNat_ofNat (by omega)
        refine ⟨by omega, fun same => quote ?_, fun same => escape ?_⟩ <;>
          exact Char.toNat_inj.mp (value.symm.trans (congrArg UInt8.toNat same))
      · refine ⟨by omega, ?_, ?_⟩ <;> rintro rfl <;> exact absurd high (by decide)
  · exact spells_short 34 (by decide) rfl (by decide)
  · exact spells_short 92 (by decide) rfl (by decide)
  · exact spells_short 110 (by decide) rfl (by decide)
  · exact spells_short 114 (by decide) rfl (by decide)
  · exact spells_short 116 (by decide) rfl (by decide)

/-- Characters written inside a string are read as pieces that spell them. -/
theorem read?_spell (chars : List Char) (rest : Bytes) :
    ∃ pieces, read? [] 0 (chars.flatMap Token.spell ++ 34 :: rest) =
        some (pieces, (chars.flatMap Token.spell).length + 1) ∧
      text pieces = Bytes.encode chars := by
  suffices onto : ∀ found taken written, ∃ pieces : List Piece,
      read? found taken (chars.flatMap Token.spell ++ 34 :: rest) =
        some (found.reverse ++ pieces, taken + (chars.flatMap Token.spell).length + 1) ∧
      pieces.foldl Spelling.add ⟨written, none⟩ =
        ⟨(Bytes.encode chars).reverse ++ written, none⟩ by
    obtain ⟨pieces, read, spelled⟩ := onto [] 0 []
    refine ⟨pieces, by simpa using read, ?_⟩
    rw [text, spelled]
    simp only [Spelling.settle, List.append_nil, List.reverse_reverse]
    exact Bytes.wellFormed_encode chars
  -- The pieces found before, the bytes taken and the text written so far do not matter.
  induction chars with
  | nil =>
    intro found taken written
    exact ⟨[], by simp [read?], rfl⟩
  | cons c more ih =>
    intro found taken written
    obtain ⟨first, readFirst, spelledFirst⟩ := spells_spell c
    obtain ⟨later, readLater, spelledLater⟩ := ih (first.reverse ++ found)
      (taken + (Token.spell c).length) ((String.utf8EncodeChar c).reverse ++ written)
    refine ⟨first ++ later, ?_, ?_⟩
    · rw [List.flatMap_cons, List.append_assoc, readFirst, readLater]
      simp [Nat.add_assoc]
    · rw [List.foldl_append, spelledFirst, spelledLater]
      simp [Bytes.encode]

end Piece

namespace Numeral

/-- A text that starts with a comma, a closing bracket or a gap, if with anything, so that it does not
go on with a numeral before it. -/
def Ends (rest : Bytes) : Prop := ∀ b ∈ rest.head?, b = 44 ∨ b = 93 ∨ b = 125 ∨ isGap b = true

/-- No numeral goes on with such a byte. -/
theorem Ends.other {b : UInt8} {rest : Bytes} (ends : Ends (b :: rest)) :
    Bytes.isDigit b = false ∧ isMark b = false ∧ b ≠ 46 := by
  have first := ends b rfl
  simp only [isGap, Bool.or_eq_true, beq_iff_eq] at first
  rcases first with rfl | rfl | rfl | ((rfl | rfl) | rfl) | rfl <;> decide

theorem Ends.fraction? {rest : Bytes} (ends : Ends rest) : fraction? rest = some ([], rest) := by
  cases rest with
  | nil => rfl
  | cons b more => exact fraction?.eq_2 _ fun _ same => ends.other.2.2 (List.cons.inj same).1

theorem Ends.power? {rest : Bytes} (ends : Ends rest) : power? rest = some ([], rest) := by
  cases rest with
  | nil => rfl
  | cons b more => simp [Numeral.power?, ends.other.2.1]

theorem Ends.run? {rest : Bytes} (ends : Ends rest) (n : Nat) :
    Bytes.run? Bytes.isDigit (Bytes.ofNat n ++ rest) = some (Bytes.ofNat n, rest) := by
  have none : rest.takeWhile Bytes.isDigit = [] ∧ rest.dropWhile Bytes.isDigit = rest := by
    cases rest with
    | nil => exact ⟨rfl, rfl⟩
    | cons b more => simp [ends.other.1]
  have span : (Bytes.ofNat n ++ rest).span Bytes.isDigit = (Bytes.ofNat n, rest) := by
    have digits := Bytes.all_isDigit_ofNat n
    rw [List.span_eq_takeWhile_dropWhile, List.takeWhile_append_of_pos digits,
      List.dropWhile_append_of_pos digits, none.1, none.2, List.append_nil]
  rw [Bytes.run?, span]
  split
  next empty => exact absurd (congrArg Prod.fst empty) (Bytes.ofNat_ne_nil n)
  next => rfl

theorem Ends.whole? {rest : Bytes} (ends : Ends rest) (n : Nat) :
    whole? (Bytes.ofNat n ++ rest) = some (Bytes.ofNat n, rest) := by
  rcases Nat.eq_zero_or_pos n with rfl | positive
  · rfl
  · have nonzero := Bytes.head?_ofNat positive
    obtain ⟨b, digits, written⟩ := List.exists_cons_of_ne_nil (Bytes.ofNat_ne_nil n)
    rw [written] at nonzero
    rw [Numeral.whole?.eq_2, ends.run?]
    intro more same
    rw [written, List.cons_append] at same
    exact nonzero (congrArg some (List.cons.inj same).1)

/-- An integer is the whole numeral where the text does not go on with it. -/
theorem Ends.first? {rest : Bytes} (ends : Ends rest) (n : Int) :
    first? (Bytes.ofInt n ++ rest) = some (Bytes.ofInt n) := by
  cases n with
  | ofNat k =>
    have unsigned : ((Bytes.ofNat k ++ rest).take 1).filter (· == 45) = [] := by
      obtain ⟨b, more, written⟩ := List.exists_cons_of_ne_nil (Bytes.ofNat_ne_nil k)
      have digit : Bytes.isDigit b = true := Bytes.all_isDigit_ofNat k b (by simp [written])
      have other : b ≠ 45 := by rintro rfl; exact absurd digit (by decide)
      simp [written, other]
    simp [Numeral.first?, Bytes.ofInt, unsigned, ends.whole?, ends.fraction?, ends.power?]
  | negSucc k =>
    simp [Numeral.first?, Bytes.ofInt, ends.whole?, ends.fraction?, ends.power?]

end Numeral

namespace Token

def Blank (gap : Bytes) : Prop := ∀ b ∈ gap, isGap b = true

theorem blank_nil : Blank [] := nofun

theorem Blank.append {gap more : Bytes} (first : Blank gap) (second : Blank more) :
    Blank (gap ++ more) :=
  List.forall_mem_append.mpr ⟨first, second⟩

theorem Blank.ends {gap : Bytes} (blank : Blank gap) : Numeral.Ends gap :=
  fun b first => .inr (.inr (.inr (blank b (List.mem_of_head? first))))

inductive Spaced : List Token → Bytes → Prop
  | nil : Spaced [] []
  | cons {gap : Bytes} (blank : Blank gap) (token : Token) {tokens : List Token} {rest : Bytes}
      (more : Spaced tokens rest) : Spaced (token :: tokens) (gap ++ (token.text ++ rest))

theorem spaced_flatMap (tokens : List Token) : Spaced tokens (tokens.flatMap text) := by
  induction tokens with
  | nil => exact .nil
  | cons token more ih => exact .cons blank_nil token ih

theorem Spaced.append {before after : List Token} {first second : Bytes}
    (left : Spaced before first) (right : Spaced after second) :
    Spaced (before ++ after) (first ++ second) := by
  induction left with
  | nil => exact right
  | cons blank token _ ih =>
    simpa only [List.cons_append, List.append_assoc] using Spaced.cons blank token ih

theorem Spaced.split {before after : List Token} {whole : Bytes}
    (spaced : Spaced (before ++ after) whole) :
    ∃ first second, whole = first ++ second ∧ Spaced before first ∧ Spaced after second := by
  induction before generalizing whole with
  | nil => exact ⟨[], whole, rfl, .nil, spaced⟩
  | cons token more ih =>
    cases spaced with
    | @cons gap blank _ _ rest later =>
      obtain ⟨first, second, rfl, left, right⟩ := ih later
      exact ⟨gap ++ (token.text ++ first), second, by simp, .cons blank token left, right⟩

/-- Lexemes that are read back from their text, however spaced, where nothing goes on with a
numeral. -/
def Legible (tokens : List Token) : Prop :=
  ∀ found whole rest, Spaced tokens whole → Numeral.Ends rest →
    scan found 0 (whole ++ rest) = scan (tokens.reverse ++ found) 0 rest

theorem scan_skip (found : List Token) (skipped rest : Bytes) :
    scan found skipped.length (skipped ++ rest) = scan found 0 rest := by
  induction skipped with
  | nil => rfl
  | cons b more ih => rw [List.length_cons, List.cons_append, scan, ih]

theorem scan_of_first? (token : Token) (b : UInt8) (more : Bytes) {rest : Bytes} (gap : isGap b = false)
    (read : first? b (more ++ rest) = some (token, more.length)) (found : List Token) :
    scan found 0 (b :: more ++ rest) = scan (token :: found) 0 rest := by
  rw [List.cons_append, scan]
  simp only [gap, Bool.false_eq_true, ↓reduceIte, read]
  exact scan_skip _ more rest

theorem Blank.scan {gap : Bytes} (blank : Blank gap) (found : List Token) (rest : Bytes) :
    scan found 0 (gap ++ rest) = scan found 0 rest := by
  induction gap with
  | nil => rfl
  | cons b more ih =>
    obtain ⟨first, later⟩ := List.forall_mem_cons.mp blank
    rw [List.cons_append, Token.scan, if_pos first, ih later]

theorem legible_nil : Legible [] := by
  intro found whole rest spaced _
  cases spaced
  rfl

def Closed (token : Token) : Prop :=
  ∀ found rest, scan found 0 (token.text ++ rest) = scan (token :: found) 0 rest

theorem Closed.cons {token : Token} {tokens : List Token} (closed : token.Closed)
    (legible : Legible tokens) : Legible (token :: tokens) := by
  intro found whole rest spaced ends
  cases spaced with
  | cons blank _ more =>
    rw [List.append_assoc, List.append_assoc, blank.scan, closed, legible _ _ _ more ends]
    simp

/-- Commas and closing brackets keep apart what stands before and after them. -/
theorem Legible.append_mark {mark : Token} {before after : List Token} (first : Legible before)
    (marks : mark = .comma ∨ mark = .closeArray ∨ mark = .closeObject) (second : Legible after) :
    Legible (before ++ mark :: after) := by
  intro found whole rest spaced ends
  have closed : mark.Closed := by rcases marks with rfl | rfl | rfl <;> exact fun _ _ => rfl
  obtain ⟨left, right, rfl, before, later⟩ := spaced.split
  have ending : Numeral.Ends (right ++ rest) := by
    cases later with
    | @cons gap blank _ _ _ _ =>
      cases gap with
      | nil => rcases marks with rfl | rfl | rfl <;> rintro b ⟨⟩ <;> decide
      | cons c more =>
        rintro b ⟨⟩
        exact .inr (.inr (.inr (blank c (by simp))))
  rw [List.append_assoc, first _ _ _ before ending, closed.cons second _ _ _ later ends]
  simp

theorem closed_openArray : Closed .openArray := fun _ _ => rfl

theorem closed_openObject : Closed .openObject := fun _ _ => rfl

theorem closed_colon : Closed .colon := fun _ _ => rfl

theorem startsWith_append (start rest : Bytes) : Bytes.startsWith (start ++ rest) start = true := by
  suffices after : Bytes.after? (start ++ rest) start = some rest by rw [Bytes.startsWith, after]; rfl
  induction start with
  | nil => simp [Bytes.after?]
  | cons b more ih => simp [Bytes.after?, ih]

theorem word?_null (rest : Bytes) : word? (utf8 "null" ++ rest) = some (.null, 4) :=
  if_pos (startsWith_append _ rest)

theorem word?_true (rest : Bytes) : word? (utf8 "true" ++ rest) = some (.truth true, 4) := by
  have null : Bytes.startsWith (utf8 "true" ++ rest) (utf8 "null") = false := rfl
  simp only [word?, null, startsWith_append, Bool.false_eq_true, ↓reduceIte]

theorem word?_false (rest : Bytes) : word? (utf8 "false" ++ rest) = some (.truth false, 5) := by
  have null : Bytes.startsWith (utf8 "false" ++ rest) (utf8 "null") = false := rfl
  have truth : Bytes.startsWith (utf8 "false" ++ rest) (utf8 "true") = false := rfl
  simp only [word?, null, truth, startsWith_append, Bool.false_eq_true, ↓reduceIte]

theorem closed_null : Closed .null := fun found rest =>
  scan_of_first? .null 110 [117, 108, 108] rfl (congrArg (Option.map _) (word?_null rest)) found

theorem closed_truth (value : Bool) : Closed (.truth value) := by
  intro found rest
  cases value with
  | true =>
    exact scan_of_first? _ 116 [114, 117, 101] rfl (congrArg (Option.map _) (word?_true rest)) found
  | false =>
    exact scan_of_first? _ 102 [97, 108, 115, 101] rfl (congrArg (Option.map _) (word?_false rest))
      found

theorem text_string (chars : List Char) {text : Bytes} (encoded : text = Bytes.encode chars) :
    (Token.string text).text = 34 :: (chars.flatMap spell ++ [34]) := by
  have spelled : text.glyphs.flatMap spellGlyph = chars.flatMap spell := by
    rw [encoded, Bytes.glyphs_encode, List.flatMap_map]
    rfl
  rw [Token.text, spelled]
  rfl

/-- A string is written as it is shown. -/
theorem text_wellFormed (text : Bytes) :
    (Token.string text.wellFormed).text = (Token.string text).text := by
  have shown : (text.glyphs.map Glyph.shown).flatMap spell = text.glyphs.flatMap spellGlyph := by
    rw [List.flatMap_map]
    rfl
  have encoded : text.wellFormed = Bytes.encode (text.glyphs.map Glyph.shown) := rfl
  rw [text_string _ encoded, shown]
  rfl

theorem closed_string {text : Bytes} (encoded : text.IsUtf8) : Closed (.string text) := by
  obtain ⟨chars, rfl⟩ := encoded
  intro found rest
  rw [text_string chars rfl]
  refine scan_of_first? _ _ _ rfl ?_ found
  obtain ⟨pieces, read, spelled⟩ := Piece.read?_spell chars rest
  rw [List.append_assoc, List.singleton_append]
  simp only [first?, read, Option.map_some, spelled, List.length_append, List.length_singleton]

theorem legible_number (n : Int) : Legible [.number (Bytes.ofInt n)] := by
  intro found whole rest spaced ends
  obtain ⟨gap, blank, rfl⟩ : ∃ gap, Blank gap ∧ whole = gap ++ Bytes.ofInt n := by
    cases spaced with
    | @cons gap blank _ _ _ more =>
      cases more
      exact ⟨gap, blank, by simp [text]⟩
  have read := ends.first? n
  obtain ⟨b, more, written, starts⟩ : ∃ b more, Bytes.ofInt n = b :: more ∧
      (b = 45 ∨ Bytes.isDigit b = true) := by
    cases n with
    | ofNat k =>
      obtain ⟨b, more, written⟩ := List.exists_cons_of_ne_nil (Bytes.ofNat_ne_nil k)
      exact ⟨b, more, written, .inr (Bytes.all_isDigit_ofNat k b (by simp [written]))⟩
    | negSucc k => exact ⟨45, _, rfl, .inl rfl⟩
  rw [List.append_assoc, blank.scan, List.reverse_singleton, List.singleton_append]
  rw [written] at read ⊢
  have range : 45 ≤ b.toNat ∧ b.toNat ≤ 57 := by
    rcases starts with rfl | digit
    · decide
    · simp only [Bytes.isDigit, Bool.and_eq_true, decide_eq_true_eq, UInt8.le_iff_toNat_le] at digit
      exact ⟨Nat.le_trans (by decide) digit.1, digit.2⟩
  have other {c : UInt8} (outside : c.toNat < 45 ∨ 57 < c.toNat) : b ≠ c := by rintro rfl; omega
  apply scan_of_first?
  · simp [isGap, other]
  · rw [first?.eq_8 b _ (other (by decide)) (other (by decide)) (other (by decide))
      (other (by decide)) (other (by decide)) (other (by decide)) (other (by decide))]
    have numeral : (decide (b = 45) || Bytes.isDigit b) = true := by simpa using starts
    rw [if_pos numeral, ← List.cons_append, read]
    rfl

end Token
end StackBound.Json
