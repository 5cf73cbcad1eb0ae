import Mathlib.Algebra.Group.Nat.Defs
import StackBound.Proofs.Text.Utf8
import StackBound.Text.Quoted

/-! Quoted text read back. Each glyph of a text is read back from its quoted form whatever follows it,
and none is taken for the closing mark; so where a quoted text stands in front of others, both it and
what follows are determined. Nothing in a quoted text ends a line. -/
namespace StackBound

namespace Quoted

def digit (b : UInt8) : Nat := if b < 58 then b.toNat - 48 else b.toNat - 87

def number (digits : Bytes) : Nat := digits.foldl (fun n b => 16 * n + digit b) 0

def long? (letter : UInt8) : Option Char :=
  match letter.toNat with
  | 97 => some (Char.ofNat 7)
  | 98 => some (Char.ofNat 8)
  | 102 => some (Char.ofNat 12)
  | 110 => some (Char.ofNat 10)
  | 114 => some (Char.ofNat 13)
  | 116 => some (Char.ofNat 9)
  | 118 => some (Char.ofNat 11)
  | 92 => some (Char.ofNat 92)
  | 34 => some (Char.ofNat 34)
  | _ => none

/-- Reads what follows a backslash. Only bytes outside ASCII are written as such. -/
def escape? : Bytes → Option (Glyph × Bytes)
  | [] => none
  | kind :: rest =>
    match long? kind with
    | some c => some (.char c, rest)
    | none =>
      let width := if kind = 120 then 2 else if kind = 117 then 4 else 8
      let n := number (rest.take width)
      some (if kind = 120 ∧ 128 ≤ n then .stray n.toUInt8 else .char (Char.ofNat n), rest.drop width)

def read? : Bytes → Option (Glyph × Bytes)
  | [] => none
  | a :: rest =>
    if a = 34 then none
    else if a = 92 then escape? rest
    else some ((Utf8.first a rest).1, rest.drop (Utf8.first a rest).2)

section Numbers

theorem digit_hexDigit {n : Nat} (small : n < 16) : digit (Bytes.hexDigit n) = n := by
  revert n
  decide

theorem hex_succ (width n : Nat) :
    Bytes.hex (width + 1) n = Bytes.hexDigit (n / 16 ^ width % 16) :: Bytes.hex width n := by
  simp only [Bytes.hex, List.range_succ, List.reverse_append, List.reverse_singleton,
    List.singleton_append, List.map_cons]
  rfl

theorem number_hex (width n : Nat) : number (Bytes.hex width n) = n % 16 ^ width := by
  suffices onto : ∀ start, (Bytes.hex width n).foldl (fun n b => 16 * n + digit b) start =
      16 ^ width * start + n % 16 ^ width by
    rw [number, onto, Nat.mul_zero, Nat.zero_add]
  induction width with
  | zero => simp [Bytes.hex, Nat.mod_one]
  | succ width ih =>
    intro start
    have split : n % 16 ^ (width + 1) = 16 ^ width * (n / 16 ^ width % 16) + n % 16 ^ width := by
      rw [Nat.pow_succ, Nat.mod_mul, Nat.add_comm]
    rw [hex_succ, List.foldl_cons, digit_hexDigit (Nat.mod_lt _ (by decide)), ih, split,
      Nat.mul_add, Nat.pow_succ]
    simp only [Nat.mul_assoc, Nat.add_assoc, Nat.mul_left_comm]

@[simp] theorem length_hex (width n : Nat) : (Bytes.hex width n).length = width := by
  simp [Bytes.hex]

theorem read?_hex {n : Nat} (kind : UInt8) (rest : Bytes)
    (form : kind = 120 ∧ n < 256 ∨ kind = 117 ∧ n < 65536 ∨ kind = 85 ∧ n < 4294967296) :
    let width := if kind = 120 then 2 else if kind = 117 then 4 else 8
    read? ([92, kind] ++ Bytes.hex width n ++ rest) =
      some (if kind = 120 ∧ 128 ≤ n then .stray n.toUInt8 else .char (Char.ofNat n), rest) := by
  intro width
  have given : number (Bytes.hex width n) = n := by
    rw [number_hex]
    apply Nat.mod_eq_of_lt
    rcases form with ⟨rfl, small⟩ | ⟨rfl, small⟩ | ⟨rfl, small⟩ <;> exact small
  have none : long? kind = none := by
    rcases form with ⟨rfl, -⟩ | ⟨rfl, -⟩ | ⟨rfl, -⟩ <;> rfl
  have taken : (Bytes.hex width n ++ rest).take width = Bytes.hex width n :=
    List.take_left' (length_hex width n)
  have left : (Bytes.hex width n ++ rest).drop width = rest := List.drop_left' (length_hex width n)
  have opened : read? ([92, kind] ++ Bytes.hex width n ++ rest) =
    escape? (kind :: (Bytes.hex width n ++ rest)) := rfl
  rw [opened, escape?, none]
  simp only [show (if kind = 120 then 2 else if kind = 117 then 4 else 8) = width from rfl, taken,
    left, given]

end Numbers

theorem long?_short {c : Char} {letter : UInt8} (short : short? c = some letter) :
    long? letter = some c := by
  have same : Char.ofNat c.toNat = c := Char.ofNat_toNat c
  unfold short? at short
  split at short <;> cases short <;> next code => rw [← same, code]; rfl

theorem not_mark_of_plain {c : Char} (plain : short? c = none) : c.toNat ≠ 34 ∧ c.toNat ≠ 92 := by
  constructor <;> intro code <;> simp [short?, code] at plain

/-- A glyph that can stand in a text is read back. -/
theorem read?_glyph (g : Glyph) (high : ∀ b, g = .stray b → 128 ≤ b.toNat) (rest : Bytes) :
    read? (glyph g ++ rest) = some (g, rest) := by
  cases g with
  | stray b =>
    have above := high b rfl
    have read := read?_hex (n := b.toNat) 120 rest (.inl ⟨rfl, b.toNat_lt⟩)
    simpa [glyph, above] using read
  | char c =>
    have same : Char.ofNat c.toNat = c := Char.ofNat_toNat c
    have valid := Utf8.toNat_valid c
    have code : c.val.toNat = c.toNat := rfl
    rw [glyph]
    split
    next letter short =>
      have opened : read? ([92, letter] ++ rest) = escape? (letter :: rest) := rfl
      rw [opened, escape?, long?_short short]
    next plain =>
      split
      next printable =>
        obtain ⟨a, more, bytes, found⟩ := Utf8.first_encode c rest
        have other (b : UInt8) (ascii : b.toNat < 128) (differs : c.toNat ≠ b.toNat) : a ≠ b := by
          rintro rfl
          rcases Utf8.mem_utf8EncodeChar (c := c) (b := a) (by simp [bytes]) with ⟨small, value⟩ | big
          · rw [value] at differs
            exact differs (Utf8.toNat_ofNat (by omega)).symm
          · omega
        obtain ⟨mark, slash⟩ := not_mark_of_plain plain
        rw [bytes, List.cons_append, read?, if_neg (other 34 (by decide) mark),
          if_neg (other 92 (by decide) slash), found]
        simp
      split
      next small =>
        have read := read?_hex (n := c.toNat) 120 rest (.inl ⟨rfl, by omega⟩)
        simpa [same, Nat.not_le.mpr small] using read
      split
      next low => simpa [same] using read?_hex (n := c.toNat) 117 rest (.inr (.inl ⟨rfl, low⟩))
      next => simpa [same] using read?_hex (n := c.toNat) 85 rest (.inr (.inr ⟨rfl, by omega⟩))

def glyphs? : Nat → Bytes → Option (List Glyph × Bytes)
  | 0, _ => none
  | room + 1, text =>
    if text.head? = some 34 then some ([], text.tail)
    else (read? text).bind fun (g, rest) =>
      (glyphs? room rest).map fun (gs, rest) => (g :: gs, rest)

theorem length_le_length_glyphs {gs : List Glyph} (high : ∀ b, .stray b ∈ gs → 128 ≤ b.toNat) :
    gs.length ≤ (gs.flatMap glyph).length := by
  induction gs with
  | nil => exact Nat.le_refl 0
  | cons g gs ih =>
    have some : glyph g ≠ [] := by
      intro none
      have read := read?_glyph g (fun b is => high b (by simp [is])) []
      rw [none] at read
      cases read
    have rest := ih fun b member => high b (List.mem_cons_of_mem _ member)
    have first := List.length_pos_iff.mpr some
    rw [List.flatMap_cons, List.length_append, List.length_cons]
    omega

/-- Glyphs that can stand in a text are read back up to the closing mark, whatever follows it. -/
theorem glyphs?_flatMap {gs : List Glyph} (high : ∀ b, .stray b ∈ gs → 128 ≤ b.toNat)
    (rest : Bytes) {room : Nat} (enough : gs.length < room) :
    glyphs? room (gs.flatMap glyph ++ 34 :: rest) = some (gs, rest) := by
  induction gs generalizing room with
  | nil =>
    obtain ⟨room, rfl⟩ := Nat.exists_eq_add_of_lt enough
    rfl
  | cons g gs ih =>
    obtain ⟨room, rfl⟩ : ∃ more, room = more + 1 := ⟨room - 1, by omega⟩
    have read := read?_glyph g (fun b is => high b (by simp [is])) (gs.flatMap glyph ++ 34 :: rest)
    have later := ih (fun b member => high b (List.mem_cons_of_mem _ member))
      (Nat.lt_of_succ_lt_succ enough)
    rw [List.flatMap_cons, List.append_assoc]
    -- What can be read does not begin with the closing mark.
    have unmarked : (glyph g ++ (gs.flatMap glyph ++ 34 :: rest)).head? ≠ some 34 := by
      intro mark
      obtain ⟨text, same⟩ := List.head?_eq_some_iff.mp mark
      rw [same] at read
      cases read
    rw [glyphs?, if_neg unmarked]
    simp only [read, Option.bind_some, later, Option.map_some]

theorem visible_hex {width n : Nat} {b : UInt8} (member : b ∈ Bytes.hex width n) : 32 ≤ b.toNat := by
  obtain ⟨i, -, rfl⟩ := List.mem_map.mp member
  have small : n / Nat.pow 16 i % 16 < 16 := Nat.mod_lt _ (by decide)
  generalize n / Nat.pow 16 i % 16 = d at small
  revert d
  decide

/-- No glyph is written with a control byte. -/
theorem visible_glyph (g : Glyph) : ∀ b ∈ glyph g, 32 ≤ b.toNat := by
  have sequence (kind : UInt8) (visible : 32 ≤ kind.toNat) (width n : Nat) :
      ∀ b ∈ [92, kind] ++ Bytes.hex width n, 32 ≤ b.toNat := by
    intro b member
    simp only [List.cons_append, List.nil_append, List.mem_cons] at member
    rcases member with rfl | rfl | digit
    · decide
    · exact visible
    · exact visible_hex digit
  cases g with
  | stray b => exact sequence 120 (by decide) 2 b.toNat
  | char c =>
    rw [glyph]
    split
    next letter short =>
      have visible : 32 ≤ letter.toNat := by
        unfold short? at short
        split at short <;> cases short <;> decide
      intro b member
      simp only [List.mem_cons, List.not_mem_nil, or_false] at member
      rcases member with rfl | rfl
      · decide
      · exact visible
    split
    next printable =>
      intro b member
      rcases Utf8.mem_utf8EncodeChar member with ⟨ascii, rfl⟩ | high
      · have value : c.toNat.toUInt8.toNat = c.toNat := Utf8.toNat_ofNat (by omega)
        simp only [isPrintable, ascii, ↓reduceIte, Bool.and_eq_true, decide_eq_true_eq] at printable
        omega
      · omega
    split
    · exact sequence 120 (by decide) 2 _
    split
    · exact sequence 117 (by decide) 4 _
    · exact sequence 85 (by decide) 8 _

end Quoted

namespace Bytes

def unquote? : Bytes → Option (Bytes × Bytes)
  | [] => none
  | mark :: text =>
    if mark = 34 then (Quoted.glyphs? text.length text).map fun (gs, rest) => (ofGlyphs gs, rest)
    else none

@[simp] theorem unquote?_append (text rest : Bytes) :
    unquote? (text.quoted ++ rest) = some (text, rest) := by
  have high (b : UInt8) : .stray b ∈ text.glyphs → 128 ≤ b.toNat := high_of_mem_glyphs
  have shape : text.quoted ++ rest = 34 :: (text.glyphs.flatMap Quoted.glyph ++ 34 :: rest) := by
    simp [quoted]
  have long := Quoted.length_le_length_glyphs high
  have whole : Quoted.glyphs? (text.glyphs.flatMap Quoted.glyph ++ 34 :: rest).length
      (text.glyphs.flatMap Quoted.glyph ++ 34 :: rest) = some (text.glyphs, rest) := by
    refine Quoted.glyphs?_flatMap high rest ?_
    rw [List.length_append, List.length_cons]
    omega
  rw [shape, unquote?, if_pos rfl, whole]
  simp

/-- A quoted text is known by its beginning, whatever follows it. -/
theorem quoted_append_inj {a b x y : Bytes} (same : a.quoted ++ x = b.quoted ++ y) :
    a = b ∧ x = y := by
  have read := congrArg unquote? same
  rw [unquote?_append, unquote?_append, Option.some.injEq, Prod.mk.injEq] at read
  exact read

theorem quoted_injective : Function.Injective quoted := by
  intro a b same
  exact (quoted_append_inj (congrArg (· ++ []) same)).1

theorem visible_quoted (text : Bytes) : ∀ b ∈ text.quoted, 32 ≤ b.toNat := by
  intro b member
  simp only [quoted, List.cons_append, List.mem_cons, List.mem_append, List.mem_flatMap,
    List.not_mem_nil, or_false] at member
  rcases member with rfl | ⟨g, -, inside⟩ | rfl
  · decide
  · exact Quoted.visible_glyph g b inside
  · decide

end Bytes
end StackBound
