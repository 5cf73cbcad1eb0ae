import Mathlib.Algebra.Group.Nat.Defs
import StackBound.Vector.Image

/-! The words of a vector table, by where their bytes stand. Taking a table word by word is the same as
reading each slot at its offset, and no such reading goes past the end of the data. A handler address is
the word with its lowest bit cleared, or set. -/
namespace StackBound.Vector

/-- The number that some bytes make up, the lowest byte first. -/
def littleEndian (bytes : Bytes) : Nat := bytes.foldr (fun b n => b.toNat + 256 * n) 0

/-- Bits put together without overlap add up. -/
theorem or_shiftLeft {low width : Nat} (fits : low < 2 ^ width) (high : Nat) :
    low ||| high <<< width = 2 ^ width * high + low := by
  rw [Nat.two_pow_add_eq_or_of_lt fits, Nat.shiftLeft_eq, Nat.mul_comm high, Nat.or_comm]

theorem toNat_word (a b c d : UInt8) : (word a b c d).toNat = littleEndian [a, b, c, d] := by
  have first := a.toNat_lt
  have second := b.toNat_lt
  have third := c.toNat_lt
  have fourth := d.toNat_lt
  have wraps (byte : UInt8) {width : Nat} (fits : width ≤ 24) :
      byte.toNat <<< width % 2 ^ 32 = byte.toNat <<< width := by
    apply Nat.mod_eq_of_lt
    have := byte.toNat_lt
    calc byte.toNat <<< width = byte.toNat * 2 ^ width := Nat.shiftLeft_eq ..
      _ ≤ byte.toNat * 2 ^ 24 := Nat.mul_le_mul_left _ (Nat.pow_le_pow_right (by decide) fits)
      _ < 2 ^ 32 := by omega
  simp only [word, UInt32.toNat_or, UInt32.toNat_shiftLeft, UInt8.toNat_toUInt32, UInt32.reduceToNat,
    Nat.reduceMod, wraps, Nat.reduceLeDiff]
  have two : 2 ^ 8 * b.toNat + a.toNat < 2 ^ 16 := by omega
  have three : 2 ^ 16 * c.toNat + (2 ^ 8 * b.toNat + a.toNat) < 2 ^ 24 := by omega
  rw [or_shiftLeft first, or_shiftLeft two, or_shiftLeft three]
  simp only [littleEndian, List.foldr_cons, List.foldr_nil]
  omega

/-- The lowest bit is cleared. -/
theorem toNat_target (w : UInt32) : (target w).toNat = 2 * (w.toNat / 2) := by
  have half : (w.toNat &&& 0xFFFFFFFE) / 2 = w.toNat / 2 := by
    have bound := w.toNat_lt
    have low : (w.toNat / 2) &&& (2 ^ 31 - 1) = w.toNat / 2 := by
      rw [Nat.and_two_pow_sub_one_eq_mod, Nat.mod_eq_of_lt (by omega)]
    simpa [Nat.and_div_two_pow (n := 1)] using low
  have even : (w.toNat &&& 0xFFFFFFFE) % 2 = 0 := by
    simpa using Nat.and_mod_two_pow (a := w.toNat) (b := 0xFFFFFFFE) (n := 1)
  have value : (target w).toNat = w.toNat &&& 0xFFFFFFFE := by simp [target]
  omega

/-- The lowest bit of an even address is set. -/
theorem toNat_or_one {address : UInt64} {half : Nat} (even : address.toNat = 2 * half) :
    (address ||| 1).toNat = 2 * half + 1 := by
  have marked : 1 ||| half <<< 1 = 2 ^ 1 * half + 1 := or_shiftLeft (by decide) half
  rw [Nat.shiftLeft_eq, Nat.mul_comm half, Nat.or_comm] at marked
  rw [UInt64.toNat_or, even]
  exact marked

/-! ### Slots -/

def slice? (data : Bytes) (start stop : Nat) : Option Bytes :=
  if start ≤ stop ∧ stop ≤ data.length then some ((data.take stop).drop start) else none

def readSlots? (data : Bytes) (offset : Nat) : Option (List UInt32) :=
  if offset + 4 ≤ data.length then do
    let bytes ← slice? data offset (offset + 4)
    let rest ← readSlots? data (offset + 4)
    return .ofNat (littleEndian bytes) :: rest
  else some []
termination_by data.length - offset

/-- The slot with a number, in a table that begins at an offset, lies within the data and holds a
word. -/
structure Slot (data : Bytes) (start number : Nat) (w : UInt32) : Prop where
  inside : start + 4 * number + 4 ≤ data.length
  value : w.toNat = littleEndian ((data.drop (start + 4 * number)).take 4)

theorem wordsOnto_append (read earlier : List UInt32) (data : Bytes) :
    wordsOnto (read ++ earlier) data = wordsOnto read data ++ earlier := by
  fun_induction wordsOnto read data with
  | case1 read a b c d rest ih => exact ih
  | case2 read data short => rw [wordsOnto]; exact short

theorem words_cons (a b c d : UInt8) (rest : Bytes) :
    words (a :: b :: c :: d :: rest) = word a b c d :: words rest := by
  have first : wordsOnto [word a b c d] rest = wordsOnto [] rest ++ [word a b c d] :=
    wordsOnto_append [] [word a b c d] rest
  rw [words, wordsOnto, first, List.reverse_append]
  rfl

theorem exists_word {data : Bytes} (room : 4 ≤ data.length) :
    ∃ w : UInt32, w.toNat = littleEndian (data.take 4) ∧ words data = w :: words (data.drop 4) := by
  match data, room with
  | a :: b :: c :: d :: rest, _ => exact ⟨word a b c d, toNat_word a b c d, words_cons a b c d rest⟩

theorem words_of_short {data : Bytes} (short : data.length < 4) : words data = [] := by
  match data, short with
  | [], _ | [_], _ | [_, _], _ | [_, _, _], _ => rfl

theorem room_drop_iff {data : Bytes} {start : Nat} :
    4 ≤ (data.drop start).length ↔ start + 4 ≤ data.length := by
  rw [List.length_drop]
  omega

/-- Reading slots at their offsets stays within the data, and gives the words. -/
theorem readSlots?_eq (data : Bytes) (offset : Nat) :
    readSlots? data offset = some (words (data.drop offset)) := by
  fun_induction readSlots? data offset with
  | case1 offset room ih =>
    have bytes : slice? data offset (offset + 4) = some ((data.drop offset).take 4) := by
      rw [slice?, if_pos ⟨by omega, room⟩, List.drop_take, Nat.add_sub_cancel_left]
    obtain ⟨w, value, first⟩ := exists_word (room_drop_iff.mpr room)
    rw [bytes, ih, first, List.drop_drop]
    show some (UInt32.ofNat (littleEndian ((data.drop offset).take 4)) :: _) = _
    rw [← value, UInt32.ofNat_toNat]
  | case2 offset full => rw [words_of_short (Nat.not_le.mp (mt room_drop_iff.mp full))]

theorem slot_succ_iff (data : Bytes) (start number : Nat) (w : UInt32) :
    Slot data start (number + 1) w ↔ Slot data (start + 4) number w := by
  have shift : start + 4 * (number + 1) = start + 4 + 4 * number := by omega
  constructor <;> rintro ⟨inside, value⟩
  · exact ⟨by omega, shift ▸ value⟩
  · exact ⟨by omega, shift.symm ▸ value⟩

/-- The words of a table are those of its slots. -/
theorem getElem?_words_iff (data : Bytes) (start number : Nat) (w : UInt32) :
    (words (data.drop start))[number]? = some w ↔ Slot data start number w := by
  induction number generalizing start with
  | zero =>
    by_cases room : start + 4 ≤ data.length
    · obtain ⟨first, value, rest⟩ := exists_word (room_drop_iff.mpr room)
      rw [rest, List.getElem?_cons_zero, Option.some_inj, ← UInt32.toNat_inj, value]
      exact ⟨fun same => ⟨room, same.symm⟩, fun slot => slot.value.symm⟩
    · rw [words_of_short (Nat.not_le.mp (mt room_drop_iff.mp room))]
      exact iff_of_false (by simp) fun slot => room slot.inside
  | succ number ih =>
    rw [slot_succ_iff, ← ih]
    by_cases room : start + 4 ≤ data.length
    · obtain ⟨first, -, rest⟩ := exists_word (room_drop_iff.mpr room)
      rw [rest, List.getElem?_cons_succ, List.drop_drop]
    · have further : ¬ 4 ≤ (data.drop (start + 4)).length := by
        rw [room_drop_iff]
        omega
      rw [words_of_short (Nat.not_le.mp (mt room_drop_iff.mp room)),
        words_of_short (Nat.not_le.mp further)]
      rfl

/-- A table that begins within the data can be cut out, and its slots behind the first can be read. -/
theorem readSlots?_behind {data : Bytes} {start : Nat} (inside : start ≤ data.length) :
    ∃ bytes, slice? data start data.length = some bytes ∧ ∃ read, readSlots? bytes 4 = some read ∧
      ∀ i w, read[i]? = some w ↔ Slot data start (i + 1) w := by
  refine ⟨data.drop start, ?_, words (data.drop (start + 4)), ?_, fun i w => ?_⟩
  · rw [slice?, if_pos ⟨inside, Nat.le_refl _⟩, List.take_length]
  · rw [readSlots?_eq, List.drop_drop]
  · rw [slot_succ_iff, getElem?_words_iff]

end StackBound.Vector
