import StackBound.Text.Base64

/-! Bytes written as letters read back, and no letter is a line end. -/
namespace StackBound.Base64

theorem value?_letter {n : Nat} (h : n < 64) : value? (letter n) = some n := by
  revert n
  decide

theorem letter_ne_pad {n : Nat} (h : n < 64) : letter n ≠ pad := by
  revert n
  decide

/-- Letters are visible: they are neither line ends nor any other control, and they are ASCII. -/
theorem letter_visible {n : Nat} (h : n < 64) : 32 < letter n ∧ letter n < 127 := by
  revert n
  decide

def letters : Bytes → Bytes
  | a :: b :: c :: rest =>
    let n := (a.toNat * 256 + b.toNat) * 256 + c.toNat
    letter (n / 262144) :: letter (n / 4096 % 64) :: letter (n / 64 % 64) :: letter (n % 64) ::
      letters rest
  | [a, b] =>
    let n := a.toNat * 256 + b.toNat
    [letter (n / 1024), letter (n / 16 % 64), letter (n % 16 * 4), pad]
  | [a] => [letter (a.toNat / 4), letter (a.toNat % 4 * 16), pad, pad]
  | [] => []

theorem encodeOnto_eq (written bytes : Bytes) :
    encodeOnto written bytes = (letters bytes).reverse ++ written := by
  fun_induction encodeOnto written bytes with
  | case1 written a b c rest n ih => simp [letters, ih, n]
  | case2 written a b n => simp [letters, n]
  | case3 written a => simp [letters]
  | case4 written => simp [letters]

theorem encode_eq_letters (bytes : Bytes) : encode bytes = letters bytes := by
  rw [encode, encodeOnto_eq, List.append_nil, List.reverse_reverse]

theorem letters_visible (bytes : Bytes) : ∀ b ∈ letters bytes, 32 < b ∧ b < 127 := by
  have byte (b : UInt8) : b.toNat < 256 := b.toNat_lt
  have padded : 32 < pad ∧ pad < 127 := by decide
  fun_induction letters bytes with
  | case1 a b c rest n ih =>
    have := byte a; have := byte b; have := byte c
    simp only [List.forall_mem_cons]
    exact ⟨letter_visible (by omega), letter_visible (by omega), letter_visible (by omega),
      letter_visible (by omega), ih⟩
  | case2 a b n =>
    have := byte a; have := byte b
    simp only [List.forall_mem_cons]
    exact ⟨letter_visible (by omega), letter_visible (by omega), letter_visible (by omega), padded,
      by simp⟩
  | case3 a =>
    have := byte a
    simp only [List.forall_mem_cons]
    exact ⟨letter_visible (by omega), letter_visible (by omega), padded, padded, by simp⟩
  | case4 => simp

theorem decodeOnto_letters (read bytes : Bytes) :
    decodeOnto read (letters bytes) = some (bytes.reverse ++ read) := by
  have byte (b : UInt8) : b.toNat < 256 := b.toNat_lt
  have same {n : Nat} {b : UInt8} (h : n = b.toNat) : n.toUInt8 = b := by
    rw [h]
    exact UInt8.ofNat_toNat
  fun_induction letters bytes generalizing read with
  | case1 a b c rest n ih =>
    have := byte a; have := byte b; have := byte c
    have first := value?_letter (n := n / 262144) (by omega)
    have second := value?_letter (n := n / 4096 % 64) (by omega)
    have third := value?_letter (n := n / 64 % 64) (by omega)
    have fourth := value?_letter (n := n % 64) (by omega)
    have full := letter_ne_pad (n := n / 64 % 64) (by omega)
    have full' := letter_ne_pad (n := n % 64) (by omega)
    have isA : (n / 262144 * 4 + n / 4096 % 64 / 16).toUInt8 = a := same (by omega)
    have isB : (n / 4096 % 64 % 16 * 16 + n / 64 % 64 / 4).toUInt8 = b := same (by omega)
    have isC : (n / 64 % 64 % 4 * 64 + n % 64).toUInt8 = c := same (by omega)
    simp only [decodeOnto, first, second, third, fourth, full, full', isA, isB, isC, ih,
      Option.bind_eq_bind, Option.bind_some, false_and, ↓reduceIte, List.reverse_cons,
      List.append_assoc, List.cons_append, List.nil_append]
  | case2 a b n =>
    have := byte a; have := byte b
    have first := value?_letter (n := n / 1024) (by omega)
    have second := value?_letter (n := n / 16 % 64) (by omega)
    have third := value?_letter (n := n % 16 * 4) (by omega)
    have full := letter_ne_pad (n := n % 16 * 4) (by omega)
    have isA : (n / 1024 * 4 + n / 16 % 64 / 16).toUInt8 = a := same (by omega)
    have isB : (n / 16 % 64 % 16 * 16 + n % 16 * 4 / 4).toUInt8 = b := same (by omega)
    simp only [decodeOnto, first, second, third, full, isA, isB, Option.bind_eq_bind,
      Option.bind_some, false_and, and_self, ↓reduceIte]
    rfl
  | case3 a =>
    have := byte a
    have first := value?_letter (n := a.toNat / 4) (by omega)
    have second := value?_letter (n := a.toNat % 4 * 16) (by omega)
    have isA : (a.toNat / 4 * 4 + a.toNat % 4 * 16 / 16).toUInt8 = a := same (by omega)
    simp only [decodeOnto, first, second, isA, Option.bind_eq_bind, Option.bind_some, and_self,
      ↓reduceIte]
    rfl
  | case4 => simp [decodeOnto]

theorem decode_encode (bytes : Bytes) : decode (encode bytes) = some bytes := by
  have kept : (letters bytes).filter (fun b => b != 10 && b != 13) = letters bytes := by
    rw [List.filter_eq_self]
    intro b member
    have visible := letters_visible bytes b member
    have line : b ≠ 10 := by rintro rfl; exact absurd visible (by decide)
    have back : b ≠ 13 := by rintro rfl; exact absurd visible (by decide)
    simp [line, back]
  rw [decode, encode_eq_letters, kept, decodeOnto_letters]
  simp

end StackBound.Base64
