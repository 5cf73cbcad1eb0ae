import Mathlib.Data.List.Induction
import Mathlib.Tactic.Ring
import StackBound.Text.Bytes

/-! Numbers in decimal digits: which bytes they are written with, and that they read back. -/
namespace StackBound.Bytes

theorem byte_digitChar {d : Nat} (h : d < 10) : (Nat.digitChar d).toNat.toUInt8 = .ofNat (48 + d) := by
  revert d
  decide

theorem ofNat_of_lt {n : Nat} (h : n < 10) : ofNat n = [.ofNat (48 + n)] := by
  rw [ofNat, Nat.toDigits_of_lt_base h, List.map_singleton, byte_digitChar h]

theorem ofNat_of_ge {n : Nat} (h : 10 ≤ n) : ofNat n = ofNat (n / 10) ++ [.ofNat (48 + n % 10)] := by
  rw [ofNat, Nat.toDigits_of_base_le (by decide) h, List.map_append, List.map_singleton,
    byte_digitChar (Nat.mod_lt n (by decide)), ofNat]

theorem toNat_digit {d : Nat} (h : d < 10) : (UInt8.ofNat (48 + d)).toNat = 48 + d := by
  simp only [UInt8.toNat_ofNat']
  omega

theorem isDigit_ofNat {d : Nat} (h : d < 10) : isDigit (.ofNat (48 + d)) = true := by
  simp only [isDigit, UInt8.le_iff_toNat_le, toNat_digit h]
  simp
  omega

theorem ofNat_ne_nil (n : Nat) : ofNat n ≠ [] := by
  simp [ofNat, Nat.toDigits_ne_nil]

theorem all_isDigit_ofNat (n : Nat) : ∀ b ∈ ofNat n, isDigit b = true := by
  induction n using Nat.strongRecOn with
  | ind n ih =>
    intro b member
    by_cases small : n < 10
    · rw [ofNat_of_lt small, List.mem_singleton] at member
      exact member ▸ isDigit_ofNat small
    · rw [ofNat_of_ge (by omega), List.mem_append, List.mem_singleton] at member
      rcases member with earlier | rfl
      · exact ih (n / 10) (by omega) b earlier
      · exact isDigit_ofNat (Nat.mod_lt n (by decide))

theorem all_isDigit_pad (zeros n : Nat) :
    ∀ b ∈ List.replicate zeros 48 ++ ofNat n, isDigit b = true := by
  intro b member
  rcases List.mem_append.mp member with zero | digit
  · rw [List.eq_of_mem_replicate zero]
    rfl
  · exact all_isDigit_ofNat n b digit

/-- Only zero starts with a zero. -/
theorem head?_ofNat {n : Nat} (positive : 0 < n) : (ofNat n).head? ≠ some 48 := by
  induction n using Nat.strongRecOn with
  | ind n ih =>
    by_cases small : n < 10
    · rw [ofNat_of_lt small, List.head?_cons, Ne, Option.some.injEq, ← UInt8.toNat_inj,
        toNat_digit small]
      simp
      omega
    · obtain ⟨first, rest, digits⟩ := List.exists_cons_of_ne_nil (ofNat_ne_nil (n / 10))
      have earlier := ih (n / 10) (by omega) (by omega)
      rw [digits] at earlier
      rw [ofNat_of_ge (by omega), digits]
      exact earlier

theorem natOfDigits_snoc (digits : Bytes) (b : UInt8) :
    natOfDigits (digits ++ [b]) = 10 * natOfDigits digits + digit b := by
  simp [natOfDigits]

@[simp] theorem natOfDigits_ofNat (n : Nat) : natOfDigits (ofNat n) = n := by
  induction n using Nat.strongRecOn with
  | ind n ih =>
    have value {d : Nat} (h : d < 10) : digit (.ofNat (48 + d)) = d := by
      rw [digit, toNat_digit h]
      omega
    by_cases small : n < 10
    · rw [ofNat_of_lt small, natOfDigits, List.foldl_cons, List.foldl_nil, value small]
      omega
    · rw [ofNat_of_ge (by omega), natOfDigits_snoc, ih (n / 10) (by omega),
        value (Nat.mod_lt n (by decide))]
      omega

theorem length_ofNat_le {n width : Nat} (fits : n < 10 ^ (width + 1)) : (ofNat n).length ≤ width + 1 := by
  induction width generalizing n with
  | zero => simp [ofNat_of_lt (show n < 10 by simpa using fits)]
  | succ width ih =>
    by_cases small : n < 10
    · simp [ofNat_of_lt small]
    · have rest := ih (n := n / 10) (by rw [Nat.div_lt_iff_lt_mul (by decide)]; rwa [← Nat.pow_succ])
      rw [ofNat_of_ge (by omega), List.length_append, List.length_singleton]
      omega

theorem natOfDigits_append (before after : Bytes) :
    natOfDigits (before ++ after) = natOfDigits before * 10 ^ after.length + natOfDigits after := by
  induction after using List.reverseRecOn with
  | nil => simp [natOfDigits]
  | append_singleton rest b ih =>
    rw [← List.append_assoc, natOfDigits_snoc, ih, natOfDigits_snoc, List.length_append,
      List.length_singleton, Nat.pow_succ]
    ring

@[simp] theorem natOfDigits_zeros (zeros : Nat) : natOfDigits (List.replicate zeros 48) = 0 := by
  induction zeros with
  | zero => rfl
  | succ zeros ih => rw [List.replicate_succ', natOfDigits_snoc, ih]; rfl

theorem int64?_toInt (n : Int64) : int64? n.toInt = some n := by
  have least : Int64.minValue.toInt ≤ n.toInt := Int64.le_toInt n
  have most : n.toInt ≤ Int64.maxValue.toInt := Int.le_of_lt_add_one (Int64.toInt_lt n)
  rw [int64?, if_pos ⟨least, most⟩, Int64.ofInt_toInt]

/-- A number reads back from its digits. -/
theorem toInt64?_ofInt64 (n : Int64) : (ofInt64 n).toInt64? = some n := by
  have digits (k : Nat) : ofNat k ≠ [] ∧ (ofNat k).all isDigit = true :=
    ⟨ofNat_ne_nil k, List.all_eq_true.mpr (all_isDigit_ofNat k)⟩
  rw [ofInt64]
  cases value : n.toInt with
  | ofNat k =>
    have read : int64? (1 * (natOfDigits (ofNat k) : Int)) = some n := by
      rw [natOfDigits_ofNat, Int.one_mul, ← Int.ofNat_eq_natCast, ← value, int64?_toInt]
    have unsigned : ∀ b ∈ (ofNat k).head?, isDigit b = true := fun b first =>
      all_isDigit_ofNat k b (List.mem_of_mem_head? first)
    simp only [ofInt, toInt64?]
    split
    next rest plus => simp [plus, isDigit] at unsigned
    next rest minus => simp [minus, isDigit] at unsigned
    next => rw [if_pos (digits k), read]
  | negSucc k =>
    have read : int64? (-1 * (natOfDigits (ofNat (k + 1)) : Int)) = some n := by
      rw [natOfDigits_ofNat, ← int64?_toInt n, value]
      congr 1
      omega
    simp only [ofInt, toInt64?]
    rw [if_pos (digits (k + 1)), read]

inductive Numeral : Bytes → Int → Prop
  | plain {digits : Bytes} (some : digits ≠ []) (decimal : ∀ b ∈ digits, isDigit b = true) :
      Numeral digits (natOfDigits digits)
  | plus {digits : Bytes} (some : digits ≠ []) (decimal : ∀ b ∈ digits, isDigit b = true) :
      Numeral (43 :: digits) (natOfDigits digits)
  | minus {digits : Bytes} (some : digits ≠ []) (decimal : ∀ b ∈ digits, isDigit b = true) :
      Numeral (45 :: digits) (-natOfDigits digits)

theorem int64?_eq_some_iff {value : Int} {n : Int64} : int64? value = some n ↔ n.toInt = value := by
  constructor
  · intro found
    rw [int64?] at found
    split at found
    next within =>
      rw [← Option.some.inj found]
      exact Int64.toInt_ofInt_of_le within.1 (Int.lt_add_one_of_le within.2)
    next => cases found
  · rintro rfl
    exact int64?_toInt n

/-- A number is read from the texts that write it, if it has 64 bits. -/
theorem toInt64?_eq_some_iff {text : Bytes} {n : Int64} :
    text.toInt64? = some n ↔ Numeral text n.toInt := by
  have digits {digits : Bytes} {sign : Int} :
      (if digits ≠ [] ∧ digits.all isDigit then int64? (sign * natOfDigits digits) else none) = some n ↔
        (digits ≠ [] ∧ ∀ b ∈ digits, isDigit b = true) ∧ n.toInt = sign * natOfDigits digits := by
    constructor
    · intro found
      split at found
      next given =>
        exact ⟨⟨given.1, List.all_eq_true.mp given.2⟩, int64?_eq_some_iff.mp found⟩
      next => cases found
    · rintro ⟨⟨some, decimal⟩, value⟩
      rw [if_pos ⟨some, List.all_eq_true.mpr decimal⟩, int64?_eq_some_iff]
      exact value
  constructor
  · intro found
    simp only [toInt64?] at found
    split at found
    · obtain ⟨⟨some, decimal⟩, value⟩ := digits.mp found
      rw [value, Int.one_mul]
      exact .plus some decimal
    · obtain ⟨⟨some, decimal⟩, value⟩ := digits.mp found
      rw [value, Int.neg_one_mul]
      exact .minus some decimal
    · obtain ⟨⟨some, decimal⟩, value⟩ := digits.mp found
      rw [value, Int.one_mul]
      exact .plain some decimal
  · intro numeral
    generalize value : n.toInt = v at numeral
    simp only [toInt64?]
    cases numeral with
    | plain some decimal =>
      split
      · exact absurd (decimal 43 (by simp)) (by decide)
      · exact absurd (decimal 45 (by simp)) (by decide)
      · exact digits.mpr ⟨⟨some, decimal⟩, by rw [value, Int.one_mul]⟩
    | plus some decimal => exact digits.mpr ⟨⟨some, decimal⟩, by rw [value, Int.one_mul]⟩
    | minus some decimal => exact digits.mpr ⟨⟨some, decimal⟩, by rw [value, Int.neg_one_mul]⟩

end StackBound.Bytes
