import Mathlib.Data.List.DropRight
import Mathlib.Tactic.Ring
import StackBound.Instant
import StackBound.Proofs.Text.Decimal
import StackBound.Proofs.Text.Run

/-! Dates and their texts. A day lies in exactly one year and one month of it, so a date tells the
day it was made from, and an instant is read back from its text to the nanosecond. -/
namespace StackBound

namespace Instant

section Calendar

/-- A day lies in its year. -/
theorem yearOf_spec (days : Int) :
    daysBefore (yearOf days) ≤ days ∧ days < daysBefore (yearOf days + 1) := by
  rw [yearOf]
  generalize guessed : days * 400 / 146097 + 1 = guess
  split
  next early =>
    rw [Int.sub_add_cancel]
    refine ⟨?_, early⟩
    simp only [daysBefore] at early ⊢
    omega
  next =>
    split
    next later =>
      refine ⟨later, ?_⟩
      simp only [daysBefore] at later ⊢
      omega
    next => omega

theorem daysBefore_succ (year : Int) :
    daysBefore (year + 1) = daysBefore year + if isLeap year then 366 else 365 := by
  simp only [isLeap, beq_iff_eq]
  split
  next => omega
  next common =>
    simp only [daysBefore] at common ⊢
    omega

theorem sum_monthLengths (year : Int) :
    (monthLengths year).sum = if isLeap year then 366 else 365 := by
  rw [monthLengths]
  split <;> rfl

/-- A day of a year lies in one of the months. -/
theorem monthOf_spec {lengths : List Int} {days : Int} (month : Nat) (nonneg : 0 ≤ days)
    (within : days < lengths.sum) :
    ∃ i length, lengths[i]? = some length ∧ 0 ≤ days - (lengths.take i).sum ∧
      days - (lengths.take i).sum < length ∧
      monthOf month lengths days = (month + i, days - (lengths.take i).sum + 1) := by
  induction lengths generalizing month days with
  | nil =>
    rw [List.sum_nil] at within
    omega
  | cons length more ih =>
    rw [List.sum_cons] at within
    rw [monthOf]
    split
    next inside => exact ⟨0, length, rfl, by simpa using nonneg, by simpa using inside, by simp⟩
    next outside =>
      have left : 0 ≤ days - length := by omega
      obtain ⟨i, next, found, lower, upper, same⟩ := ih (month + 1) left (by omega)
      refine ⟨i + 1, next, found, ?_, ?_, ?_⟩
      · rw [List.take_succ_cons, List.sum_cons]
        omega
      · rw [List.take_succ_cons, List.sum_cons]
        omega
      · rw [same, List.take_succ_cons, List.sum_cons, Prod.mk.injEq]
        omega

/-- An instant is made again from its date, and the date is one that exists. -/
theorem civil_spec (t : Instant) : ofCivil t.civil = t ∧ t.civil.isDate = true := by
  obtain ⟨begun, unfinished⟩ := yearOf_spec (t.nanos / perDay)
  rw [daysBefore_succ, ← sum_monthLengths] at unfinished
  obtain ⟨i, length, found, lower, upper, same⟩ :=
    monthOf_spec 1 (Int.sub_nonneg_of_le begun) (Int.sub_left_lt_of_lt_add unfinished)
  constructor
  · have whole := Int.ediv_mul_add_emod t.nanos perDay
    have sum (lengths : List Int) : lengths.foldl (· + ·) 0 = lengths.sum := List.sum_eq_foldl.symm
    simp only [ofCivil, civil, same, Nat.add_sub_cancel_left, sum]
    generalize t.nanos / perDay = days at *
    have day : daysBefore (yearOf days) + ((monthLengths (yearOf days)).take i).sum +
        (days - daysBefore (yearOf days) - ((monthLengths (yearOf days)).take i).sum + 1) - 1 =
        days := by omega
    rw [day, whole]
  · simp only [Civil.isDate, civil, same, Nat.add_sub_cancel_left, found, Bool.and_eq_true,
      decide_eq_true_eq]
    omega

end Calendar

section Text

theorem all_isDigit_padded (width : Nat) (n : Int) : ∀ b ∈ padded width n, Bytes.isDigit b = true :=
  Bytes.all_isDigit_pad _ _

theorem length_padded {width : Nat} {n : Nat} (fits : n < 10 ^ (width + 1)) :
    (padded (width + 1) n).length = width + 1 := by
  have short := Bytes.length_ofNat_le fits
  simp only [padded, Int.toNat_natCast, List.length_append, List.length_replicate]
  omega

theorem natOfDigits_padded (width n : Nat) : Bytes.natOfDigits (padded width n) = n := by
  simp [padded, Bytes.natOfDigits_append]

/-- A number with leading zeros is read with as many digits as it is written. -/
theorem digits?_padded {least width n : Nat} (fits : n < 10 ^ (width + 1)) (enough : least ≤ width + 1)
    (rest : Bytes) : digits? least (width + 1) (padded (width + 1) n ++ rest) = some (n, rest) := by
  have taken : (padded (width + 1) n ++ rest).take (width + 1) = padded (width + 1) n :=
    List.take_left' (length_padded fits)
  have found : (padded (width + 1) n).takeWhile Bytes.isDigit = padded (width + 1) n :=
    List.takeWhile_eq_self_iff.mpr (all_isDigit_padded _ _)
  rw [digits?]
  simp only [taken, found, length_padded fits, if_neg (Nat.not_lt.mpr enough), natOfDigits_padded,
    List.drop_left' (length_padded fits)]

theorem places_fraction {digits : Bytes} (some : digits ≠ [])
    (decimal : ∀ b ∈ digits, Bytes.isDigit b = true) (few : digits.length ≤ 9) :
    places (46 :: digits ++ utf8 "Z") =
      (Bytes.natOfDigits digits * 10 ^ (9 - digits.length), utf8 "Z") := by
  have found : (digits ++ utf8 "Z").takeWhile Bytes.isDigit = digits := by
    rw [List.takeWhile_append_of_pos decimal, show (utf8 "Z").takeWhile Bytes.isDigit = [] from rfl,
      List.append_nil]
  simp only [places, List.cons_append, found, List.isEmpty_eq_false_iff.mpr some,
    List.take_of_length_le few, List.drop_left]
  rfl

/-- The places of a fraction are read back, whatever zeros were left out. -/
theorem places_point {n : Nat} (fits : n < 1000000000) :
    places (Duration.point 9 n ++ utf8 "Z") = (n, utf8 "Z") := by
  have value := natOfDigits_padded 9 n
  have long : (padded 9 n).length = 9 := length_padded fits
  have whole := (padded 9 n).rdropWhile_append_rtakeWhile (p := (· == 48))
  have decimal : ∀ b ∈ (padded 9 n).rdropWhile (· == 48), Bytes.isDigit b = true := fun b member =>
    all_isDigit_padded 9 n b ((List.rdropWhile_prefix _ _).subset member)
  have zeros : (padded 9 n).rtakeWhile (· == 48) =
      List.replicate ((padded 9 n).rtakeWhile (· == 48)).length 48 :=
    List.eq_replicate_length.mpr fun b member => by simpa using List.mem_rtakeWhile_imp member
  have written : Duration.point 9 n = if (padded 9 n).rdropWhile (· == 48) = [] then [] else
      46 :: (padded 9 n).rdropWhile (· == 48) := by
    simp only [Duration.point, padded, List.rdropWhile, Int.toNat_natCast]
    split
    next empty => exact (if_pos empty).symm
    next some => exact (if_neg some).symm
  generalize (padded 9 n).rdropWhile (· == 48) = digits at whole decimal written
  generalize ((padded 9 n).rtakeWhile (· == 48)).length = left at zeros
  rw [zeros] at whole
  rw [← whole, Bytes.natOfDigits_append, Bytes.natOfDigits_zeros, List.length_replicate,
    Nat.add_zero] at value
  rw [← whole, List.length_append, List.length_replicate] at long
  by_cases some : digits = []
  · subst some
    obtain rfl : 0 = n := by simpa [Bytes.natOfDigits] using value
    rw [written, if_pos rfl]
    rfl
  · rw [written, if_neg some, places_fraction some decimal (by omega), ← value,
      show 9 - digits.length = left by omega]

/-- A date and a time of the day are read from their text. -/
theorem parse?_spelled {year month day hour minute second nanos : Nat} (years : year ≤ 9999)
    (months : month ≤ 99) (days : day ≤ 99) (hours : hour < 24) (minutes : minute < 60)
    (seconds : second < 60) (fits : nanos < 1000000000)
    (date : Civil.isDate ⟨year, month, day, (hour * 3600 + minute * 60 + second) * perSecond + nanos⟩) :
    parse? (padded 4 year ++ utf8 "-" ++ padded 2 month ++ utf8 "-" ++ padded 2 day ++ utf8 "T" ++
      padded 2 hour ++ utf8 ":" ++ padded 2 minute ++ utf8 ":" ++ padded 2 second ++
      Duration.point 9 nanos ++ utf8 "Z") =
      some (ofCivil ⟨year, month, day, (hour * 3600 + minute * 60 + second) * perSecond + nanos⟩) := by
  have two {least n : Nat} (enough : least ≤ 2) (small : n ≤ 99) (rest : Bytes) :
      digits? least 2 (padded 2 n ++ rest) = some (n, rest) :=
    digits?_padded (by omega) enough rest
  have step {α β : Type} {x : Option α} {a : α} {next : α → Option β} {b : β} (first : x = some a)
      (later : next a = some b) : (x >>= next) = some b := by rw [first]; exact later
  simp only [List.append_assoc]
  refine step (digits?_padded (by omega) (Nat.le_refl 4) _) <| step (Bytes.after?_append ..) ?_
  refine step (two (Nat.le_refl 2) months _) <| step (Bytes.after?_append ..) ?_
  refine step (two (Nat.le_refl 2) days _) <| step (Bytes.after?_append ..) ?_
  refine step (two (Nat.le_succ 1) (by omega) _) <| step (Bytes.after?_append ..) ?_
  refine step (two (Nat.le_refl 2) (by omega) _) <| step (Bytes.after?_append ..) ?_
  refine step (two (Nat.le_refl 2) (by omega) _) ?_
  simp only [places_point fits]
  refine step (show zone? (utf8 "Z") = some 0 from rfl) ?_
  rw [guard, if_pos ⟨hours, minutes, seconds, date⟩, Int.zero_mul, Int.sub_zero]
  rfl

theorem bounds_of_isDate {c : Civil} (date : c.isDate = true) :
    c.month ≤ 12 ∧ 0 < c.day ∧ c.day ≤ 31 := by
  rw [Civil.isDate] at date
  split at date
  next length found =>
    obtain ⟨inside, rfl⟩ := List.getElem?_eq_some_iff.mp found
    have most : (monthLengths c.year)[c.month - 1] ≤ 31 := by
      have all : ∀ length ∈ monthLengths c.year, length ≤ 31 := by
        rw [monthLengths]
        split <;> decide
      exact all _ (List.getElem_mem inside)
    have twelve : (monthLengths c.year).length = 12 := rfl
    simp only [Bool.and_eq_true, decide_eq_true_eq] at date
    omega
  next => cases date

/-- An instant is read back from its text. -/
theorem parse?_text {t : Instant} {text : Bytes} (written : t.text? = some text) :
    parse? text = some t := by
  obtain ⟨back, date⟩ := civil_spec t
  obtain ⟨month_le, day_pos, day_le⟩ := bounds_of_isDate date
  have clock : 0 ≤ t.civil.time ∧ t.civil.time < perDay :=
    ⟨Int.emod_nonneg _ (by decide), Int.emod_lt_of_pos _ (by decide)⟩
  rw [text?] at written
  generalize t.civil = c at *
  obtain ⟨year, month, day, time⟩ := c
  simp only at *
  split at written
  · cases written
  next years =>
    rw [not_or, Int.not_lt, Int.not_lt] at years
    obtain ⟨year, rfl⟩ := Int.eq_ofNat_of_zero_le years.1
    obtain ⟨day, rfl⟩ := Int.eq_ofNat_of_zero_le (Int.le_of_lt day_pos)
    obtain ⟨time, rfl⟩ := Int.eq_ofNat_of_zero_le clock.1
    have seconds : (time : Int) / perSecond = (time / 1000000000 : Nat) := rfl
    have nanos : (time : Int) % perSecond = (time % 1000000000 : Nat) := rfl
    have whole : (((time / 1000000000 / 3600 : Nat) * 3600 +
        (time / 1000000000 / 60 % 60 : Nat) * 60 + (time / 1000000000 % 60 : Nat)) * perSecond +
        (time % 1000000000 : Nat) : Int) = time := by
      simp only [perSecond]
      omega
    have hours : time / 1000000000 / 3600 < 24 := by
      simp only [perDay, perSecond] at clock
      omega
    have read := parse?_spelled (Int.ofNat_le.mp years.2) (show month ≤ 99 by omega)
      (show day ≤ 99 by omega) hours (Nat.mod_lt (time / 1000000000 / 60) (by decide))
      (Nat.mod_lt (time / 1000000000) (by decide)) (Nat.mod_lt time (by decide))
      (by rw [whole]; exact date)
    rw [whole, back] at read
    rw [← Option.some.inj written, ← read, seconds, nanos]
    rfl

end Text

end Instant
end StackBound
