import Mathlib.Data.List.Basic
import StackBound.Proofs.Text.Decimal
import StackBound.Proofs.Text.Lines
import StackBound.Proofs.Text.Words
import StackBound.StackUsage.Record

/-! Reading a stack-usage listing. Each line that is not blank becomes either a record or a skipped line,
and it becomes a record exactly if it is written as one. -/
namespace StackBound.StackUsage

/-- A line that records a frame. Its first word has four or more parts between colons, of which the
fourth is the name, and its second word is a number that fits. -/
def Record.Spells (r : Record) (line : Bytes) : Prop :=
  ∃ identifier size more, line.HasFields (identifier :: size :: more) ∧
    (∃ a b c rest, identifier = Bytes.join [colon] (a :: b :: c :: r.name :: rest) ∧
      (∀ part ∈ a :: b :: c :: r.name :: rest, colon ∉ part) ∧ r.name ≠ []) ∧
    ∃ value : Int, Bytes.Numeral size value ∧ 0 ≤ value ∧ value ≤ 2 ^ 63 - 1 ∧ r.size.toInt = value

theorem Record.parse_eq_ok_iff {line : Bytes} {r : Record} :
    Record.parse line = .ok r ↔ r.Spells line := by
  constructor
  · intro parsed
    rw [Record.parse] at parsed
    split at parsed
    next identifier size more words =>
      split at parsed
      next a b c name rest parts =>
        split at parsed
        · cases parsed
        next named =>
          split at parsed
          next n number =>
            split at parsed
            · cases parsed
            next small =>
              obtain rfl := Except.ok.inj parsed
              obtain ⟨-, joined, free⟩ := Bytes.split_eq_iff.mp parts
              rw [Int64.lt_iff_toInt_lt, Int.not_lt] at small
              exact ⟨identifier, size, more, Bytes.fields_eq_iff.mp words,
                ⟨a, b, c, rest, joined, free, named⟩, n.toInt, Bytes.toInt64?_eq_some_iff.mp number,
                small, Int.le_sub_one_of_lt (Int64.toInt_lt n), rfl⟩
          next => cases parsed
      next => cases parsed
    next => cases parsed
  · rintro ⟨identifier, size, more, words, ⟨a, b, c, rest, joined, free, named⟩, value, numeral,
      nonneg, -, rfl⟩
    have parts := Bytes.split_eq_iff.mpr ⟨List.cons_ne_nil _ _, joined, free⟩
    have small : ¬ r.size < 0 := by
      rw [Int64.lt_iff_toInt_lt, Int.not_lt]
      exact nonneg
    simp only [Record.parse, Bytes.fields_eq_iff.mpr words, parts, if_neg named,
      Bytes.toInt64?_eq_some_iff.mpr numeral, if_neg small]

namespace Listing

/-- What a line with a number becomes: nothing if it is blank, or else a record or a skipped line. -/
def reading? (line : Nat × Bytes) : Option (Record ⊕ Skipped) :=
  let text := line.2.trim
  if text = [] then none
  else match Record.parse text with
    | .ok record => some (.inl record)
    | .error fault => some (.inr ⟨Int64.ofNat line.1, text, fault.text⟩)

theorem add_eq (found : Listing) (line : Nat × Bytes) :
    add found line = match reading? line with
      | none => found
      | some (.inl record) => { found with records := record :: found.records }
      | some (.inr skipped) => { found with skipped := skipped :: found.skipped } := by
  simp only [add, reading?]
  split
  · rfl
  · cases Record.parse line.2.trim <;> rfl

theorem foldl_add (lines : List (Nat × Bytes)) (found : Listing) :
    lines.foldl add found =
      ⟨((lines.filterMap reading?).filterMap Sum.getLeft?).reverse ++ found.records,
        ((lines.filterMap reading?).filterMap Sum.getRight?).reverse ++ found.skipped⟩ := by
  induction lines generalizing found with
  | nil => rfl
  | cons line rest ih =>
    rw [List.foldl_cons, ih, add_eq]
    cases becomes : reading? line with
    | none => simp [becomes]
    | some entry => cases entry <;> simp [becomes, List.filterMap_cons]

theorem isSome_reading? (line : Nat × Bytes) : (reading? line).isSome = decide (line.2.trim ≠ []) := by
  simp only [reading?]
  split
  next blank => simp [blank]
  next text => cases Record.parse line.2.trim <;> simp [text]

variable {content : Bytes}

theorem parse_of_short (short : ∀ line ∈ Lines.raw content, line.length < lineLimit) :
    parse content = .ok (ofLines
      ((Lines.raw content).mapIdx fun i line => (i + 1, Lines.withoutReturn line))) := by
  rw [parse, Lines.ofContent_of_short short, Lines.numbered_map]
  rfl

theorem parse_of_long (long : ∃ line ∈ Lines.raw content, lineLimit ≤ line.length) :
    parse content = .error (.during (utf8 "read") .lineTooLong) := by
  rw [parse, if_pos (Lines.tooLong_iff.mpr long)]

/-- Reading fails exactly if a line is too long. Otherwise each line that is not blank becomes one
entry, a record or a skipped line with its number and what is wrong with it; blank lines count but
become nothing. A line becomes a record exactly if it is written as one, and then that record. -/
theorem parse_accounts (content : Bytes) :
    let lines := (Lines.raw content).mapIdx fun i line => (i + 1, Lines.withoutReturn line)
    let entries := lines.filterMap reading?
    ((∃ fault, parse content = .error fault) ↔ ∃ line ∈ Lines.raw content, 1048576 ≤ line.length) ∧
    ((∀ line ∈ Lines.raw content, line.length < 1048576) → parse content =
      .ok ⟨entries.filterMap Sum.getLeft?, entries.filterMap Sum.getRight?⟩) ∧
    (∀ line, (reading? line).isSome = decide (line.2.trim ≠ [])) ∧
    ∀ line r, Record.parse line = .ok r ↔ r.Spells line := by
  intro lines entries
  refine ⟨⟨fun failed => ?_, fun long => ⟨_, parse_of_long long⟩⟩, fun short => ?_, isSome_reading?,
    fun line r => Record.parse_eq_ok_iff⟩
  · by_contra none
    obtain ⟨fault, failed⟩ := failed
    have short : ∀ line ∈ Lines.raw content, line.length < lineLimit := fun line member =>
      Nat.lt_of_not_le fun tooLong => none ⟨line, member, tooLong⟩
    rw [parse_of_short short] at failed
    cases failed
  · rw [parse_of_short short, ofLines, foldl_add]
    simp only [List.append_nil, List.reverse_reverse]
    rfl

/-- A listing with a record, a blank line and a line that has no name of a function. -/
theorem parse_accounts_mixed :
    let content := utf8 "a.c:1:1:main\t+16\tstatic\r\n \nmain 16\n"
    (∀ line ∈ Lines.raw content, line.length < 1048576) ∧ parse content =
      .ok ⟨[⟨utf8 "main", 16⟩],
        [⟨3, utf8 "main 16", utf8 "identifier has no function name field"⟩]⟩ := by
  intro content
  have short : ∀ line ∈ Lines.raw content, line.length < 1048576 := by decide +kernel
  refine ⟨short, ?_⟩
  rw [(parse_accounts content).2.1 short]
  rfl

end Listing
end StackBound.StackUsage
