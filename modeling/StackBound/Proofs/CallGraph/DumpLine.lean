import StackBound.CallGraph.Dump
import StackBound.Proofs.Text.Lines
import StackBound.Proofs.Text.Run
import StackBound.Proofs.Text.Words

/-! The lines that a scan of a dump knows. Runs of bytes are taken as long as they go, and this finds
just the parts of a line: whatever ends a part cannot belong to it, so there is no other way to cut the
line. A carriage return at the end of a line makes no difference. -/
namespace StackBound

namespace CallGraph.Dump

def IsSpace (b : UInt8) : Prop := b = 9 ∨ b = 12 ∨ b = 13 ∨ b = 32

theorem isGap_iff {b : UInt8} (inner : b ≠ 10) : isGap b = true ↔ IsSpace b := by
  simp [isGap, IsSpace, inner, or_assoc]

theorem isGap_of_isSpace {b : UInt8} (space : IsSpace b) : isGap b = true := by
  rcases space with rfl | rfl | rfl | rfl <;> rfl

structure Opening where
  stem : Bytes
  number : Bytes
  gap : Bytes
  name : Name
  rest : Bytes

namespace Opening

def definition (p : Opening) : Definition := ⟨p.stem ++ utf8 "/" ++ p.number, p.name⟩

def afterName (p : Opening) : Bytes := utf8 ")" ++ p.rest
def afterGap (p : Opening) : Bytes := utf8 "(" ++ (p.name ++ p.afterName)
def afterNumber (p : Opening) : Bytes := p.gap ++ p.afterGap
def afterStem (p : Opening) : Bytes := utf8 "/" ++ (p.number ++ p.afterNumber)

structure Spells (p : Opening) (line : Bytes) : Prop where
  whole : line = p.stem ++ utf8 "/" ++ p.number ++ p.gap ++ utf8 "(" ++ p.name ++ utf8 ")" ++ p.rest
  stem : p.stem ≠ [] ∧ ∀ b ∈ p.stem, isSymbolByte b = true
  number : p.number ≠ [] ∧ ∀ b ∈ p.number, Bytes.isDigit b = true
  gap : p.gap ≠ [] ∧ ∀ b ∈ p.gap, IsSpace b
  name : p.name ≠ [] ∧ ∀ b ∈ p.name, isSymbolByte b = true

variable {p q : Opening} {line : Bytes}

theorem Spells.line_eq (h : p.Spells line) : line = p.stem ++ p.afterStem := by
  simp [h.whole, afterStem, afterNumber, afterGap, afterName]

/-- No part can be longer: a slash is no letter, space no digit, and a parenthesis neither. -/
theorem Spells.runs (h : p.Spells line) :
    Bytes.Run isSymbolByte line p.stem p.afterStem ∧
      Bytes.Run Bytes.isDigit (p.number ++ p.afterNumber) p.number p.afterNumber ∧
      Bytes.Run isGap p.afterNumber p.gap p.afterGap ∧
      Bytes.Run isSymbolByte (p.name ++ p.afterName) p.name p.afterName := by
  have starts {accept : UInt8 → Bool} {mark : UInt8} {rest : Bytes} (other : accept mark = false) :
      ∀ b ∈ (mark :: rest).head?, accept b = false := by
    rintro b first
    obtain rfl : mark = b := Option.some.inj first
    exact other
  refine ⟨⟨h.line_eq, h.stem.2, starts rfl⟩, ⟨rfl, h.number.2, ?_⟩,
    ⟨rfl, fun b member => isGap_of_isSpace (h.gap.2 b member), starts rfl⟩,
    ⟨rfl, h.name.2, starts rfl⟩⟩
  obtain ⟨space, more, gap⟩ := List.exists_cons_of_ne_nil h.gap.1
  rw [afterNumber, gap]
  refine starts ?_
  rcases h.gap.2 space (by simp [gap]) with rfl | rfl | rfl | rfl <;> rfl

/-- There is one way to cut a line into these parts. -/
theorem Spells.unique (h : p.Spells line) (h' : q.Spells line) : p = q := by
  obtain ⟨stems, numbers, gaps, names⟩ := h.runs
  obtain ⟨stems', numbers', gaps', names'⟩ := h'.runs
  obtain ⟨stem, left⟩ := stems.unique stems'
  rw [List.append_cancel_left left] at numbers
  obtain ⟨number, left⟩ := numbers.unique numbers'
  rw [left] at gaps
  obtain ⟨gap, left⟩ := gaps.unique gaps'
  rw [List.append_cancel_left left] at names
  obtain ⟨name, left⟩ := names.unique names'
  cases p
  cases q
  exact Opening.mk.injEq .. ▸ ⟨stem, number, gap, name, List.append_cancel_left left⟩

end Opening

variable {line : Bytes}

theorem definition?_eq_some_iff (whole : 10 ∉ line) {d : Definition} :
    definition? line = some d ↔ ∃ p : Opening, p.Spells line ∧ p.definition = d := by
  simp only [definition?, Option.bind_eq_bind, Option.bind_eq_some_iff, Option.pure_def,
    Option.some.injEq, Prod.exists, Bytes.run?_eq_some_iff, Bytes.after?_eq_some_iff]
  constructor
  · rintro ⟨stem, _, ⟨stems, stem_ne⟩, _, rfl, number, _, ⟨numbers, number_ne⟩, gap, _,
      ⟨gaps, gap_ne⟩, _, rfl, name, _, ⟨names, name_ne⟩, rest, rfl, rfl⟩
    refine ⟨⟨stem, number, gap, name, rest⟩, ⟨?_, ⟨stem_ne, stems.accepted⟩,
      ⟨number_ne, numbers.accepted⟩, ⟨gap_ne, fun b member => ?_⟩, ⟨name_ne, names.accepted⟩⟩, rfl⟩
    · simp [stems.whole, numbers.whole, gaps.whole, names.whole]
    · refine (isGap_iff ?_).mp (gaps.accepted b member)
      rintro rfl
      exact whole (by simp [stems.whole, numbers.whole, gaps.whole, member])
  · rintro ⟨p, h, rfl⟩
    obtain ⟨stems, numbers, gaps, names⟩ := h.runs
    exact ⟨_, _, ⟨stems, h.stem.1⟩, _, rfl, _, _, ⟨numbers, h.number.1⟩, _, _, ⟨gaps, h.gap.1⟩, _, rfl,
      _, _, ⟨names, h.name.1⟩, _, rfl, rfl⟩

/-- A line that lists what a definition calls. -/
def IsListing (line : Bytes) : Prop :=
  ∃ gap rest, line = gap ++ utf8 "Calls:" ++ rest ∧ ∀ b ∈ gap, IsSpace b

/-- A line that lists these identifiers, as the words behind `Calls:`. -/
def Refers (line : Bytes) (refs : List Bytes) : Prop :=
  ∃ gap rest, line = gap ++ utf8 "Calls:" ++ rest ∧ (∀ b ∈ gap, IsSpace b) ∧ rest.HasFields refs

theorem isListing_iff : IsListing line ↔ ∃ refs, Refers line refs := by
  constructor
  · rintro ⟨gap, rest, same, spaces⟩
    exact ⟨rest.fields, gap, rest, same, spaces, Bytes.fields_eq_iff.mp rfl⟩
  · rintro ⟨refs, gap, rest, same, spaces, -⟩
    exact ⟨gap, rest, same, spaces⟩

theorem fields_dropWhile (text : Bytes) : Bytes.fields (text.dropWhile isGap) = text.fields := by
  induction text with
  | nil => rfl
  | cons b rest ih =>
    by_cases gap : isGap b = true
    · have blank : b.toNat < 128 ∧ isBlank (Char.ofNat b.toNat) = true := by
        simp only [isGap, Bool.or_eq_true, beq_iff_eq] at gap
        rcases gap with (((rfl | rfl) | rfl) | rfl) | rfl <;> decide
      rw [List.dropWhile_cons_of_pos gap, ih, Bytes.fields_cons blank.1 blank.2]
    · rw [List.dropWhile_cons_of_neg gap]

theorem calls?_eq_some_iff (whole : 10 ∉ line) {refs : List Bytes} :
    calls? line = some refs ↔ Refers line refs := by
  simp only [Refers, calls?, Option.map_eq_some_iff, Bytes.after?_eq_some_iff, fields_dropWhile,
    Bytes.fields_eq_iff]
  have taken := Bytes.run_takeWhile isGap line
  constructor
  · rintro ⟨rest, left, words⟩
    refine ⟨_, rest, (by rw [List.append_assoc, ← left, ← taken.whole]), fun b member => ?_, words⟩
    refine (isGap_iff ?_).mp (taken.accepted b member)
    rintro rfl
    exact whole (List.takeWhile_subset _ member)
  · rintro ⟨gap, rest, same, spaces, words⟩
    have run : Bytes.Run isGap line gap (utf8 "Calls:" ++ rest) := by
      refine ⟨same.trans (List.append_assoc ..), fun b member => isGap_of_isSpace (spaces b member), ?_⟩
      rintro b first
      obtain rfl : 67 = b := Option.some.inj first
      rfl
    exact ⟨rest, run.takeWhile_eq.2, words⟩

theorem definition?_eq_none_iff (whole : 10 ∉ line) :
    definition? line = none ↔ ∀ p : Opening, ¬ p.Spells line := by
  simp [Option.eq_none_iff_forall_ne_some, definition?_eq_some_iff whole]

theorem calls?_eq_none_iff (whole : 10 ∉ line) : calls? line = none ↔ ¬ IsListing line := by
  simp [Option.eq_none_iff_forall_ne_some, calls?_eq_some_iff whole, isListing_iff]

/-- A line that lists calls has a colon where an identifier goes on. -/
theorem not_isListing_of_spells {p : Opening} (h : p.Spells line) : ¬ IsListing line := by
  rintro ⟨gap, rest, same, spaces⟩
  have stems := h.runs.1
  have symbols : Bytes.Run isSymbolByte (utf8 "Calls" ++ utf8 ":" ++ rest) (utf8 "Calls")
      (utf8 ":" ++ rest) := by
    refine ⟨List.append_assoc .., by decide +kernel, ?_⟩
    rintro b first
    obtain rfl : 58 = b := Option.some.inj first
    rfl
  cases gap with
  | nil =>
    have left : 47 :: (p.number ++ p.afterNumber) = 58 :: rest :=
      (stems.unique (same ▸ symbols)).2
    exact absurd (List.cons.inj left).1 (by decide)
  | cons b more =>
    obtain ⟨first, stem, letters⟩ := List.exists_cons_of_ne_nil h.stem.1
    have starts := stems.whole
    rw [same, letters] at starts
    obtain rfl : b = first := (List.cons.inj starts).1
    have symbol := h.stem.2 b (by simp [letters])
    rcases spaces b (by simp) with rfl | rfl | rfl | rfl <;> cases symbol

/-- What stands behind a mark of a line takes the carriage return at its end. -/
theorem rest_of_return {front rest : Bytes} {mark : UInt8} (other : mark ≠ 13)
    (same : line ++ [13] = front ++ mark :: rest) :
    ∃ rest', rest = rest' ++ [13] ∧ line = front ++ mark :: rest' := by
  rcases List.eq_nil_or_concat rest with rfl | ⟨rest', last, rfl⟩
  · obtain ⟨-, last⟩ := List.append_inj' same rfl
    exact absurd (List.cons.inj last).1.symm other
  · rw [List.concat_eq_append] at same ⊢
    rw [← List.cons_append, ← List.append_assoc] at same
    obtain ⟨rfl, last⟩ := List.append_inj' same rfl
    exact ⟨rest', by rw [last], rfl⟩

theorem spells_return {d : Definition} :
    (∃ p : Opening, p.Spells (line ++ [13]) ∧ p.definition = d) ↔
      ∃ p : Opening, p.Spells line ∧ p.definition = d := by
  constructor
  · rintro ⟨p, h, rfl⟩
    have whole : line ++ [13] = (p.stem ++ utf8 "/" ++ p.number ++ p.gap ++ utf8 "(" ++ p.name) ++
        41 :: p.rest := h.whole.trans (List.append_assoc ..)
    obtain ⟨rest, -, same⟩ := rest_of_return (by decide) whole
    exact ⟨{ p with rest := rest },
      ⟨same.trans (List.append_assoc _ (utf8 ")") rest).symm, h.stem, h.number, h.gap, h.name⟩, rfl⟩
  · rintro ⟨p, h, rfl⟩
    exact ⟨{ p with rest := p.rest ++ [13] },
      ⟨by rw [h.whole, List.append_assoc], h.stem, h.number, h.gap, h.name⟩, rfl⟩

theorem isListing_return : IsListing (line ++ [13]) ↔ IsListing line := by
  have colon (gap rest : Bytes) :
      gap ++ utf8 "Calls:" ++ rest = (gap ++ utf8 "Calls") ++ 58 :: rest := by
    have word : utf8 "Calls:" = utf8 "Calls" ++ [58] := by decide
    simp [word]
  constructor
  · rintro ⟨gap, rest, same, spaces⟩
    obtain ⟨rest', -, shorter⟩ := rest_of_return (by decide) (same.trans (colon gap rest))
    exact ⟨gap, rest', shorter.trans (colon gap rest').symm, spaces⟩
  · rintro ⟨gap, rest, rfl, spaces⟩
    exact ⟨gap, rest ++ [13], List.append_assoc .., spaces⟩

/-- A line that is read as a definition, whatever was found before it. -/
def Scan.Defines (line : Bytes) (d : Definition) : Prop :=
  ∀ s : Scan, s.step line = ⟨d :: s.definitions, s.calls, some d.name⟩

/-- A line that is read as the list of whatever definition is waiting for one. -/
def Scan.Lists (line : Bytes) (refs : List Bytes) : Prop :=
  ∀ (s : Scan) (caller : Name), s.current = some caller →
    s.step line = ⟨s.definitions, ⟨caller, refs⟩ :: s.calls, none⟩

theorem Scan.defines_iff {d : Definition} : Defines line d ↔ definition? line = some d := by
  constructor
  · intro defines
    have step := defines ⟨[], [], none⟩
    rw [Scan.step] at step
    cases found : definition? line with
    | none => simp [found] at step
    | some d' =>
      simp only [found, Scan.mk.injEq, List.cons.injEq, and_true] at step
      rw [step.1]
  · intro found s
    simp only [Scan.step, found]

theorem Scan.lists_iff {refs : List Bytes} :
    Lists line refs ↔ definition? line = none ∧ calls? line = some refs := by
  constructor
  · intro lists
    have step := lists ⟨[], [], some []⟩ [] rfl
    rw [Scan.step] at step
    cases found : definition? line with
    | some d => simp [found] at step
    | none =>
      cases listed : calls? line with
      | none => simp [found, listed] at step
      | some refs' =>
        simp only [found, listed, Scan.mk.injEq, List.cons.injEq, CallList.mk.injEq, true_and,
          and_true] at step
        rw [step]
        exact ⟨rfl, rfl⟩
  · rintro ⟨found, listed⟩ s caller waiting
    simp only [Scan.step, found, waiting, listed]

/-- A scan takes a line for a definition exactly if the line has the parts of one, and these tell
identifier and name, as a line has such parts in one way at most. It takes a line for a list of calls
exactly if `Calls:` starts the line behind space. No line is both. -/
theorem step_exact (line : Bytes) (whole : Lines.newline ∉ line) :
    (∀ d, Scan.Defines (Lines.withoutReturn line) d ↔
      ∃ p : Opening, p.Spells line ∧ p.definition = d) ∧
    (∀ p q : Opening, p.Spells line → q.Spells line → p = q) ∧
    ((∃ refs, Scan.Lists (Lines.withoutReturn line) refs) ↔ IsListing line) ∧
    ¬ ((∃ p : Opening, p.Spells line) ∧ IsListing line) := by
  have inner : 10 ∉ Lines.withoutReturn line := Lines.free_withoutReturn whole
  have opening (d : Definition) :
      (∃ p : Opening, p.Spells (Lines.withoutReturn line) ∧ p.definition = d) ↔
        ∃ p : Opening, p.Spells line ∧ p.definition = d := by
    rcases Lines.withoutReturn_cases line with same | longer
    · rw [same]
    · conv_rhs => rw [longer]
      exact spells_return.symm
  have listing : IsListing (Lines.withoutReturn line) ↔ IsListing line := by
    rcases Lines.withoutReturn_cases line with same | longer
    · rw [same]
    · conv_rhs => rw [longer]
      exact isListing_return.symm
  refine ⟨fun d => ?_, fun p q h h' => h.unique h', ?_, fun ⟨⟨p, h⟩, lists⟩ =>
    not_isListing_of_spells h lists⟩
  · rw [Scan.defines_iff, definition?_eq_some_iff inner, opening]
  · rw [← listing]
    simp only [Scan.lists_iff, calls?_eq_some_iff inner, definition?_eq_none_iff inner, exists_and_left,
      ← isListing_iff]
    exact and_iff_right_of_imp fun lists p h => not_isListing_of_spells h lists

/-- A clone with a tab and two spaces before its name, and a carriage return at the end. -/
theorem step_exact_clone :
    let line := utf8 "isr.part.0/12\t  (isr) @0x1f\r"
    Lines.newline ∉ line ∧ Scan.Defines (Lines.withoutReturn line) ⟨utf8 "isr.part.0/12", utf8 "isr"⟩ ∧
      ¬ IsListing line := by
  intro line
  have whole : Lines.newline ∉ line := by decide +kernel
  obtain ⟨defines, -, -, apart⟩ := step_exact line whole
  have spells : Opening.Spells
      ⟨utf8 "isr.part.0", utf8 "12", utf8 "\t  ", utf8 "isr", utf8 " @0x1f\r"⟩ line := by
    have spaces : ∀ b ∈ utf8 "\t  ", b = 9 ∨ b = 12 ∨ b = 13 ∨ b = 32 := by decide +kernel
    refine ⟨?_, ⟨?_, ?_⟩, ⟨?_, ?_⟩, ⟨?_, spaces⟩, ⟨?_, ?_⟩⟩
    all_goals decide +kernel
  exact ⟨whole, (defines _).mpr ⟨_, spells, rfl⟩, fun lists => apart ⟨⟨_, spells⟩, lists⟩⟩

end CallGraph.Dump
end StackBound
