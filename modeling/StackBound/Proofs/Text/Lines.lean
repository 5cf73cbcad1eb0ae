import Mathlib.Data.List.TakeWhile
import StackBound.Proofs.FirstSeen
import StackBound.Proofs.Path
import StackBound.Text.Lines

/-! The lines of a text. A newline ends a line, and whatever stands behind the last newline is a line
of its own. Reading with a limit gives all lines, or those before the first one that is too long. -/
namespace StackBound.Lines

/-- A text and the lines it consists of. Only the last line may lack its newline, and then it is not
empty. -/
inductive Spelled : Bytes → List Bytes → Prop
  | nothing : Spelled [] []
  | unended {line : Bytes} (free : newline ∉ line) (some : line ≠ []) : Spelled line [line]
  | ended {line rest : Bytes} {lines : List Bytes} (free : newline ∉ line)
      (later : Spelled rest lines) : Spelled (line ++ newline :: rest) (line :: lines)

variable {content line rest : Bytes} {lines : List Bytes}

theorem raw_eq (content : Bytes) :
    raw content = if (content.split newline).getLast? = some [] then
      (content.split newline).dropLast else content.split newline := by
  have parts := List.reverse_reverse (content.split newline)
  rw [raw]
  split
  next earlier last =>
    rw [last, List.reverse_cons] at parts
    rw [← parts]
    simp
  next last =>
    rw [List.reverse_reverse, if_neg]
    intro empty
    rw [List.getLast?_eq_head?_reverse] at empty
    obtain ⟨earlier, same⟩ := List.head?_eq_some_iff.mp empty
    exact last earlier same

@[simp] theorem raw_nil : raw [] = [] := rfl

theorem raw_of_free (free : newline ∉ line) (some : line ≠ []) : raw line = [line] := by
  rw [raw_eq, Bytes.split_of_not_mem free, if_neg]
  simpa using some

theorem raw_append_newline (free : newline ∉ line) (rest : Bytes) :
    raw (line ++ newline :: rest) = line :: raw rest := by
  obtain ⟨part, more, parts⟩ := List.exists_cons_of_ne_nil (Bytes.split_ne_nil newline rest)
  rw [raw_eq, raw_eq, Bytes.split_append_sep, Bytes.split_of_not_mem free, List.singleton_append,
    parts, List.getLast?_cons_cons, List.dropLast_cons_cons]
  split <;> rfl

theorem Spelled.raw_eq (spelled : Spelled content lines) : raw content = lines := by
  induction spelled with
  | nothing => rfl
  | unended free some => exact raw_of_free free some
  | ended free later ih => rw [raw_append_newline free, ih]

theorem spelled_raw (content : Bytes) : Spelled content (raw content) := by
  induction long : content.length using Nat.strongRecOn generalizing content with
  | ind n ih =>
    by_cases ended : newline ∈ content
    · obtain ⟨line, rest, rfl, free⟩ := List.eq_append_cons_of_mem ended
      rw [raw_append_newline free]
      refine .ended free (ih rest.length ?_ rest rfl)
      rw [← long, List.length_append, List.length_cons]
      omega
    · by_cases empty : content = []
      · subst empty
        exact .nothing
      · rw [raw_of_free ended empty]
        exact .unended ended empty

/-- A text has exactly one list of lines. -/
theorem raw_eq_iff : raw content = lines ↔ Spelled content lines :=
  ⟨fun same => same ▸ spelled_raw content, Spelled.raw_eq⟩

theorem Spelled.free (spelled : Spelled content lines) : ∀ line ∈ lines, newline ∉ line := by
  induction spelled with
  | nothing => simp
  | unended free some => exact List.forall_mem_singleton.mpr free
  | ended free later ih => exact List.forall_mem_cons.mpr ⟨free, ih⟩

/-- The lines of a text that ends with a newline are followed by those of what comes after it. -/
theorem raw_append (ended : content.getLast? = some newline) (next : Bytes) :
    raw (content ++ next) = raw content ++ raw next := by
  have spelled := spelled_raw content
  generalize raw content = lines at spelled
  induction spelled with
  | nothing => cases ended
  | unended free some => exact absurd (List.mem_of_getLast? ended) free
  | @ended line rest lines free later ih =>
    rw [List.append_assoc, List.cons_append, raw_append_newline free, List.cons_append]
    congr 1
    by_cases last : rest = []
    · subst last
      rw [← later.raw_eq]
      rfl
    · rw [List.getLast?_append, List.getLast?_cons_of_ne_nil last,
        List.getLast?_eq_some_getLast last, Option.some_or] at ended
      exact ih (List.getLast?_eq_some_getLast last ▸ ended)

theorem withoutReturn_cases (line : Bytes) :
    withoutReturn line = line ∨ line = withoutReturn line ++ [13] := by
  rw [withoutReturn]
  split
  next ends =>
    obtain ⟨before, rfl⟩ := List.getLast?_eq_some_iff.mp ends
    exact .inr (by rw [List.dropLast_concat])
  next => exact .inl rfl

theorem free_withoutReturn (free : newline ∉ line) : newline ∉ withoutReturn line := by
  rcases withoutReturn_cases line with same | longer
  · rwa [same]
  · rw [longer] at free
    exact fun member => free (List.mem_append_left _ member)

theorem numbered_map (lines : List Bytes) (stopped : Bool) :
    numbered ⟨lines.map withoutReturn, stopped⟩ =
      lines.mapIdx fun i line => (i + 1, withoutReturn line) := by
  refine List.ext_getElem? fun i => ?_
  simp only [numbered, List.getElem?_mapIdx, List.getElem?_map, Option.map_map]
  rfl

section Limit

variable {limit : Nat}

/-- Without a line that is too long, all lines are read. -/
theorem ofContent_of_short (short : ∀ line ∈ raw content, line.length < limit) :
    ofContent limit content = ⟨(raw content).map withoutReturn, false⟩ := by
  have all : (raw content).takeWhile (fun line => decide (line.length < limit)) = raw content :=
    List.takeWhile_eq_self_iff.mpr fun line member => decide_eq_true (short line member)
  rw [ofContent, all, decide_eq_false (Nat.lt_irrefl _)]

/-- Reading ends before the first line that is too long. -/
theorem ofContent_of_long {before after : List Bytes} {long : Bytes}
    (found : raw content = before ++ long :: after) (short : ∀ line ∈ before, line.length < limit)
    (tooLong : limit ≤ long.length) :
    ofContent limit content = ⟨before.map withoutReturn, true⟩ := by
  have stopped : (raw content).takeWhile (fun line => decide (line.length < limit)) = before := by
    rw [found, List.takeWhile_append_of_pos fun line member => decide_eq_true (short line member),
      List.takeWhile_cons_of_neg (by simpa using tooLong), List.append_nil]
  rw [ofContent, stopped, found, List.length_append, List.length_cons]
  simp only [decide_eq_true_eq, Lines.mk.injEq, true_and]
  omega

/-- A line that is too long has a first one before it. -/
theorem exists_first_long (long : ∃ line ∈ lines, limit ≤ line.length) :
    ∃ before line after, lines = before ++ line :: after ∧
      (∀ line ∈ before, line.length < limit) ∧ limit ≤ line.length := by
  obtain ⟨before, line, after, found, short, tooLong⟩ := exists_first long
  exact ⟨before, line, after, found, fun line member => Nat.not_le.mp (short line member), tooLong⟩

theorem tooLong_iff :
    (ofContent limit content).tooLong = true ↔ ∃ line ∈ raw content, limit ≤ line.length := by
  by_cases long : ∃ line ∈ raw content, limit ≤ line.length
  · obtain ⟨before, line, after, found, short, tooLong⟩ := exists_first_long long
    rw [ofContent_of_long found short tooLong]
    exact iff_of_true rfl long
  · have short : ∀ line ∈ raw content, line.length < limit := fun line member =>
      Nat.lt_of_not_le fun tooLong => long ⟨line, member, tooLong⟩
    rw [ofContent_of_short short]
    exact iff_of_false Bool.false_ne_true long

end Limit

end StackBound.Lines
