import StackBound.Annotation
import StackBound.Proofs.CallGraph.Resolution
import StackBound.Proofs.Path
import StackBound.Proofs.Text.Lines

/-! Reading annotated calls. What a line adds to the calls and to the warnings is fixed by its commas, and
a set lists the calls in the order in which they first stand in the file. -/
namespace StackBound.Annotations

open CallGraph (Edge)

def malformed (source : Bytes) (number : Nat) (text : Bytes) : Warning :=
  .skipped source (Int64.ofNat number) (utf8 "skipping malformed annotation " ++ text.quoted ++
    utf8 ": expected format caller_function,callee_function")

/-- What a line with a number adds to the calls and to the warnings, by its text without the white
space around it. -/
inductive Gives (source : Bytes) (number : Nat) : Bytes → List Edge → List Warning → Prop
  | empty : Gives source number [] [] []
  | comment {text : Bytes} (starts : text.head? = some hash) : Gives source number text [] []
  | call {left right : Bytes} (starts : (left ++ comma :: right).head? ≠ some hash)
      (before : comma ∉ left) (after : comma ∉ right) (caller : left.trim ≠ [])
      (callee : right.trim ≠ []) :
      Gives source number (left ++ comma :: right)
        [⟨Name.normalize left.trim, Name.normalize right.trim⟩] []
  | nameless {left right : Bytes} (starts : (left ++ comma :: right).head? ≠ some hash)
      (before : comma ∉ left) (after : comma ∉ right) (missing : left.trim = [] ∨ right.trim = []) :
      Gives source number (left ++ comma :: right) []
        [malformed source number (left ++ comma :: right)]
  | unpaired {text : Bytes} (spoken : text ≠ []) (starts : text.head? ≠ some hash)
      (commas : text.count comma ≠ 1) :
      Gives source number text [] [malformed source number text]

/-- What lines add together, each in its place. The first has the given number. -/
inductive Adds (source : Bytes) : Nat → List Bytes → List Edge → List Warning → Prop
  | nothing {number : Nat} : Adds source number [] [] []
  | line {number : Nat} {line : Bytes} {rest : List Bytes} {calls more : List Edge}
      {warnings others : List Warning}
      (gives : Gives source number (Lines.withoutReturn line).trim calls warnings)
      (later : Adds source (number + 1) rest more others) :
      Adds source number (line :: rest) (calls ++ more) (warnings ++ others)

namespace Line

variable {source raw text left right : Bytes} {number : Nat} {calls : List Edge}
  {warnings : List Warning}

theorem split_pair (before : comma ∉ left) (after : comma ∉ right) :
    (left ++ comma :: right).split comma = [left, right] := by
  rw [Bytes.split_append_sep, Bytes.split_of_not_mem before, Bytes.split_of_not_mem after]
  rfl

theorem count_pair (before : comma ∉ left) (after : comma ∉ right) :
    (left ++ comma :: right).count comma = 1 := by
  rw [List.count_append, List.count_cons_self, List.count_eq_zero.mpr before,
    List.count_eq_zero.mpr after]

theorem count_of_split (parts : text.split comma = [left, right]) : text.count comma = 1 := by
  obtain ⟨-, rfl, free⟩ := Bytes.split_eq_iff.mp parts
  rw [Bytes.join_cons left (List.cons_ne_nil _ _)]
  simpa [Bytes.join, List.intercalate] using
    count_pair (free left (by simp)) (free right (by simp))

/-- A text with one comma has something before it and something after it. -/
theorem exists_pair (commas : text.count comma = 1) :
    ∃ left right, text = left ++ comma :: right ∧ comma ∉ left ∧ comma ∉ right := by
  have member : comma ∈ text := List.count_pos_iff.mp (by omega)
  obtain ⟨left, right, rfl, before⟩ := List.eq_append_cons_of_mem member
  rw [List.count_append, List.count_cons_self, List.count_eq_zero.mpr before] at commas
  exact ⟨left, right, rfl, before, List.count_eq_zero.mp (by omega)⟩

/-- A line gives what it is read as. -/
theorem gives_parse (source : Bytes) (number : Nat) (raw : Bytes) :
    Gives source number raw.trim ((parse raw).call?.map normal).toList
      ((parse raw).warning? source number).toList := by
  simp only [parse]
  generalize raw.trim = text
  split
  next blank =>
    rcases blank with rfl | starts
    · exact .empty
    · exact .comment starts
  next spoken =>
    rw [not_or] at spoken
    by_cases commas : text.count comma = 1
    · obtain ⟨left, right, rfl, before, after⟩ := exists_pair commas
      simp only [split_pair before after]
      split
      next missing => exact .nameless spoken.2 before after missing
      next named =>
        rw [not_or] at named
        exact .call spoken.2 before after named.1 named.2
    · split
      next left right parts => exact absurd (count_of_split parts) commas
      next => exact .unpaired spoken.1 spoken.2 commas

/-- A line gives nothing else. -/
theorem eq_of_gives (gives : Gives source number raw.trim calls warnings) :
    calls = ((parse raw).call?.map normal).toList ∧
      warnings = ((parse raw).warning? source number).toList := by
  simp only [parse]
  generalize raw.trim = text at gives
  cases gives with
  | empty => exact ⟨rfl, rfl⟩
  | comment starts =>
    rw [if_pos (.inr starts)]
    exact ⟨rfl, rfl⟩
  | call starts before after caller callee =>
    rw [if_neg (by simpa using starts), split_pair before after]
    simp [caller, callee, call?, warning?, normal]
  | nameless starts before after missing =>
    rw [if_neg (by simpa using starts), split_pair before after]
    simp [missing, call?, warning?, Annotations.malformed]
  | unpaired spoken starts commas =>
    rw [if_neg (not_or.mpr ⟨spoken, starts⟩)]
    split
    next left right parts => exact absurd (count_of_split parts) commas
    next => exact ⟨rfl, rfl⟩

end Line

theorem toList_insert (s : Annotations) (call : CallGraph.Edge) :
    (s.insert call).toList =
      if s.has (normal call) = true then s.toList else s.toList ++ [normal call] := by
  by_cases known : s.has (normal call) = true
  · rw [if_pos known, show s.insert call = s from congrArg Prod.fst (if_pos known)]
  · rw [if_neg known, show s.insert call = ⟨s.entries.push (normal call), _⟩ from
      congrArg Prod.fst (if_neg known)]
    exact Array.toList_push

theorem toList_foldl_insert (calls : List CallGraph.Edge) (s : Annotations) :
    (calls.foldl insert s).toList =
      s.toList ++ ((calls.map normal).filter fun edge => !s.has edge).eraseDups := by
  induction calls generalizing s with
  | nil => simp
  | cons call rest ih =>
    have left (edge : CallGraph.Edge) :
        (!(s.insert call).has edge) = (!(edge == normal call) && !s.has edge) := by
      rw [Bool.eq_iff_iff, Bool.not_eq_true', Bool.eq_false_iff, Ne, has_insert, not_or, and_comm,
        eq_comm]
      simp
    rw [List.foldl_cons, ih, toList_insert, List.map_cons, funext left]
    by_cases known : s.has (normal call) = true
    · -- What the set has already is left out of the rest anyway.
      have same (edge : CallGraph.Edge) :
          (!(edge == normal call) && !s.has edge) = !s.has edge := by
        by_cases given : edge = normal call <;> simp [given, known]
      rw [if_pos known, funext same, List.filter_cons_of_neg (by simp [known])]
    · rw [if_neg known, List.filter_cons_of_pos (by simp [known]), List.eraseDups_cons,
        List.filter_filter, List.append_assoc, List.singleton_append]

/-- A set lists the normal forms of its calls, each where it was first given. -/
theorem toList_ofList (calls : List CallGraph.Edge) :
    (ofList calls).toList = (calls.map normal).eraseDups := by
  rw [ofList, toList_foldl_insert, List.filter_eq_self.mpr (by simp [has, empty])]
  rfl

variable {content source : Bytes}

def said (first : Nat) (lines : List Bytes) : List (Nat × Line) :=
  lines.mapIdx fun i line => (i + first, Line.parse (Lines.withoutReturn line))

theorem said_cons (first : Nat) (line : Bytes) (rest : List Bytes) :
    said first (line :: rest) =
      (first, Line.parse (Lines.withoutReturn line)) :: said (first + 1) rest := by
  simp only [said, List.mapIdx_cons, Nat.zero_add, Nat.add_right_comm, Nat.add_assoc]

theorem said_eq (lines : List Bytes) (stopped : Bool) :
    (Lines.numbered ⟨lines.map Lines.withoutReturn, stopped⟩).map
      (fun line => (line.1, Line.parse line.2)) = said 1 lines := by
  rw [Lines.numbered_map, said, List.mapIdx_eq_zipIdx_map, List.mapIdx_eq_zipIdx_map, List.map_map]
  rfl

def calls (lines : List (Nat × Line)) : List Edge := lines.filterMap fun line => line.2.call?

def warnings (source : Bytes) (lines : List (Nat × Line)) : List Warning :=
  lines.filterMap fun line => line.2.warning? source line.1

theorem calls_cons (first : Nat) (line : Bytes) (rest : List Bytes) :
    (calls (said first (line :: rest))).map normal =
      ((Line.parse (Lines.withoutReturn line)).call?.map normal).toList ++
        (calls (said (first + 1) rest)).map normal := by
  rw [said_cons, calls, List.filterMap_cons]
  cases (Line.parse (Lines.withoutReturn line)).call? <;> rfl

theorem warnings_cons (source : Bytes) (first : Nat) (line : Bytes) (rest : List Bytes) :
    warnings source (said first (line :: rest)) =
      ((Line.parse (Lines.withoutReturn line)).warning? source first).toList ++
        warnings source (said (first + 1) rest) := by
  rw [said_cons, warnings, List.filterMap_cons]
  cases (Line.parse (Lines.withoutReturn line)).warning? source first <;> rfl

theorem read_of_short (short : ∀ line ∈ Lines.raw content, line.length < lineLimit) :
    read content source = (.ok (ofList (calls (said 1 (Lines.raw content)))),
      warnings source (said 1 (Lines.raw content))) := by
  simp only [read]
  rw [Lines.ofContent_of_short short, said_eq]
  rfl

theorem read_of_long {before after : List Bytes} {long : Bytes}
    (found : Lines.raw content = before ++ long :: after)
    (short : ∀ line ∈ before, line.length < lineLimit) (tooLong : lineLimit ≤ long.length) :
    read content source = (.error (.during (utf8 "read " ++ source) .lineTooLong),
      warnings source (said 1 before)) := by
  simp only [read]
  rw [Lines.ofContent_of_long found short tooLong, said_eq]
  rfl

theorem adds_said (source : Bytes) (number : Nat) (lines : List Bytes) :
    Adds source number lines ((calls (said number lines)).map normal)
      (warnings source (said number lines)) := by
  induction lines generalizing number with
  | nil => exact .nothing
  | cons line rest ih =>
    rw [calls_cons, warnings_cons]
    exact .line (Line.gives_parse source number (Lines.withoutReturn line)) (ih (number + 1))

theorem eq_of_adds {number : Nat} {lines : List Bytes} {pairs : List Edge} {told : List Warning}
    (adds : Adds source number lines pairs told) :
    pairs = (calls (said number lines)).map normal ∧ told = warnings source (said number lines) := by
  induction adds with
  | nothing => exact ⟨rfl, rfl⟩
  | line gives later ih =>
    obtain ⟨rfl, rfl⟩ := ih
    obtain ⟨rfl, rfl⟩ := Line.eq_of_gives gives
    exact ⟨(calls_cons ..).symm, (warnings_cons ..).symm⟩

/-- Reading succeeds unless a line is too long, and then the set lists the calls that the lines add, each
where it first stands in the file, and the warnings are those that they add. A line that is too long
leaves the warnings of the lines before it. The lines of a file are given by its text, and so is what
they add. -/
theorem read_exact (content source : Bytes) :
    (∀ lines, Lines.raw content = lines ↔ Lines.Spelled content lines) ∧
    ((∀ line ∈ Lines.raw content, line.length < 65536) →
      ∃ set pairs warnings, Adds source 1 (Lines.raw content) pairs warnings ∧
        read content source = (.ok set, warnings) ∧ set.toList = pairs.eraseDups) ∧
    (∀ before long after, Lines.raw content = before ++ long :: after →
      (∀ line ∈ before, line.length < 65536) → 65536 ≤ long.length →
      ∃ pairs warnings, Adds source 1 before pairs warnings ∧
        read content source = (.error (.during (utf8 "read " ++ source) .lineTooLong), warnings)) ∧
    ∀ number lines pairs warnings pairs' warnings', Adds source number lines pairs warnings →
      Adds source number lines pairs' warnings' → pairs = pairs' ∧ warnings = warnings' := by
  refine ⟨fun lines => Lines.raw_eq_iff, fun short => ?_, fun before long after found short tooLong => ?_,
    fun number lines pairs warnings pairs' warnings' adds adds' => ?_⟩
  · exact ⟨_, _, _, adds_said source 1 _, read_of_short short, toList_ofList _⟩
  · exact ⟨_, _, adds_said source 1 before, read_of_long found short tooLong⟩
  · obtain ⟨rfl, rfl⟩ := eq_of_adds adds
    obtain ⟨rfl, rfl⟩ := eq_of_adds adds'
    exact ⟨rfl, rfl⟩

/-- A file with a comment, a call that is given twice and a line that is no call. -/
theorem read_exact_mixed :
    let content := utf8 "# calls\n f.cold , g\n\na,b,c\nf,g\r\n"
    (∀ line ∈ Lines.raw content, line.length < 65536) ∧
      ∃ set, read content (utf8 "c.txt") = (.ok set, [.skipped (utf8 "c.txt") 4
        (utf8 ("skipping malformed annotation \"a,b,c\": " ++
          "expected format caller_function,callee_function"))]) ∧
        set.toList = [⟨utf8 "f", utf8 "g"⟩] := by
  intro content
  have short : ∀ line ∈ Lines.raw content, line.length < 65536 := by decide +kernel
  obtain ⟨set, pairs, warnings, adds, result, listed⟩ := (read_exact content (utf8 "c.txt")).2.1 short
  obtain ⟨rfl, rfl⟩ := eq_of_adds adds
  refine ⟨short, set, ?_, ?_⟩
  · rw [result]
    rfl
  · rw [listed]
    rfl

end StackBound.Annotations
