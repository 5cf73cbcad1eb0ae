import StackBound.Run.Options

/-! Options that are edited and checked by turns. A check that refuses them may already have let one kind
of directory stand in for the other; so the refusal can be forgotten, in all that may follow, exactly if
both kinds were given or both were missing. Where this holds of every refusal, the first check that
succeeds finds what a single check after all edits finds. From then on no check changes anything. -/
namespace StackBound.Options

inductive Assignment
  | elfFile (file : Path)
  | suDirs (dirs : List Path)
  | cgraphDirs (dirs : List Path)
  | entryPoints (names : Option (List Name))
  | vectorTable (table : Name)
  | ignoreFile (file : Path)
  | addCallFiles (files : List Path)
  | reachability (wanted : Bool)
  | refresh (wanted : Bool)
  deriving DecidableEq, Repr

def Assignment.apply (o : Options) : Assignment → Options
  | .elfFile file => { o with elfFile := file }
  | .suDirs dirs => { o with suDirs := dirs }
  | .cgraphDirs dirs => { o with cgraphDirs := dirs }
  | .entryPoints names => { o with entryPoints := names }
  | .vectorTable table => { o with vectorTable := table }
  | .ignoreFile file => { o with ignoreFile := file }
  | .addCallFiles files => { o with addCallFiles := files }
  | .reachability wanted => { o with reachability := wanted }
  | .refresh wanted => { o with refresh := wanted }

def assign (o : Options) (edit : List Assignment) : Options := edit.foldl Assignment.apply o

/-- The options after some edits, with a check after each. -/
def edited (o : Options) : List (List Assignment) → Options
  | [] => o
  | edit :: rest => (o.assign edit).check.1.edited rest

/-- The options that were given to the checks after some edits, in order. -/
def checked (o : Options) : List (List Assignment) → List Options
  | [] => []
  | edit :: rest => o.assign edit :: (o.assign edit).check.1.checked rest

/-- Directories of both kinds are given, or of neither. -/
def Balanced (o : Options) : Prop := o.suDirs = [] ↔ o.cgraphDirs = []

@[simp] theorem assign_append (o : Options) (first second : List Assignment) :
    o.assign (first ++ second) = (o.assign first).assign second := List.foldl_append

@[simp] theorem complete_assign (o : Options) (edit : List Assignment) :
    (o.assign edit).complete = o.complete := by
  induction edit generalizing o with
  | nil => rfl
  | cons assignment rest ih =>
    rw [assign, List.foldl_cons]
    exact (ih _).trans (by cases assignment <;> rfl)

inductive Verdict (o : Options) : Options × Option Fault → Prop
  | standing (complete : o.complete = true) : o.Verdict (o, none)
  | nowhere (incomplete : o.complete = false) (missing : o.suDirs = [] ∧ o.cgraphDirs = [])
      (fault : Fault) : o.Verdict (o, some fault)
  | unlocated (incomplete : o.complete = false) (given : ¬(o.suDirs = [] ∧ o.cgraphDirs = []))
      (fault : Fault) : o.Verdict (o.withDirs, some fault)
  | completed (incomplete : o.complete = false) (given : ¬(o.suDirs = [] ∧ o.cgraphDirs = [])) :
      o.Verdict (o.withDirs.withEntries, none)

section Check

variable {o done : Options}

theorem verdict_check (o : Options) : o.Verdict o.check := by
  unfold check
  split
  next complete => exact .standing complete
  next incomplete =>
    rw [Bool.not_eq_true] at incomplete
    split
    next missing => exact .nowhere incomplete missing _
    next given =>
      dsimp only
      split
      · exact .unlocated incomplete given _
      · exact .completed incomplete given

theorem check_of_complete (complete : o.complete = true) : o.check = (o, none) := by
  rw [check, if_pos complete]

theorem complete_of_check (succeeds : o.check = (done, none)) : done.complete = true := by
  have verdict := verdict_check o
  rw [succeeds] at verdict
  cases verdict with
  | standing complete => exact complete
  | completed => rfl

/-- Whether options are complete is not changed by refusing them, and no complete ones are refused. -/
theorem complete_of_refused (refused : o.check.2 ≠ none) :
    o.complete = false ∧ o.check.1.complete = false := by
  have verdict := verdict_check o
  generalize o.check = checked at *
  cases verdict with
  | standing => exact absurd rfl refused
  | nowhere incomplete => exact ⟨incomplete, incomplete⟩
  | unlocated incomplete => exact ⟨incomplete, incomplete⟩
  | completed => exact absurd rfl refused

/-- Whatever else it finds, a check lets the directories of one kind stand in for the other. -/
theorem dirs_check (incomplete : o.complete = false) :
    o.check.1.suDirs = o.withDirs.suDirs ∧ o.check.1.cgraphDirs = o.withDirs.cgraphDirs := by
  have verdict := verdict_check o
  generalize o.check = checked at *
  cases verdict with
  | standing complete => simp [incomplete] at complete
  | nowhere _ missing => simp [withDirs, missing]
  | unlocated => exact ⟨rfl, rfl⟩
  | completed => exact ⟨rfl, rfl⟩

theorem withDirs_eq_self_iff (given : ¬(o.suDirs = [] ∧ o.cgraphDirs = [])) :
    o.withDirs = o ↔ o.Balanced := by
  obtain ⟨elfFile, su, cgraph, entries, table, ignored, added, reachability, refresh, complete⟩ := o
  rw [Options.mk.injEq]
  cases su <;> cases cgraph <;> simp_all [Balanced, withDirs]

theorem check_eq_self_iff (refused : o.check.2 ≠ none) : o.check.1 = o ↔ o.Balanced := by
  have verdict := verdict_check o
  generalize o.check = checked at *
  cases verdict with
  | standing => exact absurd rfl refused
  | nowhere _ missing => simp [Balanced, missing]
  | unlocated _ given => exact withDirs_eq_self_iff given
  | completed => exact absurd rfl refused

/-- A refusal makes no difference to what follows exactly if directories of both kinds were given, or of
neither. -/
theorem forgotten_iff (refused : o.check.2 ≠ none) :
    (∀ later, (o.check.1.assign later).check = (o.assign later).check) ↔ o.Balanced := by
  constructor
  · intro same
    obtain ⟨incomplete, still⟩ := complete_of_refused refused
    obtain ⟨su, cgraph⟩ := dirs_check incomplete
    -- Taking back the directories that stood in for the others shows that they did.
    constructor
    · intro missing
      have back := congrArg (·.1.suDirs) (same [.cgraphDirs []])
      rw [(dirs_check (by rw [complete_assign, still])).1,
        (dirs_check (by rw [complete_assign, incomplete])).1] at back
      exact Decidable.not_imp_self.mp
        (by simpa [assign, Assignment.apply, withDirs, su, missing] using back)
    · intro missing
      have back := congrArg (·.1.cgraphDirs) (same [.suDirs []])
      rw [(dirs_check (by rw [complete_assign, still])).2,
        (dirs_check (by rw [complete_assign, incomplete])).2] at back
      exact Decidable.not_imp_self.mp
        (by simpa [assign, Assignment.apply, withDirs, cgraph, missing] using back)
  · intro balanced later
    rw [(check_eq_self_iff refused).mpr balanced]

end Check

/-- Checks that leave options as they are leave them as if all was assigned at once. -/
theorem edited_eq_assign {o : Options} {edits : List (List Assignment)}
    (kept : ∀ given ∈ o.checked edits, given.check.1 = given) :
    o.edited edits = o.assign edits.flatten := by
  induction edits generalizing o with
  | nil => rfl
  | cons edit rest ih =>
    obtain ⟨first, later⟩ := List.forall_mem_cons.mp kept
    rw [edited, List.flatten_cons, assign_append, ih later, first]

/-- Checks between edits. After checks that refused the options, each refusal has left the options
unchanged, and makes no difference to what may follow, exactly if directories of both kinds were given
then, or of neither. If this holds of all of them, the next check finds what a single check after all
the edits finds; and once a check has succeeded, no later one changes anything, whatever is assigned. -/
theorem check_history (o : Options) (edits : List (List Assignment)) (last : List Assignment)
    (refused : ∀ given ∈ o.checked edits, given.check.2 ≠ none) :
    (∀ given ∈ o.checked edits, (given.check.1 = given ↔ given.Balanced) ∧
      ((∀ later, (given.check.1.assign later).check = (given.assign later).check) ↔
        given.Balanced)) ∧
    ((∀ given ∈ o.checked edits, given.Balanced) →
      ((o.edited edits).assign last).check = (o.assign (edits.flatten ++ last)).check) ∧
    ∀ done, ((o.edited edits).assign last).check = (done, none) →
      ∀ edit, (done.assign edit).check = (done.assign edit, none) := by
  refine ⟨fun given member => ?_, fun balanced => ?_, fun done succeeds edit => ?_⟩
  · exact ⟨check_eq_self_iff (refused given member), forgotten_iff (refused given member)⟩
  · have kept : o.edited edits = o.assign edits.flatten := edited_eq_assign fun given member =>
      (check_eq_self_iff (refused given member)).mpr (balanced given member)
    rw [kept, assign_append]
  · refine check_of_complete ?_
    rw [complete_assign, complete_of_check succeeds]

section Sample

/-- A vector table and no directory, which is refused. -/
def sampleEdit : List Assignment := [.vectorTable (utf8 "v")]

def sampleRest : List Assignment := [.suDirs [utf8 "b"], .elfFile (utf8 "e")]

theorem check_history_sample :
    (∀ given ∈ blank.checked [sampleEdit], given.check.2 ≠ none) ∧
      ((blank.edited [sampleEdit]).assign sampleRest).check =
        (blank.assign (sampleEdit ++ sampleRest)).check ∧
      ((blank.edited [sampleEdit]).assign sampleRest).check.2 = none := by
  have refused : ∀ given ∈ blank.checked [sampleEdit], given.check.2 ≠ none := by
    intro given member
    obtain rfl := List.mem_singleton.mp member
    exact nofun
  have balanced : ∀ given ∈ blank.checked [sampleEdit], given.Balanced := by
    intro given member
    obtain rfl := List.mem_singleton.mp member
    exact Iff.rfl
  have history := (check_history blank [sampleEdit] sampleRest refused).2.1 balanced
  exact ⟨refused, history, rfl⟩

/-- Options refused for want of a binary have their directories of one kind standing in for the other,
and keep them so when the first are changed: not what a single check after the change finds. -/
theorem check_keeps_directories :
    let o := blank.assign [.suDirs [utf8 "b"], .vectorTable (utf8 "v")]
    let rest : List Assignment := [.suDirs [utf8 "c"], .elfFile (utf8 "e")]
    o.check.2 ≠ none ∧ o.check.1 ≠ o ∧
      (o.check.1.assign rest).check.2 = none ∧ (o.assign rest).check.2 = none ∧
      (o.check.1.assign rest).check.1.cgraphDirs = [utf8 "b"] ∧
      (o.assign rest).check.1.cgraphDirs = [utf8 "c"] := by
  refine ⟨nofun, fun same => ?_, rfl, rfl, rfl, rfl⟩
  cases congrArg cgraphDirs same

end Sample

end StackBound.Options
