import Mathlib.Data.List.Forall2
import Mathlib.Tactic.Choose
import StackBound.Discovery
import StackBound.Proofs.FirstSeen
import StackBound.Proofs.Tree.Plain

/-! What is found below some directories. In a tree without links the walk of a directory lists the
files below it by their names from there, in the order of these names. So files stand in the order of
the first root that leads to them, a root that stands below an earlier one adds nothing, and there is a
warning for each root that cannot be searched. A directory that may not be listed, or whose path is too
long for the system, is not entered; it gets a warning of its own. -/
namespace StackBound.Discovery

variable {t : Tree} {access : Access} {accepts : Bytes → Bool} {path dir : Path} {place : Place}
  {name : Bytes} {names rest : List Bytes}

/-! ### The walk of a directory -/

/-- A directory that is found below a root can be listed by its path. -/
structure Open (access : Access) (path : Path) : Prop where
  short : path.length ≤ Tree.longestPath
  permitted : access.lists path = true

/-- Every directory on the way can be listed. -/
def Opens (access : Access) (path : Path) (names : List Bytes) : Prop :=
  ∀ before, before ≠ [] → before <+: names → before ≠ names → Open access (Path.join (path :: before))

/-- The names lead from a directory to an accepted file. -/
structure Finds (t : Tree) (access : Access) (accepts : Bytes → Bool) (path : Path) (place : Place)
    (names : List Bytes) : Prop where
  file : ∃ content, t.node? (place ++ names) = some (.file content)
  accepted : ∃ name ∈ names.getLast?, accepts name = true
  opens : Opens access path names

/-- The names lead from a directory to one that cannot be listed. -/
structure Blocks (t : Tree) (access : Access) (path : Path) (place : Place) (names : List Bytes) :
    Prop where
  nonempty : names ≠ []
  directory : t.node? (place ++ names) = some .directory
  closed : ¬ Open access (Path.join (path :: names))
  opens : Opens access path names

/-- The warning about a directory below a root. The system does not even look at a path that is too
long. -/
def blocked (path : Path) : Warning :=
  skipping path (if Tree.longestPath < path.length then .nameTooLong else .denied)

theorem Finds.nonempty (finds : Finds t access accepts path place names) : names ≠ [] := by
  rintro rfl
  obtain ⟨_, ⟨⟩, _⟩ := finds.accepted

theorem Finds.isSome (finds : Finds t access accepts path place names) :
    (t.node? (place ++ names)).isSome = true := by
  obtain ⟨content, file⟩ := finds.file
  rw [file]
  rfl

theorem Blocks.isSome (blocks : Blocks t access path place names) :
    (t.node? (place ++ names)).isSome = true := by
  rw [blocks.directory]
  rfl

theorem opens_singleton (access : Access) (path : Path) (name : Bytes) : Opens access path [name] := by
  intro before some leads shorter
  refine absurd (leads.eq_of_length ?_) shorter
  have positive := List.length_pos_iff.mpr some
  have within := leads.length_le
  rw [List.length_singleton] at within ⊢
  omega

theorem opens_cons (named : Path.IsName name) (later : ∀ part ∈ rest, Path.IsName part) :
    Opens access path (name :: rest) ↔ rest = [] ∨
      Open access (Path.join [path, name]) ∧ Opens access (Path.join [path, name]) rest := by
  constructor
  · intro opens
    by_cases last : rest = []
    · exact .inl last
    · refine .inr ⟨opens [name] (by simp) (by simp) (by simp [Ne.symm last]), ?_⟩
      intro before some leads shorter
      rw [Path.join_join path named some fun part member => later part (leads.subset member)]
      exact opens (name :: before) (by simp) (by simpa using leads) (by simpa using shorter)
  · intro either before some leads shorter
    obtain ⟨first, before, rfl⟩ := List.exists_cons_of_ne_nil some
    obtain ⟨rfl, inner⟩ := List.cons_prefix_cons.mp leads
    by_cases none : before = []
    · subst none
      rcases either with rfl | ⟨first, -⟩
      · exact absurd rfl shorter
      · exact first
    · rcases either with rfl | ⟨-, onward⟩
      · exact absurd (List.prefix_nil.mp inner) none
      · rw [← Path.join_join path named none fun part member => later part (inner.subset member)]
        exact onward before none inner (by simpa using shorter)

/-- All names with a property, in the order of the walk. -/
structure Ascends (p : List Bytes → Prop) (all : List (List Bytes)) : Prop where
  order : all.Pairwise (· < ·)
  mem : ∀ names, names ∈ all ↔ p names

/-- A list of paths and one of warnings that tell all names with one property and all with another. -/
def Tells (spell : List Bytes → Path) (p q : List Bytes → Prop)
    (found : List Path × List Warning) : Prop :=
  ∃ files closed, Ascends p files ∧ Ascends q closed ∧
    found = (files.map spell, closed.map fun names => blocked (spell names))

section Tells

variable {spell : List Bytes → Path} {p q : List Bytes → Prop} {found : List Path × List Warning}

theorem Tells.congr {spell' : List Bytes → Path} {p' q' : List Bytes → Prop}
    (tells : Tells spell p q found) (sameP : ∀ names, p names ↔ p' names)
    (sameQ : ∀ names, q names ↔ q' names)
    (same : ∀ names, p names ∨ q names → spell names = spell' names) : Tells spell' p' q' found := by
  obtain ⟨files, closed, listed, skipped, rfl⟩ := tells
  refine ⟨files, closed, ⟨listed.order, fun names => (listed.mem names).trans (sameP names)⟩,
    ⟨skipped.order, fun names => (skipped.mem names).trans (sameQ names)⟩, ?_⟩
  rw [List.map_congr_left fun names member => same names (.inl ((listed.mem names).mp member)),
    List.map_congr_left fun names member =>
      congrArg blocked (same names (.inr ((skipped.mem names).mp member)))]

theorem Ascends.flatMap {children : List (Bytes × Node)} {lists : Bytes × Node → List (List Bytes)}
    (order : children.Pairwise fun a b => a.1 < b.1)
    (each : ∀ child ∈ children, Ascends (fun rest => p (child.1 :: rest)) (lists child))
    (covered : ∀ names, p names → ∃ child ∈ children, ∃ rest, names = child.1 :: rest) :
    Ascends p (children.flatMap fun child => (lists child).map (child.1 :: ·)) where
  order := by
    rw [List.pairwise_flatMap]
    refine ⟨fun child member => ?_, order.imp fun {a b} less x first y second => ?_⟩
    · rw [List.pairwise_map]
      exact (each child member).order.imp fun less => List.cons_lt_cons_iff.mpr (.inr ⟨rfl, less⟩)
    · obtain ⟨_, -, rfl⟩ := List.mem_map.mp first
      obtain ⟨_, -, rfl⟩ := List.mem_map.mp second
      exact List.cons_lt_cons_iff.mpr (.inl less)
  mem names := by
    simp only [List.mem_flatMap, List.mem_map]
    constructor
    · rintro ⟨child, member, rest, among, rfl⟩
      exact ((each child member).mem rest).mp among
    · intro holds
      obtain ⟨child, member, rest, rfl⟩ := covered names holds
      exact ⟨child, member, rest, ((each child member).mem rest).mpr holds, rfl⟩

/-- What the entries of a directory tell, each below its name, is told by the directory. -/
theorem Tells.of_children {children : List (Bytes × Node)}
    {found : Bytes × Node → List Path × List Warning}
    (order : children.Pairwise fun a b => a.1 < b.1)
    (each : ∀ child ∈ children, Tells (fun rest => spell (child.1 :: rest))
      (fun rest => p (child.1 :: rest)) (fun rest => q (child.1 :: rest)) (found child))
    (coveredP : ∀ names, p names → ∃ child ∈ children, ∃ rest, names = child.1 :: rest)
    (coveredQ : ∀ names, q names → ∃ child ∈ children, ∃ rest, names = child.1 :: rest) :
    Tells spell p q (gather (children.map found)) := by
  choose! files closed listed skipped told using each
  refine ⟨children.flatMap fun child => (files child).map (child.1 :: ·),
    children.flatMap fun child => (closed child).map (child.1 :: ·),
    .flatMap order listed coveredP, .flatMap order skipped coveredQ, ?_⟩
  rw [gather, List.flatMap_map, List.flatMap_map, List.map_flatMap, List.map_flatMap]
  congr 1
  · refine List.flatMap_congr fun child member => ?_
    simp [told child member]
  · refine List.flatMap_congr fun child member => ?_
    simp [told child member]

end Tells

def EntryTells (t : Tree) (access : Access) (accepts : Bytes → Bool) (path : Path) (place : Place)
    (name : Bytes) : List Path × List Warning → Prop :=
  Tells (fun rest => Path.join (path :: name :: rest))
    (fun rest => Finds t access accepts path place (name :: rest))
    (fun rest => Blocks t access path place (name :: rest))

/-- One entry of a directory tells what it leads to, if a directory does when it is entered. -/
theorem tells_entry (plain : t.Plain) {node : Node} (there : t.node? (place ++ [name]) = some node)
    {enter : Path → List Path × List Warning}
    (entered : node = .directory →
      EntryTells t access accepts path place name (enter (Path.join [path, name]))) :
    EntryTells t access accepts path place name (entry accepts path (name, node) enter) := by
  cases node with
  | directory => exact entered rfl
  | link target => exact absurd there (plain.solid _ _)
  | file content =>
    have only {rest : List Bytes} (more : (t.node? (place ++ name :: rest)).isSome = true) :
        rest = [] := by
      refine Classical.byContradiction fun some => ?_
      rw [List.append_cons place name rest] at more
      simp [plain.directory some more] at there
    have finds (rest : List Bytes) :
        Finds t access accepts path place (name :: rest) ↔ rest = [] ∧ accepts name = true := by
      constructor
      · rintro ⟨⟨_, file⟩, accepted, -⟩
        obtain rfl := only (Option.isSome_of_eq_some file)
        exact ⟨rfl, by simpa using accepted⟩
      · rintro ⟨rfl, accepted⟩
        exact ⟨⟨content, there⟩, ⟨name, by simp, accepted⟩, opens_singleton access path name⟩
    have blocks (rest : List Bytes) : ¬ Blocks t access path place (name :: rest) := by
      rintro ⟨-, directory, -⟩
      obtain rfl := only (Option.isSome_of_eq_some directory)
      simp [directory] at there
    rw [entry]
    by_cases accepted : accepts name = true
    · rw [if_pos accepted]
      exact ⟨[[]], [], ⟨by simp, fun rest => by simp [finds, accepted]⟩,
        ⟨by simp, fun rest => by simp [blocks]⟩, rfl⟩
    · rw [if_neg accepted]
      exact ⟨[], [], ⟨by simp, fun rest => by simp [finds, accepted]⟩,
        ⟨by simp, fun rest => by simp [blocks]⟩, rfl⟩

/-- A directory that cannot be listed is told by a warning. -/
theorem tells_blocked (there : t.node? (place ++ [name]) = some .directory)
    (closed : ¬ Open access (Path.join [path, name])) :
    EntryTells t access accepts path place name ([], [blocked (Path.join [path, name])]) := by
  have last {rest : List Bytes} (opens : Opens access path (name :: rest)) : rest = [] := by
    refine Classical.byContradiction fun some => ?_
    exact closed (opens [name] (by simp) (by simp) (by simp [Ne.symm some]))
  refine ⟨[], [[]], ⟨by simp, fun rest => ?_⟩, ⟨by simp, fun rest => ?_⟩, rfl⟩
  · refine iff_of_false (by simp) ?_
    rintro ⟨⟨_, file⟩, -, opens⟩
    obtain rfl := last opens
    simp [file] at there
  · rw [List.mem_singleton]
    constructor
    · rintro rfl
      exact ⟨by simp, there, closed, opens_singleton access path name⟩
    · exact fun blocks => last blocks.opens

section Entered

variable (plain : t.Plain) (entered : Open access (Path.join [path, name]))
include plain entered

/-- What is found below an entry of a directory is found from the entry. -/
theorem finds_cons (there : t.node? (place ++ [name]) = some .directory) :
    Finds t access accepts (Path.join [path, name]) (place ++ [name]) rest ↔
      Finds t access accepts path place (name :: rest) := by
  constructor
  · rintro ⟨⟨content, file⟩, ⟨last, ends, accepted⟩, opens⟩
    rw [← List.append_cons] at file
    obtain ⟨first, later⟩ := List.forall_mem_cons.mp (plain.isName (Option.isSome_of_eq_some file))
    refine ⟨⟨content, file⟩, ⟨last, ?_, accepted⟩, (opens_cons first later).mpr (.inr ⟨entered, opens⟩)⟩
    rw [List.getLast?_cons, Option.mem_def.mp ends]
    rfl
  · intro finds
    obtain ⟨first, later⟩ := List.forall_mem_cons.mp (plain.isName finds.isSome)
    obtain ⟨⟨content, file⟩, ⟨last, ends, accepted⟩, opens⟩ := finds
    have some : rest ≠ [] := by
      rintro rfl
      simp [there] at file
    obtain ⟨-, onward⟩ := ((opens_cons first later).mp opens).resolve_left some
    rw [List.append_cons] at file
    rw [List.getLast?_cons_of_ne_nil some] at ends
    exact ⟨⟨content, file⟩, ⟨last, ends, accepted⟩, onward⟩

theorem blocks_cons : Blocks t access (Path.join [path, name]) (place ++ [name]) rest ↔
    Blocks t access path place (name :: rest) := by
  constructor
  · rintro ⟨some, directory, closed, opens⟩
    rw [← List.append_cons] at directory
    obtain ⟨first, later⟩ := List.forall_mem_cons.mp (plain.isName (Option.isSome_of_eq_some directory))
    rw [Path.join_join path first some later] at closed
    exact ⟨by simp, directory, closed, (opens_cons first later).mpr (.inr ⟨entered, opens⟩)⟩
  · intro blocks
    obtain ⟨first, later⟩ := List.forall_mem_cons.mp (plain.isName blocks.isSome)
    obtain ⟨-, directory, closed, opens⟩ := blocks
    have some : rest ≠ [] := by
      rintro rfl
      exact closed entered
    obtain ⟨-, onward⟩ := ((opens_cons first later).mp opens).resolve_left some
    rw [List.append_cons] at directory
    exact ⟨some, directory, by rwa [Path.join_join path first some later], onward⟩

end Entered

theorem inside_eq (t : Tree) (accepts : Bytes → Bool) (path : Path) (place : Place) (access : Access) :
    inside t accepts path place access = gather ((t.children place).map fun child =>
      entry accepts path child fun path =>
        if Tree.longestPath < path.length then ([], [skipping path .nameTooLong])
        else if access.lists path then inside t accepts path (place ++ [child.1]) access
        else ([], [skipping path .denied])) := by
  rw [inside]
  conv_rhs => rw [← List.attach_map_val]

instance (access : Access) (path : Path) : Decidable (Open access path) :=
  decidable_of_iff (path.length ≤ Tree.longestPath ∧ access.lists path = true)
    ⟨fun h => ⟨h.1, h.2⟩, fun h => ⟨h.short, h.permitted⟩⟩

/-- What comes of entering a directory, which is not tried if its path is too long. -/
theorem enter_eq (access : Access) (path : Path) (found : List Path × List Warning) :
    (if Tree.longestPath < path.length then ([], [skipping path .nameTooLong])
      else if access.lists path then found else ([], [skipping path .denied])) =
      if Open access path then found else ([], [blocked path]) := by
  by_cases long : Tree.longestPath < path.length
  · rw [if_pos long, if_neg fun entered => Nat.not_lt.mpr entered.short long, blocked, if_pos long]
  · rw [if_neg long, blocked, if_neg long]
    by_cases permitted : access.lists path = true
    · rw [if_pos permitted, if_pos ⟨Nat.not_lt.mp long, permitted⟩]
    · rw [if_neg permitted, if_neg fun entered => permitted entered.permitted]

/-- What is below a directory stands below an entry of it. -/
theorem exists_child (plain : t.Plain) (some : names ≠ [])
    (there : (t.node? (place ++ names)).isSome = true) :
    ∃ child ∈ t.children place, ∃ rest, names = child.1 :: rest := by
  obtain ⟨name, rest, rfl⟩ := List.exists_cons_of_ne_nil some
  rw [List.append_cons] at there
  obtain ⟨node, standing⟩ := Option.isSome_iff_exists.mp (plain.isSome_of_append there)
  exact ⟨(name, node), Tree.mem_children.mpr standing, rest, rfl⟩

/-- The walk of a directory tells exactly the accepted files below it and the directories that cannot
be entered. -/
theorem tells_inside (plain : t.Plain) (access : Access) (accepts : Bytes → Bool) (path : Path)
    (place : Place) :
    Tells (fun names => Path.join (path :: names)) (Finds t access accepts path place)
      (Blocks t access path place) (inside t accepts path place access) := by
  rw [inside_eq]
  refine .of_children (t.pairwise_children place) ?_ ?_ ?_
  · rintro ⟨name, node⟩ member
    have there := Tree.mem_children.mp member
    refine tells_entry plain there ?_
    rintro rfl
    rw [enter_eq]
    split
    next entered =>
      have onward := tells_inside plain access accepts (Path.join [path, name]) (place ++ [name])
      refine onward.congr (fun rest => finds_cons plain entered there)
        (fun rest => blocks_cons plain entered) fun rest either => ?_
      have named := (plain.named place name (Option.isSome_of_eq_some there)).toIsName
      rcases either with finds | blocks
      · exact Path.join_join path named finds.nonempty (plain.isName finds.isSome)
      · exact Path.join_join path named blocks.nonempty (plain.isName blocks.isSome)
    next closed => exact tells_blocked there closed
  · exact fun names finds => exists_child plain finds.nonempty finds.isSome
  · exact fun names blocks => exists_child plain blocks.nonempty blocks.isSome
termination_by t.deepest - place.length
decreasing_by
  have deeper := Tree.length_lt_deepest member
  rw [List.length_append, List.length_singleton]
  omega

/-! ### Roots -/

theorem find_of_stat {node : Node} (found : t.stat dir = .ok (place, node)) :
    t.find true dir = .ok (place, node) := by
  rw [Tree.stat] at found
  cases looked : t.find true dir with
  | error refusal => simp [looked, Except.mapError] at found
  | ok there => simpa [looked, Except.mapError] using found

/-- A root that may be looked up is a directory and may be listed. -/
structure Searched (t : Tree) (access : Access) (dir : Path) (place : Place) : Prop where
  looked : access.looks dir = true
  found : t.stat dir = .ok (place, .directory)
  listed : access.lists dir = true

theorem stat_of_looked (looked : access.looks dir = true) : access.stat t dir = t.stat dir := by
  rw [Access.stat, if_pos looked]

/-- Looking a directory up by its path leads to its place, so a root is walked as what it holds. -/
theorem root_eq_inside (plain : t.Plain) (accepts : Bytes → Bool)
    (searched : Searched t access dir place) :
    root t accepts dir access = inside t accepts dir place access := by
  obtain ⟨looks, found, permitted⟩ := searched
  have looked := find_of_stat found
  have itself : t.find false dir = .ok (place, .directory) := plain.find_follow.trans looked
  simp only [root, stat_of_looked looks, found, itself, if_pos permitted]
  rw [inside_eq]
  congr 1
  refine List.map_congr_left fun ⟨name, node⟩ member => ?_
  have there := Tree.mem_children.mp member
  cases node with
  | file | link => rfl
  | directory =>
    simp only [entry, plain.find_join looked (by simp) there]
    by_cases long : Tree.longestPath < (Path.join [dir, name]).length
    · simp only [if_pos long]
    · simp only [if_neg long]

/-- From a root that can be searched the names lead to an accepted file. -/
inductive Lists (t : Tree) (access : Access) (accepts : Bytes → Bool) (dir : Path) :
    List Bytes → Path → Prop
  | mk {place : Place} {names : List Bytes} (searched : Searched t access dir place)
      (finds : Finds t access accepts dir place names) :
      Lists t access accepts dir names (Path.join (dir :: names))

/-- The warnings about a root: one if it cannot be looked up, is no directory or may not be listed, and
otherwise one for each directory below it that cannot be listed. -/
inductive Warned (t : Tree) (access : Access) (dir : Path) : List Warning → Prop
  | withheld (withheld : access.looks dir = false) :
      Warned t access dir [.skipped dir 0 (utf8 "skipping input directory: " ++
        PathError.text ⟨utf8 "stat", dir, .denied⟩)]
  | refused {e : PathError} (looked : access.looks dir = true) (refused : t.stat dir = .error e) :
      Warned t access dir [.skipped dir 0 (utf8 "skipping input directory: " ++ e.text)]
  | file {place : Place} {content : Bytes} (looked : access.looks dir = true)
      (found : t.stat dir = .ok (place, .file content)) :
      Warned t access dir [.skipped dir 0 (utf8 "skipping input directory: not a directory")]
  | unlisted {place : Place} (looked : access.looks dir = true)
      (found : t.stat dir = .ok (place, .directory)) (unlisted : access.lists dir = false) :
      Warned t access dir [skipping dir .denied]
  | searched {place : Place} {closed : List (List Bytes)} (searched : Searched t access dir place)
      (skipped : Ascends (Blocks t access dir place) closed) :
      Warned t access dir (closed.map fun names => blocked (Path.join (dir :: names)))

theorem Searched.unique {place' : Place} (searched : Searched t access dir place)
    (searched' : Searched t access dir place') : place = place' :=
  (Prod.mk.inj (Except.ok.inj (searched.found.symm.trans searched'.found))).1

theorem Lists.listed (lists : Lists t access accepts dir names path) : access.lists dir = true := by
  cases lists with
  | mk searched finds => exact searched.listed

theorem Lists.unique (plain : t.Plain) {names' : List Bytes}
    (lists : Lists t access accepts dir names path) (lists' : Lists t access accepts dir names' path) :
    names = names' := by
  generalize same : path = path' at lists'
  obtain ⟨searched, finds⟩ := lists
  obtain ⟨searched', finds'⟩ := lists'
  obtain rfl := searched.unique searched'
  exact Path.join_inj finds.nonempty finds'.nonempty (plain.isName finds.isSome)
    (plain.isName finds'.isSome) same

/-- A path that is listed from a root stands before those that are listed under greater names. -/
def Before (t : Tree) (access : Access) (accepts : Bytes → Bool) (dir first second : Path) : Prop :=
  ∃ names, Lists t access accepts dir names first ∧
    ∀ names', Lists t access accepts dir names' second → names < names'

/-- What one root contributes. -/
structure Contributes (t : Tree) (access : Access) (accepts : Bytes → Bool) (dir : Path)
    (found : List Path × List Warning) : Prop where
  mem : ∀ path, path ∈ found.1 ↔ ∃ names, Lists t access accepts dir names path
  order : found.1.Pairwise (Before t access accepts dir)
  warned : Warned t access dir found.2

theorem Contributes.of_unsearched {found : List Path × List Warning} {warned : List Warning}
    (none : found = ([], warned)) (unsearched : ∀ place, ¬ Searched t access dir place)
    (warning : Warned t access dir warned) : Contributes t access accepts dir found := by
  subst none
  refine ⟨fun path => iff_of_false (by simp) ?_, .nil, warning⟩
  rintro ⟨names, searched, -⟩
  exact unsearched _ searched

theorem contributes_of_searched (plain : t.Plain) (accepts : Bytes → Bool)
    (searched : Searched t access dir place) :
    Contributes t access accepts dir (root t accepts dir access) := by
  obtain ⟨files, closed, listed, skipped, told⟩ := tells_inside plain access accepts dir place
  rw [root_eq_inside plain accepts searched, told]
  refine ⟨fun path => ?_, ?_, .searched searched skipped⟩
  · rw [List.mem_map]
    constructor
    · rintro ⟨names, member, rfl⟩
      exact ⟨names, .mk searched ((listed.mem names).mp member)⟩
    · rintro ⟨names, searched', finds⟩
      obtain rfl := searched.unique searched'
      exact ⟨names, (listed.mem names).mpr finds, rfl⟩
  · rw [List.pairwise_map]
    refine listed.order.imp_of_mem fun {names names'} first second less => ?_
    refine ⟨names, .mk searched ((listed.mem names).mp first), fun other lists => ?_⟩
    rw [lists.unique plain (.mk searched ((listed.mem names').mp second))]
    exact less

theorem root_of_unlisted (plain : t.Plain) (accepts : Bytes → Bool)
    (looked : access.looks dir = true) (found : t.stat dir = .ok (place, .directory))
    (unlisted : access.lists dir = false) :
    root t accepts dir access = ([], [skipping dir .denied]) := by
  have itself : t.find false dir = .ok (place, .directory) :=
    plain.find_follow.trans (find_of_stat found)
  simp only [root, stat_of_looked looked, found, itself, unlisted, Bool.false_eq_true, ↓reduceIte]

theorem contributes_root (plain : t.Plain) (access : Access) (accepts : Bytes → Bool) (dir : Path) :
    Contributes t access accepts dir (root t accepts dir access) := by
  by_cases looked : access.looks dir = true
  · have stat := stat_of_looked (t := t) looked
    match found : t.stat dir with
    | .error e =>
      refine .of_unsearched ?_ (fun place searched => ?_) (.refused looked found)
      · simp only [root, stat, found]
      · simp [searched.found] at found
    | .ok (place, .link target) =>
      exact absurd (Tree.place_of_find (find_of_stat found)).2 (plain.solid _ _)
    | .ok (place, .file content) =>
      refine .of_unsearched ?_ (fun place searched => ?_) (.file looked found)
      · simp only [root, stat, found]
      · simp [searched.found] at found
    | .ok (place, .directory) =>
      by_cases listed : access.lists dir = true
      · exact contributes_of_searched plain accepts ⟨looked, found, listed⟩
      · have unlisted := Bool.eq_false_iff.mpr listed
        exact .of_unsearched (root_of_unlisted plain accepts looked found unlisted)
          (fun place searched => listed searched.listed) (.unlisted looked found unlisted)
  · refine .of_unsearched ?_ (fun place searched => looked searched.looked)
      (.withheld (Bool.eq_false_iff.mpr looked))
    simp only [root, Access.stat, if_neg looked]

/-- The way to a root that can be looked up leads through directories with shorter paths. -/
theorem Opens.above {upper : Path}
    (entered : ∀ before, before ≠ [] → before <+: names →
      access.lists (Path.join (upper :: before)) = true) (named : ∀ part ∈ names, Path.IsName part)
    (later : ∀ part ∈ rest, Path.IsName part) (rooted : dir.isRooted = upper.isRooted)
    (longer : dir.parts = upper.parts ++ names) (short : dir.clean.length ≤ Tree.longestPath)
    (opens : Opens access dir rest) : Opens access upper (names ++ rest) := by
  intro before some leads shorter
  have either := List.prefix_or_prefix_of_prefix leads (List.prefix_append names rest)
  by_cases upTo : before <+: names
  · refine ⟨?_, entered before some upTo⟩
    obtain ⟨onward, rfl⟩ := upTo
    obtain ⟨first, second⟩ := List.forall_mem_append.mp named
    have resolved := Path.resolved_append (Path.resolved_parts upper) before first
    have least := Path.length_spelled_le resolved second
    rw [List.append_assoc, ← longer, ← rooted, ← Path.clean_eq_spelled] at least
    rw [Path.join_eq_spelled upper some first, ← rooted]
    exact Nat.le_trans least short
  · obtain ⟨onward, rfl⟩ := either.resolve_left upTo
    rw [List.prefix_append_right_inj] at leads
    have beyond : onward ≠ [] := by
      rintro rfl
      simp at upTo
    rw [← Path.join_of_parts named rooted longer beyond
      fun part member => later part (leads.subset member)]
    exact opens onward beyond leads (by simpa using shorter)

/-- A root stands at or below another that can be searched, and so can the directories from the one down
to the other, under the paths that they have from there. -/
structure Below (t : Tree) (access : Access) (upper dir : Path) (names : List Bytes) : Prop where
  named : ∀ part ∈ names, Path.IsName part
  clean : dir.clean = Path.join (upper.clean :: names)
  searched : ∃ place, Searched t access upper place
  entered : ∀ before, before ≠ [] → before <+: names → access.lists (Path.join (upper :: before)) = true

/-- What is listed from a root is listed from a root above it. -/
theorem Lists.above (plain : t.Plain) {upper : Path} (below : Below t access upper dir names)
    (lists : Lists t access accepts dir rest path) :
    Lists t access accepts upper (names ++ rest) path := by
  obtain ⟨named, same, ⟨place, searched⟩, entered⟩ := below
  obtain @⟨place', rest, searched', finds⟩ := lists
  obtain ⟨rooted, longer⟩ := Path.parts_of_clean_eq named same
  obtain ⟨placed, -⟩ := Tree.place_of_find (find_of_stat searched.found)
  obtain ⟨placed', -⟩ := Tree.place_of_find (find_of_stat searched'.found)
  obtain rfl : place' = place ++ names := by
    rw [plain.eq_of_place placed', plain.eq_of_place placed, rooted, longer, List.foldl_append,
      Tree.foldl_move_names named]
  obtain ⟨-, some, short⟩ := Tree.usable_of_place placed'
  have later := plain.isName finds.isSome
  rw [Path.join_of_parts named rooted longer finds.nonempty later]
  refine .mk searched ⟨?_, ?_, ?_⟩
  · obtain ⟨content, file⟩ := finds.file
    exact ⟨content, by rwa [← List.append_assoc]⟩
  · rw [List.getLast?_append_of_ne_nil _ finds.nonempty]
    exact finds.accepted
  · exact .above entered named later rooted longer (Nat.le_trans (Path.length_clean_le some) short)
      finds.opens

/-! ### All roots -/

section Files

variable {dirs : List Path}

theorem files_paths (t : Tree) (access : Access) (accepts : Bytes → Bool) (dirs : List Path) :
    (files t accepts dirs access).1 =
      (dirs.flatMap fun dir => (root t accepts dir access).1).eraseDups := by
  rw [files, Name.distinct_eq, gather, List.flatMap_map]

theorem files_warnings (t : Tree) (access : Access) (accepts : Bytes → Bool) (dirs : List Path) :
    (files t accepts dirs access).2 = (dirs.map fun dir => (root t accepts dir access).2).flatten := by
  simp only [files, gather, List.flatMap_def, List.map_map]
  rfl

theorem mem_files (plain : t.Plain) :
    path ∈ (files t accepts dirs access).1 ↔
      ∃ dir ∈ dirs, ∃ names, Lists t access accepts dir names path := by
  simp only [files_paths, List.mem_eraseDups, List.mem_flatMap, (contributes_root plain access accepts _).mem]

/-- One more root adds the paths that it lists and none before it does. -/
theorem files_concat (t : Tree) (access : Access) (accepts : Bytes → Bool) (dirs : List Path)
    (dir : Path) :
    (files t accepts (dirs ++ [dir]) access).1 = (files t accepts dirs access).1 ++
      ((root t accepts dir access).1.filter (· ∉ (files t accepts dirs access).1)).eraseDups := by
  rw [files_paths, files_paths, List.flatMap_append, List.flatMap_singleton, List.eraseDups_append,
    List.removeAll]
  refine congrArg (_ ++ List.eraseDups ·) (List.filter_congr fun path _ => ?_)
  rw [Bool.eq_iff_iff, decide_eq_true_eq, List.mem_eraseDups, Bool.not_eq_true', ← Bool.not_eq_true,
    List.elem_iff]

/-- One path stands before another: the first root that lists either lists the one, and it lists the
other not at all or under greater names. -/
def Precedes (t : Tree) (access : Access) (accepts : Bytes → Bool) (dirs : List Path)
    (first second : Path) : Prop :=
  ∃ earlier dir later, dirs = earlier ++ dir :: later ∧
    (∀ other ∈ earlier, ∀ names,
      ¬ Lists t access accepts other names first ∧ ¬ Lists t access accepts other names second) ∧
    Before t access accepts dir first second

theorem Precedes.concat {first second : Path} (precedes : Precedes t access accepts dirs first second)
    (dir : Path) : Precedes t access accepts (dirs ++ [dir]) first second := by
  obtain ⟨earlier, dir', later, rfl, none, before⟩ := precedes
  exact ⟨earlier, dir', later ++ [dir], by simp, none, before⟩

theorem precedes_new {first second : Path} (plain : t.Plain)
    (old : first ∈ (files t accepts dirs access).1)
    (new : second ∉ (files t accepts dirs access).1) : Precedes t access accepts dirs first second := by
  rw [mem_files plain] at old new
  have absent (dir) (member : dir ∈ dirs) (names : List Bytes) :
      ¬ Lists t access accepts dir names second := fun lists => new ⟨dir, member, names, lists⟩
  obtain ⟨earlier, dir, later, rfl, none, names, lists⟩ := exists_first old
  refine ⟨earlier, dir, later, rfl, fun other member names' => ⟨fun lists => ?_, ?_⟩, names, lists, ?_⟩
  · exact none other member ⟨names', lists⟩
  · exact absent other (by simp [member]) names'
  · exact fun names' lists => absurd lists (absent dir (by simp) names')

theorem pairwise_files (plain : t.Plain) (access : Access) (accepts : Bytes → Bool)
    (dirs : List Path) :
    (files t accepts dirs access).1.Pairwise (Precedes t access accepts dirs) := by
  induction dirs using List.reverseRecOn with
  | nil =>
    rw [files_paths]
    exact .nil
  | append_singleton dirs dir ih =>
    rw [files_concat, List.pairwise_append]
    refine ⟨ih.imp fun precedes => precedes.concat dir, ?_, ?_⟩
    · refine List.Pairwise.sublist (eraseDups_sublist _) ?_
      have ordered := (contributes_root plain access accepts dir).order.filter (· ∉ (files t accepts dirs access).1)
      refine ordered.imp_of_mem fun {first second} one two before => ?_
      rw [List.mem_filter, decide_eq_true_eq, mem_files plain] at one two
      refine ⟨dirs, dir, [], rfl, fun other member names => ⟨fun lists => ?_, fun lists => ?_⟩, before⟩
      · exact one.2 ⟨other, member, names, lists⟩
      · exact two.2 ⟨other, member, names, lists⟩
    · intro first old second new
      rw [List.mem_eraseDups, List.mem_filter, decide_eq_true_eq] at new
      exact (precedes_new plain old new.2).concat dir

/-- A root below an earlier one adds nothing. -/
theorem files_concat_of_below (plain : t.Plain) {upper : Path} (given : upper ∈ dirs)
    (below : Below t access upper dir names) :
    (files t accepts (dirs ++ [dir]) access).1 = (files t accepts dirs access).1 := by
  have none : (root t accepts dir access).1.filter (· ∉ (files t accepts dirs access).1) = [] := by
    rw [List.filter_eq_nil_iff]
    intro path member
    obtain ⟨rest, lists⟩ := ((contributes_root plain access accepts dir).mem path).mp member
    rw [decide_eq_true_eq, Classical.not_not, mem_files plain]
    exact ⟨upper, given, names ++ rest, lists.above plain below⟩
  rw [files_concat, none, List.eraseDups_nil, List.append_nil]

/-- In a tree without links every accepted file below some root is listed once under its path, in the
order of the first roots that lead there and within a root in the order of the names, unless a directory
on the way may not be listed or has too long a path. There is one warning for each root that cannot be
looked up, is no directory or may not be listed, and one for each directory below a root that cannot be
listed. A root that stands at or below an earlier one adds no path, if the earlier one leads there. -/
theorem files_exact (plain : t.Plain) (access : Access) (accepts : Bytes → Bool) (dirs : List Path) :
    (files t accepts dirs access).1.Nodup ∧
      (∀ path, path ∈ (files t accepts dirs access).1 ↔
        ∃ dir ∈ dirs, ∃ names, Lists t access accepts dir names path) ∧
      (files t accepts dirs access).1.Pairwise (Precedes t access accepts dirs) ∧
      (∃ warned, List.Forall₂ (Warned t access) dirs warned ∧
        (files t accepts dirs access).2 = warned.flatten) ∧
      ∀ dir, ∀ upper ∈ dirs, ∀ names, Below t access upper dir names →
        (files t accepts (dirs ++ [dir]) access).1 = (files t accepts dirs access).1 := by
  refine ⟨?_, fun path => mem_files plain, pairwise_files plain access accepts dirs, ?_,
    fun dir upper given names below => files_concat_of_below plain given below⟩
  · rw [files_paths]
    exact nodup_eraseDups _
  · refine ⟨_, ?_, files_warnings t access accepts dirs⟩
    exact List.forall₂_map_right_iff.mpr
      (List.forall₂_same.mpr fun dir _ => (contributes_root plain access accepts dir).warned)

end Files

section Sample

def sampleTree : Tree :=
  ⟨((∅ : Std.HashMap Place Node).insert [utf8 "w", utf8 "b"] .directory).insert
    [utf8 "w", utf8 "b", utf8 "x.su"] (.file []), [utf8 "w"]⟩

theorem plain_sampleTree : sampleTree.Plain := by
  have w : Tree.Fits (utf8 "w") :=
    ⟨⟨by decide, by decide, by decide, by decide⟩, by decide, by decide⟩
  have b : Tree.Fits (utf8 "b") :=
    ⟨⟨by decide, by decide, by decide, by decide⟩, by decide, by decide⟩
  have x : Tree.Fits (utf8 "x.su") :=
    ⟨⟨by decide, by decide, by decide, by decide⟩, by decide, by decide⟩
  have bare := Tree.plain_bare (List.forall_mem_singleton.mpr w)
  have one := bare.insert [utf8 "w"] b .directory (Tree.node?_current _) nofun (.inl rfl)
  refine one.insert [utf8 "w", utf8 "b"] x (.file []) ?_ nofun (.inr ?_)
  · simp [Tree.node?]
  · simp [Tree.node?, Tree.bare]

theorem stat_sampleTree :
    sampleTree.stat (utf8 "b") = .ok ([utf8 "w", utf8 "b"], .directory) := by
  have there : sampleTree.node? [utf8 "w", utf8 "b"] = some .directory := by
    simp [sampleTree, Tree.node?, Std.HashMap.getElem_insert]
  have placed : sampleTree.place true (utf8 "b") = .ok [utf8 "w", utf8 "b"] :=
    Tree.place_of_name rfl ⟨by decide, by decide, by decide⟩ (plain_sampleTree.solid _)
  rw [Tree.stat, Tree.find_of_place placed there]
  rfl

theorem searched_sampleTree : Searched sampleTree .all (utf8 "b") [utf8 "w", utf8 "b"] :=
  ⟨rfl, stat_sampleTree, rfl⟩

theorem lists_sampleTree :
    Lists sampleTree .all isStackUsage (utf8 "b") [utf8 "x.su"] (utf8 "b/x.su") := by
  have file : sampleTree.node? [utf8 "w", utf8 "b", utf8 "x.su"] = some (.file []) := by
    simp [sampleTree, Tree.node?]
  have spelled : utf8 "b/x.su" = Path.join [utf8 "b", utf8 "x.su"] := by decide
  rw [spelled]
  exact .mk searched_sampleTree
    ⟨⟨[], file⟩, ⟨utf8 "x.su", rfl, by decide⟩, opens_singleton _ _ _⟩

/-- Paths may be looked up, but no directory may be listed. -/
def lookOnly : Access := ⟨fun _ => true, fun _ => false⟩

/-- The same directory given twice, the second time in another spelling, and where it may not be
listed. -/
theorem files_exact_sample :
    sampleTree.Plain ∧ utf8 "b/x.su" ∈ (files sampleTree isStackUsage [utf8 "b"]).1 ∧
      (files sampleTree isStackUsage ([utf8 "b"] ++ [utf8 "./b//"])).1 =
        (files sampleTree isStackUsage [utf8 "b"]).1 ∧
      utf8 "b/x.su" ∉ (files sampleTree isStackUsage [utf8 "b"] lookOnly).1 := by
  obtain ⟨-, listed, -, -, below⟩ := files_exact plain_sampleTree .all isStackUsage [utf8 "b"]
  refine ⟨plain_sampleTree, (listed _).mpr ⟨utf8 "b", by simp, _, lists_sampleTree⟩, ?_, ?_⟩
  · refine below _ (utf8 "b") (by simp) [] ⟨by simp, by decide, ⟨_, searched_sampleTree⟩, ?_⟩
    exact fun before some leads => absurd (List.prefix_nil.mp leads) some
  · rw [(files_exact plain_sampleTree _ isStackUsage [utf8 "b"]).2.1]
    rintro ⟨dir, -, names, lists⟩
    exact Bool.false_ne_true lists.listed

/-- A path with as many steps in front that stay in place. -/
def aside : Nat → Path → Path
  | 0, path => path
  | n + 1, path => utf8 "./" ++ aside n path

theorem split_aside (n : Nat) (path : Path) :
    (aside n path).split Path.slash = List.replicate n Path.dot ++ path.split Path.slash := by
  induction n with
  | zero => rfl
  | succ n ih =>
    have first : (aside (n + 1) path).split Path.slash =
        Path.dot.split Path.slash ++ (aside n path).split Path.slash := Bytes.split_append_sep Path.dot _
    rw [first, ih, List.replicate_succ]
    rfl

theorem length_aside (n : Nat) (path : Path) : (aside n path).length = 2 * n + path.length := by
  induction n with
  | zero => simp [aside]
  | succ n ih =>
    have two : (utf8 "./").length = 2 := rfl
    rw [aside, List.length_append, ih, two]
    omega

theorem not_mem_aside (n : Nat) {path : Path} (free : 0 ∉ path) : 0 ∉ aside n path := by
  induction n with
  | zero => exact free
  | succ n ih =>
    have start : 0 ∉ utf8 "./" := by decide
    rw [aside, List.mem_append, not_or]
    exact ⟨start, ih⟩

theorem clean_aside (n : Nat) {path : Path} (relative : path.isRooted = false) :
    (aside n path).clean = path.clean := by
  have still : (aside n path).isRooted = false := by
    cases n with
    | zero => exact relative
    | succ n => rfl
  have parts : (aside n path).parts = path.parts := by
    rw [Path.parts, Path.parts, still, relative, split_aside, List.foldl_append,
      Path.foldl_walk_lead fun part member => .inr (List.eq_of_mem_replicate member)]
  rw [Path.clean_eq_spelled, still, parts, Path.clean_eq_spelled, relative]

theorem root_of_long (t : Tree) (accepts : Bytes → Bool) {dir : Path} (free : 0 ∉ dir)
    (long : Tree.longestPath < dir.length) :
    root t accepts dir = ([], [.skipped dir 0 (utf8 "skipping input directory: " ++
      PathError.text ⟨utf8 "stat", dir, .nameTooLong⟩)]) := by
  have some : dir ≠ [] := List.ne_nil_of_length_pos (Nat.zero_lt_of_lt long)
  have refused : t.place true dir = .error .nameTooLong := by
    rw [Tree.place, if_neg (by rwa [List.contains_iff_mem]), if_neg some, if_pos long]
  have stat : t.stat dir = .error ⟨utf8 "stat", dir, .nameTooLong⟩ := by
    rw [Tree.stat, Tree.find_of_refused refused]
    rfl
  rw [root, stat_of_looked rfl, stat]

/-- A directory is not searched that is given by a path of more bytes than can be looked up, and neither
is one that may not be listed. -/
theorem not_listed_of_refused_root :
    sampleTree.Plain ∧ (aside 2048 (utf8 "b")).clean = utf8 "b" ∧
      sampleTree.walk true Tree.linkLimit sampleTree.current
        ((aside 2048 (utf8 "b")).split Path.slash) = .ok [utf8 "w", utf8 "b"] ∧
      Lists sampleTree .all isStackUsage (utf8 "b") [utf8 "x.su"] (utf8 "b/x.su") ∧
      files sampleTree isStackUsage [aside 2048 (utf8 "b")] =
        ([], [.skipped (aside 2048 (utf8 "b")) 0 (utf8 "skipping input directory: " ++
          PathError.text ⟨utf8 "stat", aside 2048 (utf8 "b"), .nameTooLong⟩)]) ∧
      files sampleTree isStackUsage [utf8 "b"] lookOnly =
        ([], [skipping (utf8 "b") .denied]) := by
  have clean : (aside 2048 (utf8 "b")).clean = Path.clean (utf8 "b") := clean_aside 2048 (by decide)
  have same : Path.clean (utf8 "b") = utf8 "b" := by decide
  have free : 0 ∉ aside 2048 (utf8 "b") := not_mem_aside 2048 (by decide)
  have long : Tree.longestPath < (aside 2048 (utf8 "b")).length := by
    rw [length_aside]
    decide
  have placed := (Tree.place_of_find (find_of_stat stat_sampleTree)).1
  refine ⟨plain_sampleTree, clean.trans same, ?_, lists_sampleTree, ?_, ?_⟩
  · rw [split_aside, Tree.walk_lead (Tree.node?_current _)
      fun part member => .inr (List.eq_of_mem_replicate member)]
    exact placed
  · simp [files, gather, root_of_long sampleTree isStackUsage free long, Name.distinct]
  · have unlisted : root sampleTree isStackUsage (utf8 "b") lookOnly =
        ([], [skipping (utf8 "b") .denied]) :=
      root_of_unlisted plain_sampleTree isStackUsage rfl stat_sampleTree rfl
    simp [files, gather, unlisted, Name.distinct]

end Sample

end StackBound.Discovery
