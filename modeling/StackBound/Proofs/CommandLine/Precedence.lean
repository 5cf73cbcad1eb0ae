import StackBound.CommandLine.Reply
import StackBound.Proofs.Project
import StackBound.Proofs.Tree

/-! What decides about the inputs of a run: a flag where it is given, else the project file where it says
something, else the standard value. This fails for one setting. A file that lists no entry points, where
no flag names any, is taken for a file that says nothing about them, and the run starts at the standard
entry point. -/
namespace StackBound.CommandLine

open Project (boolean? resolve said string? strings?)

/-- What a request is configured by: no file at all, or the document in the file that is named or else
found, with the directory of that file. -/
inductive World.Configures (w : World) (r : InputRequest) : Path → Toml.Table → Prop
  | absent (unnamed : r.config = []) (missing : Project.find w.tree Path.dot = []) :
      w.Configures r [] []
  | present {path : Path} {content : Bytes} {document : Toml.Document} (nonempty : path ≠ [])
      (named : path = if r.config = [] then Project.find w.tree Path.dot else r.config)
      (read : w.tree.read path = .ok content)
      (parsed : Toml.Document.parse? content = some document) :
      w.Configures r path.dir document.root

section Request

variable {w : World} {r : InputRequest} {p : Project}

theorem World.configures_of_project (found : w.project r = .ok p) :
    ∃ base root, w.Configures r base root ∧ p.Holds base root := by
  unfold project at found
  dsimp only at found
  generalize named : (if r.config = [] then Project.find w.tree Path.dot else r.config) = path at found
  split at found
  next missing =>
    cases found
    have unnamed : r.config = [] := by
      by_contra some
      rw [if_neg some] at named
      exact some (named.trans missing)
    rw [if_pos unnamed, missing] at named
    exact ⟨[], [], .absent unnamed named, Project.holds_empty⟩
  next nonempty =>
    unfold Project.load at found
    split at found
    next content read =>
      obtain ⟨document, parsed, holds⟩ := Project.holds_of_ofContent found
      exact ⟨_, _, .present nonempty named.symm read parsed, holds⟩
    next => split at found <;> cases found

/-- What a flag or a file says about the entry points is done, but for a list of none in the file alone:
then the run starts at the standard entry point. -/
theorem InputRequest.entryPoints_eq (r : InputRequest) (p : Project) :
    let asked := r.startFunctions.map (Bytes.split Csv.comma)
    r.entryPoints p =
      if asked = none ∧ p.entryPoints = some [] then [Options.standardEntry]
      else (asked.or p.entryPoints).getD [Options.standardEntry] := by
  have standard : Options.standardEntry.split Csv.comma = [Options.standardEntry] := by decide
  dsimp only [entryPoints]
  split
  next listed unasked found => simp [unasked, found]
  next asked found unlisted =>
    cases asked : r.startFunctions with
    | some text => simp
    | none =>
      rcases found : p.entryPoints with _ | _ | ⟨entry, more⟩
      · simpa using standard
      · simpa using standard
      · exact absurd found (unlisted entry more asked)

end Request

/-- Flags come before the project file, and the file before the standard values, in every input of a run
but one. The entry points are what the flag says, or else what the file says, or else the standard one,
exactly if it is not the case that the file alone says there are none; where it does, the run starts at
the standard entry point. -/
theorem World.options_precedence (w : World) (r : InputRequest) {p : Project}
    (found : w.project r = .ok p) :
    ∃ base root, w.Configures r base root ∧
      let o := r.options p
      o.elfFile = (r.elfFile.or ((said root "elf_file" string?).map (resolve base))).getD [] ∧
      o.suDirs = (r.suDirs.or ((said root "su_dirs" strings?).map (·.map (resolve base)))).getD [] ∧
      o.cgraphDirs =
        (r.cgraphDirs.or ((said root "cgraph_dirs" strings?).map (·.map (resolve base)))).getD [] ∧
      o.vectorTable = (r.vectorTable.or (said root "vector_table" string?)).getD [] ∧
      o.ignoreFile =
        (r.ignoreCalls.or ((said root "ignore_calls" string?).map (resolve base))).getD [] ∧
      o.addCallFiles =
        (r.addCalls.or ((said root "add_calls" strings?).map (·.map (resolve base)))).getD [] ∧
      o.reachability = (r.debug.or (said root "debug" boolean?)).getD false ∧
      let asked := r.startFunctions.map (Bytes.split Csv.comma)
      let listed := said root "entry_points" strings?
      (o.entryPoints = some ((asked.or listed).getD [Options.standardEntry]) ↔
        ¬(asked = none ∧ listed = some [])) ∧
      (asked = none ∧ listed = some [] → o.entryPoints = some [Options.standardEntry]) := by
  obtain ⟨base, root, configures, holds⟩ := World.configures_of_project found
  have first {α : Type} (flag file : Option α) (standard : α) :
      flag.getD (file.getD standard) = (flag.or file).getD standard := by
    cases flag <;> rfl
  have entries := r.entryPoints_eq p
  rw [holds.entryPoints] at entries
  refine ⟨base, root, configures, ?_, ?_, ?_, ?_, ?_, ?_, ?_, ?_, fun empty => ?_⟩
  · exact (congrArg r.elfFile.getD holds.elfFile).trans (first ..)
  · exact (congrArg r.suDirs.getD holds.suDirs).trans (first ..)
  · exact (congrArg r.cgraphDirs.getD holds.cgraphDirs).trans (first ..)
  · exact (congrArg r.vectorTable.getD holds.vectorTable).trans (first ..)
  · exact (congrArg r.ignoreCalls.getD holds.ignoreCalls).trans (first ..)
  · exact (congrArg r.addCalls.getD holds.addCalls).trans (first ..)
  · exact (congrArg r.debug.getD holds.debug).trans (first ..)
  · rw [InputRequest.options, Option.some.injEq, entries]
    split
    next empty => simp [empty]
    next given => exact iff_of_true rfl given
  · rw [InputRequest.options, entries, if_pos empty]

section Sample

/-- A project file that wants no entry points beside the handlers of a vector table. -/
def sampleProject : Bytes := utf8 "su_dirs = [\"b\"]\nentry_points = []\n"

def sampleWorld : World where
  tree := ⟨(∅ : Std.HashMap Place Node).insert [Project.fileName] (.file sampleProject), []⟩
  now := .zero
  cacheHome := []
  home := []
  runId := []
  version := .unstamped

def unflagged : InputRequest := ⟨[], none, none, none, none, none, none, none, none, false, false⟩

theorem find_sampleWorld :
    sampleWorld.tree.find true Project.fileName = .ok ([Project.fileName], .file sampleProject) := by
  have there : sampleWorld.tree.node? [Project.fileName] = some (.file sampleProject) := by
    simp [Tree.node?, sampleWorld]
  have enters : Tree.Enters Project.fileName := ⟨by decide, by decide, by decide⟩
  have solid (target : Path) : sampleWorld.tree.node? [Project.fileName] ≠ some (.link target) := by
    simp [there]
  have placed : sampleWorld.tree.place true Project.fileName = .ok [Project.fileName] :=
    Tree.place_of_name rfl enters solid
  exact Tree.find_of_place placed there

theorem project_sampleWorld :
    sampleWorld.project unflagged = Project.ofContent Project.fileName sampleProject := by
  have found : Project.find sampleWorld.tree Path.dot = Project.fileName := by
    have joined : Path.join [Path.dot, Project.fileName] = Project.fileName := by decide
    simp only [Project.find, joined, Tree.isFile, find_sampleWorld, ↓reduceIte]
  have some : Project.fileName ≠ [] := by decide
  simp only [World.project, unflagged, found, some, ↓reduceIte, Project.load, Tree.read,
    find_sampleWorld]

/-- The project is read, with a list of directories and with a list of no entry points. -/
theorem project_sample :
    ∃ document p, Toml.Document.parse? sampleProject = some document ∧
      said document.root "entry_points" strings? = some [] ∧
      sampleWorld.project unflagged = .ok p ∧ p.suDirs = [utf8 "b"] ∧ p.entryPoints = some [] := by
  have loaded : (Project.ofContent Project.fileName sampleProject).toOption.map
      (fun p => (p.suDirs, p.entryPoints)) = some ([utf8 "b"], some []) := by decide +kernel
  cases made : Project.ofContent Project.fileName sampleProject with
  | error fault =>
    rw [made] at loaded
    cases loaded
  | ok p =>
    rw [made] at loaded
    obtain ⟨suDirs, entries⟩ := Prod.mk.inj (Option.some.inj loaded)
    obtain ⟨document, parsed, holds⟩ := Project.holds_of_ofContent made
    exact ⟨document, p, parsed, holds.entryPoints.symm.trans entries,
      project_sampleWorld.trans made, suDirs, entries⟩

theorem options_precedence_sample :
    ∃ p base root, sampleWorld.project unflagged = .ok p ∧ sampleWorld.Configures unflagged base root ∧
      (unflagged.options p).suDirs =
        ((said root "su_dirs" strings?).map (·.map (resolve base))).getD [] ∧
      (unflagged.options p).suDirs = [utf8 "b"] := by
  obtain ⟨document, p, -, -, found, dirs, -⟩ := project_sample
  obtain ⟨base, root, configures, -, suDirs, -⟩ := sampleWorld.options_precedence unflagged found
  exact ⟨p, base, root, found, configures, suDirs, dirs⟩

/-- A file that lists no entry points leaves the run with the standard one. -/
theorem options_of_no_entries :
    ∃ document p, Toml.Document.parse? sampleProject = some document ∧
      said document.root "entry_points" strings? = some [] ∧
      sampleWorld.project unflagged = .ok p ∧ unflagged.startFunctions = none ∧
      (unflagged.options p).entryPoints = some [Options.standardEntry] := by
  obtain ⟨document, p, parsed, listed, found, -, entries⟩ := project_sample
  refine ⟨document, p, parsed, listed, found, rfl, ?_⟩
  rw [InputRequest.options, unflagged.entryPoints_eq p, if_pos ⟨rfl, entries⟩]

end Sample

end StackBound.CommandLine
