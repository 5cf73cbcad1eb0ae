import Mathlib.Data.List.Induction
import StackBound.Project

/-! What a project file sets. A key means a setting if it is its name, or its name but for case; where
several mean the same setting, the last counts. Settings that are not named keep their standard values,
and an empty list is not the same as none. -/
namespace StackBound.Project

open Toml (Item Key Table)

section Apply

variable {α β : Type} {settings : List (Setting α)} {table : Table} {field : Bytes × Item}
  {start value : α} {known : List Key}

def meaning? (settings : List (Setting α)) (key : Bytes) : Option Bytes :=
  Bytes.meant? (settings.map (·.name)) key

/-- The value that a table gives to the setting of a name: that of the last key that means it. -/
def given (settings : List (Setting α)) (table : Table) (name : Bytes) (read? : Item → Option β) :
    Option β :=
  (table.filter fun field => meaning? settings field.1 = some name).getLast?.bind (read? ·.2)

/-- The last field of a table changes what the setting meant by its key changes, or nothing. -/
theorem apply_concat (applied : apply settings (table ++ [field]) start = some (value, known)) :
    ∃ before seen, apply settings table start = some (before, seen) ∧
      ((∀ s ∈ settings, meaning? settings field.1 ≠ some s.name) ∧ value = before ∨
        ∃ s ∈ settings, meaning? settings field.1 = some s.name ∧
          ∃ inner, s.assign before field.2 = some (value, inner)) := by
  rw [apply, List.foldlM_append] at applied
  obtain ⟨⟨before, seen⟩, first, last⟩ := Option.bind_eq_some_iff.mp applied
  refine ⟨before, seen, first, ?_⟩
  rw [List.foldlM_cons] at last
  obtain ⟨⟨after, all⟩, step, last⟩ := Option.bind_eq_some_iff.mp last
  cases last
  dsimp only at step
  split at step
  next unknown =>
    cases step
    refine .inl ⟨fun s member meant => ?_, rfl⟩
    have unlisted := Option.bind_eq_none_iff.mp unknown _ meant
    simpa using List.find?_eq_none.mp unlisted s member
  next s found =>
    obtain ⟨name, meant, found⟩ := Option.bind_eq_some_iff.mp found
    obtain ⟨⟨after, inner⟩, assigned, step⟩ := Option.map_eq_some_iff.mp step
    cases step
    obtain rfl : s.name = name := by simpa using List.find?_some found
    exact .inr ⟨s, List.mem_of_find?_eq_some found, meant, inner, assigned⟩

variable {name : Bytes} {read? : Item → Option β} {part : α → β}

theorem given_concat :
    given settings (table ++ [field]) name read? =
      if meaning? settings field.1 = some name then read? field.2
      else given settings table name read? := by
  rw [given, List.filter_append, List.filter_cons, List.filter_nil]
  split <;> simp_all [given]

/-- A setting decides a part of what it changes if it has the name, and leaves it alone if it has not. -/
def Setting.Respects (s : Setting α) (name : Bytes) (read? : Item → Option β) (part : α → β) : Prop :=
  ∀ a item a' inner, s.assign a item = some (a', inner) →
    if s.name = name then read? item = some (part a') else part a' = part a

/-- After all the fields of a table, a part is what the table gives it, or else what it was before. -/
theorem part_of_apply (listed : ∃ s ∈ settings, s.name = name)
    (respected : ∀ s ∈ settings, s.Respects name read? part)
    (applied : apply settings table start = some (value, known)) :
    part value = (given settings table name read?).getD (part start) := by
  induction table using List.reverseRecOn generalizing value known with
  | nil =>
    cases applied
    rfl
  | append_singleton table field ih =>
    obtain ⟨before, seen, first, ⟨unmeant, rfl⟩ | ⟨s, member, meant, inner, assigned⟩⟩ :=
      apply_concat applied
    · obtain ⟨s, member, rfl⟩ := listed
      rw [given_concat, if_neg (unmeant s member), ih first]
    have effect := respected s member before field.2 value inner assigned
    rw [given_concat]
    split at effect
    next named => rw [if_pos (named ▸ meant), effect, Option.getD_some]
    next named =>
      rw [if_neg (fun same => named (Option.some.inj (meant.symm.trans same))), effect, ih first]

end Apply

section Settings

variable {α β γ : Type} {key : String} {read? : Item → Option γ} {put : α → γ → α} {name : Bytes}
  {value? : Item → Option β} {part : α → β}

theorem respects_own
    (stored : ∀ a item value, read? item = some value → value? item = some (part (put a value))) :
    (plain key read? put).Respects (utf8 key) value? part := by
  intro a item a' inner assigned
  obtain ⟨value, read, same⟩ := Option.map_eq_some_iff.mp assigned
  cases same
  exact (if_pos rfl).mpr (stored a item value read)

theorem respects_other (different : utf8 key ≠ name) (kept : ∀ a value, part (put a value) = part a) :
    (plain key read? put).Respects name value? part := by
  intro a item a' inner assigned
  obtain ⟨value, -, same⟩ := Option.map_eq_some_iff.mp assigned
  cases same
  exact (if_neg different).mpr (kept a value)

theorem respects_cache {part : Project → β} (different : utf8 "cache" ≠ name)
    (kept : ∀ p cache, part { p with cache := cache } = part p) :
    cacheSetting.Respects name value? part := by
  intro p item p' inner assigned
  refine (if_neg different).mpr ?_
  dsimp only [cacheSetting] at assigned
  split at assigned
  · obtain ⟨⟨cache, known⟩, -, same⟩ := Option.map_eq_some_iff.mp assigned
    cases same
    exact kept p cache
  · cases assigned

end Settings

section File

variable {β : Type} {root : Table} {p : Project} {known : List Key} {path : Path} {content : Bytes}

/-- What a project file says about a setting. -/
def said (root : Table) (name : String) (value? : Item → Option β) : Option β :=
  given settings root (utf8 name) value?

/-- A project has what a file says, with paths as seen from a directory, and standard values otherwise. -/
structure Holds (p : Project) (base : Path) (root : Table) : Prop where
  elfFile : p.elfFile = ((said root "elf_file" string?).map (resolve base)).getD []
  suDirs : p.suDirs = ((said root "su_dirs" strings?).map (·.map (resolve base))).getD []
  cgraphDirs : p.cgraphDirs = ((said root "cgraph_dirs" strings?).map (·.map (resolve base))).getD []
  entryPoints : p.entryPoints = said root "entry_points" strings?
  vectorTable : p.vectorTable = (said root "vector_table" string?).getD []
  ignoreCalls : p.ignoreCalls = ((said root "ignore_calls" string?).map (resolve base)).getD []
  addCalls : p.addCalls = ((said root "add_calls" strings?).map (·.map (resolve base))).getD []
  debug : p.debug = (said root "debug" boolean?).getD false

/-- A part of a project is what the file says, or else what it is without a file. -/
theorem part_of_settings (applied : apply settings root empty = some (p, known)) (name : String)
    (value? : Item → Option β) (part : Project → β) (listed : utf8 name ∈ settings.map (·.name))
    (respected : ∀ s ∈ settings, s.Respects (utf8 name) value? part) :
    part p = (said root name value?).getD (part empty) :=
  part_of_apply (List.mem_map.mp listed) respected applied

/-- A list that is said to be empty is not the same as none. -/
theorem said_some (root : Table) (name : String) (value? : Item → Option β) :
    (said root name fun item => (value? item).map some).getD none = said root name value? := by
  rw [said, said, given, given]
  cases List.getLast? _ with
  | none => rfl
  | some field => cases read : value? field.2 <;> simp [read]

theorem holds_of_apply (applied : apply settings root empty = some (p, known)) (base : Path) :
    (p.resolved base).Holds base root := by
  have part {β : Type} := part_of_settings (β := β) applied
  have file (said : Option Path) :
      resolve base (said.getD []) = (said.map (resolve base)).getD [] :=
    (Option.getD_map (resolve base) [] said).symm
  have files (said : Option (List Path)) :
      (said.getD []).map (resolve base) = (said.map (·.map (resolve base))).getD [] :=
    (Option.getD_map (List.map (resolve base)) [] said).symm
  refine
    { elfFile := (congrArg _ (part "elf_file" string? elfFile ?_ ?_)).trans (file _)
      suDirs := (congrArg _ (part "su_dirs" strings? suDirs ?_ ?_)).trans (files _)
      cgraphDirs := (congrArg _ (part "cgraph_dirs" strings? cgraphDirs ?_ ?_)).trans (files _)
      entryPoints := (part "entry_points" _ entryPoints ?_ ?_).trans (said_some ..)
      vectorTable := part "vector_table" string? vectorTable ?_ ?_
      ignoreCalls := (congrArg _ (part "ignore_calls" string? ignoreCalls ?_ ?_)).trans (file _)
      addCalls := (congrArg _ (part "add_calls" strings? addCalls ?_ ?_)).trans (files _)
      debug := part "debug" boolean? debug ?_ ?_ }
  -- Each name is one of the settings, and each setting either has it or leaves its part alone.
  all_goals first
    | decide
    | simp +decide +contextual [settings, respects_own, respects_other, respects_cache]

theorem holds_empty : empty.Holds [] [] := by
  constructor <;> rfl

theorem holds_of_ofContent (made : ofContent path content = .ok p) :
    ∃ document, Toml.Document.parse? content = some document ∧ p.Holds path.dir document.root := by
  rw [ofContent] at made
  cases parsed : Toml.Document.parse? content with
  | none =>
    rw [parsed] at made
    cases made
  | some document =>
    rw [parsed, Option.bind_some] at made
    dsimp only at made
    split at made
    · cases made
    next applied =>
      obtain ⟨⟨applied, known⟩, found, same⟩ := Option.map_eq_some_iff.mp applied
      cases same
      -- No key is unknown, and neither the limit nor the lifetime is refused.
      split at made
      · cases made
      split at made
      · cases made
      split at made
      · cases made
      cases made
      obtain ⟨elfFile, suDirs, cgraphDirs, entryPoints, vectorTable, ignoreCalls, addCalls, debug⟩ :=
        holds_of_apply found path.dir
      exact ⟨document, rfl, elfFile, suDirs, cgraphDirs, entryPoints, vectorTable, ignoreCalls,
        addCalls, debug⟩

end File

end StackBound.Project
