import StackBound.Proofs.Isolation
import StackBound.Proofs.Text.Decimal
import StackBound.Run.Analysis

/-! Labels of scenarios. A label is the name of a path and, from its second occurrence on, the number
of the occurrence. Two labels are the same only where the name of one path spells the numbered name of
another; where none does, a label finds its scenario and its outcome. -/
namespace StackBound

/-! ### Names with numbers -/

namespace Bytes

theorem ofNat_injective {m n : Nat} (same : ofNat m = ofNat n) : m = n := by
  rw [← natOfDigits_ofNat m, same, natOfDigits_ofNat]

theorem ofNat_ne_mark (n : Nat) (before after : Bytes) : ofNat n ≠ before ++ 35 :: after := by
  intro same
  have member : 35 ∈ ofNat n := by simp [same]
  exact absurd (all_isDigit_ofNat n 35 member) (by decide)

/-- A text ends in at most one way in a mark and a number. -/
theorem append_mark_inj {a b : Bytes} {m n : Nat} (same : a ++ 35 :: ofNat m = b ++ 35 :: ofNat n) :
    a = b ∧ m = n := by
  rcases List.append_eq_append_iff.mp same with ⟨more, rfl, rest⟩ | ⟨more, rfl, rest⟩
  all_goals
    cases more with
    | nil =>
      rw [List.nil_append, List.cons.injEq] at rest
      exact ⟨by simp, ofNat_injective (by simp [rest.2])⟩
    | cons first more =>
      rw [List.cons_append, List.cons.injEq] at rest
      exact absurd rest.2 (ofNat_ne_mark _ _ _)

end Bytes

namespace Scenario

def numbered (occurrence : Bytes × Nat) : Bytes :=
  if 1 < occurrence.2 then occurrence.1 ++ utf8 "#" ++ Bytes.ofNat occurrence.2 else occurrence.1

/-- Names with the number of their occurrence, after some names before them. -/
def occurrences (before : List Bytes) : List Bytes → List (Bytes × Nat)
  | [] => []
  | name :: rest => (name, before.count name + 1) :: occurrences (name :: before) rest

theorem mem_occurrences {before names : List Bytes} {name : Bytes} {n : Nat} :
    (name, n) ∈ occurrences before names ↔
      before.count name < n ∧ n ≤ before.count name + names.count name := by
  induction names generalizing before with
  | nil =>
    simp only [occurrences, List.not_mem_nil, List.count_nil, false_iff]
    omega
  | cons first rest ih =>
    rw [occurrences, List.mem_cons, ih, Prod.mk.injEq]
    by_cases same : first = name
    · subst same
      simp only [List.count_cons_self, true_and]
      omega
    · simp [List.count_cons_of_ne same, Ne.symm same]

theorem nodup_occurrences (before names : List Bytes) : (occurrences before names).Nodup := by
  induction names generalizing before with
  | nil => exact .nil
  | cons first rest ih =>
    refine List.nodup_cons.mpr ⟨?_, ih _⟩
    rw [mem_occurrences, List.count_cons_self]
    omega

/-- Some name spells another one with the number of one of its occurrences. -/
def Clash (names : List Bytes) : Prop :=
  ∃ name ∈ names, ∃ other n, 1 < n ∧ n ≤ names.count other ∧
    name = other ++ utf8 "#" ++ Bytes.ofNat n

/-- Names that have no mark do not clash. -/
theorem not_clash_of_free {names : List Bytes} (free : ∀ name ∈ names, 35 ∉ name) : ¬ Clash names := by
  rintro ⟨name, member, other, n, -, -, rfl⟩
  have marked : 35 ∈ utf8 "#" := by decide
  exact free _ member (by simp [marked])

/-- Without such a name, occurrences are told apart by their labels. -/
theorem nodup_numbered_iff (names : List Bytes) :
    ((occurrences [] names).map numbered).Nodup ↔ ¬ Clash names := by
  rw [List.nodup_map_iff_inj_on (nodup_occurrences [] names)]
  constructor
  · rintro injective ⟨name, member, other, n, repeated, most, spelled⟩
    have first : (name, 1) ∈ occurrences [] names :=
      mem_occurrences.mpr ⟨by simp, by simpa using List.one_le_count_iff.mpr member⟩
    have later : (other, n) ∈ occurrences [] names :=
      mem_occurrences.mpr ⟨by simp; omega, by simpa using most⟩
    have same := injective _ first _ later (by simp [numbered, repeated, spelled])
    rw [Prod.mk.injEq] at same
    omega
  · rintro apart ⟨a, m⟩ first ⟨b, n⟩ second same
    rw [mem_occurrences, List.count_nil, Nat.zero_add] at first second
    simp only [numbered] at same
    split at same <;> split at same
    · simp only [List.append_assoc] at same
      obtain ⟨rfl, rfl⟩ := Bytes.append_mark_inj same
      rfl
    · exact absurd ⟨b, List.one_le_count_iff.mp (by omega), a, m, ‹_›, first.2, same.symm⟩ apart
    · exact absurd ⟨a, List.one_le_count_iff.mp (by omega), b, n, ‹_›, second.2, same⟩ apart
    · rw [Prod.mk.injEq]
      exact ⟨same, by omega⟩

/-! ### Labels -/

theorem getD_foldl_count (names : List Bytes) (counts : Std.HashMap Bytes Nat) (key : Bytes) :
    (names.foldl count counts).getD key 0 = counts.getD key 0 + names.count key := by
  induction names generalizing counts with
  | nil => rfl
  | cons name rest ih =>
    rw [List.foldl_cons, ih, count, Std.HashMap.getD_insert]
    by_cases same : name = key
    · subst same
      simp only [beq_self_eq_true, ↓reduceIte, List.count_cons_self]
      omega
    · simp [same, List.count_cons_of_ne same]

/-- The name of a path among others: its last component, or the cleaned path where another has the
same last component. -/
def nameAmong (paths : List Path) (path : Path) : Bytes :=
  if 1 < (paths.map Path.base).count path.base then path.clean else path.base

theorem foldl_mark (names before : List Bytes) (counts : Std.HashMap Bytes Nat) (done : List Bytes)
    (counted : ∀ key, counts.getD key 0 = before.count key) :
    (names.foldl mark (counts, done)).2.reverse =
      done.reverse ++ (occurrences before names).map numbered := by
  induction names generalizing before counts done with
  | nil => simp [occurrences]
  | cons name rest ih =>
    have now : (count counts name).getD name 0 = before.count name + 1 := by
      simp [count, counted]
    have marked : mark (counts, done) name =
        (count counts name, numbered (name, before.count name + 1) :: done) := by
      simp only [mark, now, numbered]
    rw [List.foldl_cons, marked, ih (name :: before), occurrences]
    · simp
    · intro key
      have grown := getD_foldl_count [name] counts key
      rw [List.foldl_cons, List.foldl_nil, counted] at grown
      rw [grown, List.count_cons, List.count_cons, List.count_nil]
      omega

/-- Labels are the names of the paths with their numbers. -/
theorem labels_eq (paths : List Path) :
    labels paths = (occurrences [] (paths.map (nameAmong paths))).map numbered := by
  have names : stem ((paths.map Path.base).foldl count ∅) = nameAmong paths := by
    funext path
    simp [stem, nameAmong, getD_foldl_count]
  rw [labels, names]
  exact foldl_mark _ [] ∅ [] (by simp)

theorem length_labels (paths : List Path) : (labels paths).length = paths.length := by
  have length (before names : List Bytes) : (occurrences before names).length = names.length := by
    induction names generalizing before with
    | nil => rfl
    | cons name rest ih => rw [occurrences, List.length_cons, List.length_cons, ih]
  rw [labels_eq, List.length_map, length, List.length_map]

/-! ### Scenarios found by their labels -/

theorem label_foldlM {step : List Scenario × List Warning → Bytes × Path →
      Except Fault (List Scenario × List Warning)}
    (each : ∀ done file next, step done file = .ok next →
      next.1.map (·.label) = done.1.map (·.label) ++ [file.1])
    {files : List (Bytes × Path)} {done last : List Scenario × List Warning}
    (loaded : files.foldlM step done = .ok last) :
    last.1.map (·.label) = done.1.map (·.label) ++ files.map (·.1) := by
  induction files generalizing done with
  | nil =>
    cases loaded
    simp
  | cons file rest ih =>
    rw [List.foldlM_cons] at loaded
    cases read : step done file with
    | error fault =>
      rw [read] at loaded
      cases loaded
    | ok next =>
      rw [read] at loaded
      rw [ih loaded, each done file next read, List.map_cons, List.append_assoc,
        List.singleton_append]

/-- Scenarios read from files have the labels of the files, in order. -/
theorem label_of_load {t : Tree} {paths : List Path} {scenarios : List Scenario}
    {warnings : List Warning} (loaded : load t paths = .ok (scenarios, warnings)) :
    scenarios.map (·.label) = if paths = [] then [baseLabel] else labels paths := by
  unfold load at loaded
  split at loaded
  next none =>
    obtain ⟨rfl, -⟩ := Prod.mk.inj (Except.ok.inj loaded)
    simp [none, base]
  next some =>
    rw [if_neg some]
    have whole : ((labels paths).zip paths).map (·.1) = labels paths :=
      List.map_fst_zip (length_labels paths).le
    rw [← whole]
    refine (label_foldlM ?_ loaded).trans (List.nil_append _)
    rintro done ⟨label, path⟩ next given
    dsimp only at given
    cases read : (Annotations.load t path).1 with
    | error fault =>
      rw [read] at given
      cases given
    | ok additions =>
      rw [read] at given
      cases given
      simp

theorem find?_of_nodup {key : α → Bytes} {items : List α} (nodup : (items.map key).Nodup) {x : α}
    (member : x ∈ items) : items.find? (key · = key x) = some x := by
  induction items with
  | nil => cases member
  | cons first rest ih =>
    rw [List.map_cons, List.nodup_cons] at nodup
    rcases List.mem_cons.mp member with rfl | later
    · simp
    · have other : key first ≠ key x := fun same => nodup.1 (same ▸ List.mem_map_of_mem later)
      simpa [other] using ih nodup.2 later

/-- Labels are distinct exactly if no name of a path spells the numbered name of a path that is given
more than once. Then the label of each scenario that was read finds this scenario and its outcome. -/
theorem labels_identify (paths : List Path) :
    ((labels paths).Nodup ↔ ¬ Clash (paths.map (nameAmong paths))) ∧
      ∀ (t : Tree) (scenarios : List Scenario) (warnings : List Warning),
        load t paths = .ok (scenarios, warnings) →
        (paths ≠ [] → scenarios.map (·.label) = labels paths) ∧
        (¬ Clash (paths.map (nameAmong paths)) → ∀ a : Analysis, a.scenarios = scenarios →
          Evaluation.run false a.graph a.table.frameSize scenarios a.entryPoints =
            .ok a.evaluation →
          ∀ (i : Nat) (s : Scenario), scenarios[i]? = some s → a.scenario? s.label = some s ∧
            ∃ o, a.evaluation.outcomes[i]? = some o ∧ a.evaluation.find? s.label = some o) := by
  have distinct : (labels paths).Nodup ↔ ¬ Clash (paths.map (nameAmong paths)) := by
    rw [labels_eq, nodup_numbered_iff]
  refine ⟨distinct, fun t scenarios warnings loaded => ?_⟩
  have given := label_of_load loaded
  refine ⟨fun some => by rw [given, if_neg some], ?_⟩
  rintro apart a rfl evaluated i s listed
  have nodup : (a.scenarios.map (·.label)).Nodup := by
    rw [given]
    split
    · exact List.nodup_singleton _
    · exact distinct.mpr apart
  have member : s ∈ a.scenarios := List.mem_of_getElem? listed
  refine ⟨find?_of_nodup nodup member, ?_⟩
  -- Each outcome has the label of its scenario.
  have outcomes : a.evaluation.outcomes =
      a.scenarios.map (evaluate a.graph a.table.frameSize (Bytes.sortedSet a.entryPoints)) :=
    congrArg Evaluation.outcomes (Except.ok.inj evaluated).symm
  have label (s : Scenario) := (s.tells_evaluate a.graph a.table.frameSize a.entryPoints).label
  have nodup : (a.evaluation.outcomes.map (·.label)).Nodup := by
    rw [outcomes, List.map_map]
    exact (congrArg List.Nodup (List.map_congr_left fun s _ => label s)).mpr nodup
  refine ⟨_, by rw [outcomes, List.getElem?_map, listed]; rfl, ?_⟩
  have found := find?_of_nodup nodup (outcomes ▸ List.mem_map_of_mem member)
  rwa [label] at found

/-- A file given twice beside another one of the same base name. -/
theorem labels_identify_twice :
    labels [utf8 "stack/rx.txt", utf8 "app/rx.txt", utf8 "stack/./rx.txt"] =
        [utf8 "stack/rx.txt", utf8 "app/rx.txt", utf8 "stack/rx.txt#2"] ∧
      (labels [utf8 "stack/rx.txt", utf8 "app/rx.txt", utf8 "stack/./rx.txt"]).Nodup := by
  refine ⟨by rw [labels_eq]; decide, (labels_identify _).1.mpr (not_clash_of_free ?_)⟩
  decide

/-- A file whose name spells the second occurrence of another has its label. -/
theorem labels_not_nodup :
    labels [utf8 "a", utf8 "a", utf8 "a#2"] = [utf8 "a", utf8 "a#2", utf8 "a#2"] ∧
      ¬ (labels [utf8 "a", utf8 "a", utf8 "a#2"]).Nodup := by
  have same : labels [utf8 "a", utf8 "a", utf8 "a#2"] = [utf8 "a", utf8 "a#2", utf8 "a#2"] := by
    rw [labels_eq]
    decide
  exact ⟨same, by rw [same]; decide⟩

end Scenario
end StackBound
