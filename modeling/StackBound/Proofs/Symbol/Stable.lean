import StackBound.Proofs.FirstSeen
import StackBound.Proofs.Symbol
import StackBound.Proofs.Text.Trim

/-! Normalizing a list of names. White space is taken away around a name before the name is cut at its
first dot, so that white space before the dot stays at the end of what is left. Names without it give a
list that is normalized once and for all; with it a second time is needed, and is enough. -/
namespace StackBound.Name

/-- A name with white space right before the dot that it is cut at. -/
def Gapped (name : Name) : Prop :=
  ∃ stem rest, name.trim = stem ++ separator :: rest ∧ separator ∉ stem ∧ stem.EndsBlank

/-- A name that is an identity and starts with no white space. -/
structure Settled (name : Name) : Prop where
  named : name ≠ []
  whole : name.normalize = name
  starts : ¬ name.StartsBlank

variable {name raw : Name} {names : List Name}

theorem ne_nil_of_endsBlank (ends : name.EndsBlank) : name ≠ [] := by
  rintro rfl
  obtain ⟨g, last, -⟩ := ends
  cases last

/-- White space is left at the end of a trimmed name only where the name is cut. -/
theorem endsBlank_iff_gapped : (normalize raw.trim).EndsBlank ↔ raw.Gapped := by
  constructor
  · intro ends
    rcases normalize_cases raw.trim with same | ⟨stem, rest, cut, -, free, same⟩
    · rw [same] at ends
      exact absurd ends (Bytes.not_endsBlank_trim raw)
    · exact ⟨stem, rest, cut, free, same ▸ ends⟩
  · rintro ⟨stem, rest, cut, free, ends⟩
    rw [cut, normalize_stem (ne_nil_of_endsBlank ends) free]
    exact ends

theorem not_startsBlank_normalize (raw : Name) : ¬ (normalize raw.trim).StartsBlank := by
  rcases normalize_cases raw.trim with same | ⟨stem, rest, cut, -, -, same⟩
  · rw [same]
    exact Bytes.not_startsBlank_trim raw
  · rintro ⟨g, first, blank⟩
    apply Bytes.not_startsBlank_trim raw
    have dot : ∀ a ∈ (separator :: rest).head?, a.toNat < 128 := by
      rintro a ⟨⟩
      decide
    rw [same] at first
    refine ⟨g, ?_, blank⟩
    rw [cut, Bytes.glyphs_append dot, List.head?_append, Option.mem_def.mp first]
    rfl

/-- The white space that a settled name may have is after all of it, so none is before a dot. -/
theorem Settled.not_gapped (h : name.Settled) : ¬ name.Gapped := by
  rintro ⟨stem, rest, cut, free, ends⟩
  obtain ⟨after, whole⟩ := Bytes.trim_prefix h.starts
  rw [cut, List.append_assoc, List.cons_append] at whole
  have short : name = stem := by
    rw [← h.whole, ← whole, normalize_stem (ne_nil_of_endsBlank ends) free]
  simp [short] at whole

theorem Settled.trim_eq_iff (h : name.Settled) : name.trim = name ↔ ¬ name.EndsBlank :=
  Bytes.trim_eq_self_iff.trans ⟨And.right, fun ends => ⟨h.starts, ends⟩⟩

theorem normalizeAll_eq (names : List Name) :
    normalizeAll names = ((names.map fun n => normalize n.trim).filter (· ≠ [])).eraseDups :=
  distinct_eq _

theorem nodup_normalizeAll (names : List Name) : (normalizeAll names).Nodup := by
  rw [normalizeAll_eq]
  exact nodup_eraseDups _

theorem mem_normalizeAll_iff :
    name ∈ normalizeAll names ↔ name ≠ [] ∧ ∃ raw ∈ names, normalize raw.trim = name := by
  rw [normalizeAll_eq, List.mem_eraseDups, List.mem_filter, List.mem_map, and_comm, decide_eq_true_iff]

theorem settled_of_mem (member : name ∈ normalizeAll names) : name.Settled := by
  obtain ⟨named, raw, -, rfl⟩ := mem_normalizeAll_iff.mp member
  exact ⟨named, normalize_normalize _, not_startsBlank_normalize raw⟩

/-- Names that are trimmed identities, each given once, are left as they are. -/
theorem normalizeAll_of_settled (nodup : names.Nodup)
    (settled : ∀ name ∈ names, name.Settled ∧ ¬ name.EndsBlank) : normalizeAll names = names := by
  have same : (names.map fun n => normalize n.trim) = names := by
    refine (List.map_congr_left fun name member => ?_).trans (List.map_id _)
    obtain ⟨h, ends⟩ := settled name member
    rw [h.trim_eq_iff.mpr ends, h.whole, id]
  rw [normalizeAll_eq, same, List.filter_eq_self.mpr, eraseDups_eq_self nodup]
  exact fun name member => decide_eq_true (settled name member).1.named

/-- No white space is left at the end of names that were made from settled ones. -/
theorem normalizeAll_twice_trimmed (settled : ∀ raw ∈ names, raw.Settled)
    (member : name ∈ normalizeAll names) : ¬ name.EndsBlank := by
  obtain ⟨-, raw, given, rfl⟩ := mem_normalizeAll_iff.mp member
  exact mt endsBlank_iff_gapped.mp (settled raw given).not_gapped

theorem trimmed_iff_not_gapped (names : List Name) :
    (∀ name ∈ normalizeAll names, ¬ name.EndsBlank) ↔ ∀ raw ∈ names, ¬ raw.Gapped := by
  constructor
  · intro trimmed raw given gapped
    have ends := endsBlank_iff_gapped.mpr gapped
    exact trimmed _ (mem_normalizeAll_iff.mpr ⟨ne_nil_of_endsBlank ends, raw, given, rfl⟩) ends
  · intro free name member ends
    obtain ⟨-, raw, given, rfl⟩ := mem_normalizeAll_iff.mp member
    exact free raw given (endsBlank_iff_gapped.mp ends)

theorem normalizeAll_normalizeAll_iff (names : List Name) :
    normalizeAll (normalizeAll names) = normalizeAll names ↔
      ∀ name ∈ normalizeAll names, ¬ name.EndsBlank := by
  have settled : ∀ name ∈ normalizeAll names, name.Settled := fun _ => settled_of_mem
  constructor
  · intro same name member
    rw [← same] at member
    exact normalizeAll_twice_trimmed settled member
  · intro trimmed
    exact normalizeAll_of_settled (nodup_normalizeAll names)
      fun name member => ⟨settled name member, trimmed name member⟩

/-- What normalizing a list of names gives and when it is stable. The names are the identities of those
given, trimmed, without the empty one; they differ, are identities, and do not start with white space.
None ends with white space exactly if no name was given with white space right before the dot that it is
cut at, and exactly then normalizing again changes nothing. After a second time nothing ever changes. -/
theorem normalizeAll_stable_iff (names : List Name) :
    let once := normalizeAll names
    once.Nodup ∧
    (∀ name, name ∈ once ↔ name ≠ [] ∧ ∃ raw ∈ names, normalize raw.trim = name) ∧
    (∀ name ∈ once, name ≠ [] ∧ name.normalize = name ∧ ¬ name.StartsBlank ∧
      (name.trim = name ↔ ¬ name.EndsBlank)) ∧
    ((∀ name ∈ once, ¬ name.EndsBlank) ↔ ∀ raw ∈ names, ¬ raw.Gapped) ∧
    (normalizeAll once = once ↔ ∀ raw ∈ names, ¬ raw.Gapped) ∧
    normalizeAll (normalizeAll once) = normalizeAll once := by
  intro once
  refine ⟨nodup_normalizeAll names, fun name => mem_normalizeAll_iff, fun name member => ?_,
    trimmed_iff_not_gapped names, ?_, ?_⟩
  · have settled : name.Settled := settled_of_mem member
    exact ⟨settled.named, settled.whole, settled.starts, settled.trim_eq_iff⟩
  · exact (normalizeAll_normalizeAll_iff names).trans (trimmed_iff_not_gapped names)
  · apply (normalizeAll_normalizeAll_iff once).mpr
    intro name member
    exact normalizeAll_twice_trimmed (fun _ => settled_of_mem) member

/-- A clone with white space before its suffix is not merged with its function until the second time. -/
theorem normalizeAll_stable_iff_clone :
    let names := [utf8 " task .part.0", utf8 "task"]
    utf8 "task " ∈ normalizeAll names ∧ (utf8 "task ").trim ≠ utf8 "task " ∧
      normalizeAll (normalizeAll names) ≠ normalizeAll names ∧
      normalizeAll (normalizeAll (normalizeAll names)) = normalizeAll (normalizeAll names) := by
  intro names
  obtain ⟨-, members, each, trimmed, stable, settles⟩ := normalizeAll_stable_iff names
  have member : utf8 "task " ∈ normalizeAll names :=
    (members _).mpr ⟨by decide, utf8 " task .part.0", by simp [names], by decide⟩
  have ends : (utf8 "task ").EndsBlank := by decide
  refine ⟨member, fun same => (each _ member).2.2.2.mp same ends, fun same => ?_, settles⟩
  exact trimmed.mpr (stable.mp same) _ member ends

/-- White space before a dot is not taken away with what follows the dot, but only by a second pass. -/
theorem normalizeAll_keeps_gap :
    normalizeAll [utf8 "a .b"] = [utf8 "a "] ∧ (utf8 "a ").EndsBlank ∧
      normalizeAll (normalizeAll [utf8 "a .b"]) = [utf8 "a"] := by
  have once : normalizeAll [utf8 "a .b"] = [utf8 "a "] := by
    rw [normalizeAll_eq]
    decide
  have twice : normalizeAll [utf8 "a "] = [utf8 "a"] := by
    rw [normalizeAll_eq]
    decide
  exact ⟨once, by decide, once ▸ twice⟩

end StackBound.Name
