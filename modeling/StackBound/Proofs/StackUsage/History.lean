import Mathlib.Data.List.Induction
import StackBound.Proofs.StackUsage.Charge

/-! What a table holds after any history of updates, in terms of the records it took in. Its three
indexes are kept apart, but they agree: the entry of an identity is the largest of the entries of its
raw names, and an identity stands for the raw name that came first. Sizes do not depend on the order of
the history, first names do. -/
namespace StackBound.StackUsage

theorem Largest.unique {recorded : Int64 → Prop} {found found' : Option Int64}
    (h : Largest recorded found) (h' : Largest recorded found') : found = found' := by
  cases found with
  | none =>
    cases found' with
    | none => rfl
    | some size => exact absurd h'.1 (h size)
  | some size =>
    cases found' with
    | none => exact absurd h.1 (h' size)
    | some size' => exact congrArg some (Int64.le_antisymm (h'.2 size h.1) (h.2 size' h'.1))

theorem Largest.isSome_iff {recorded : Int64 → Prop} {found : Option Int64}
    (h : Largest recorded found) : found.isSome = true ↔ ∃ size, recorded size := by
  cases found with
  | none => simpa [Largest] using h
  | some most => exact iff_of_true rfl ⟨most, h.1⟩

instance (r : Record) : Decidable r.Accepted := inferInstanceAs (Decidable (_ ∧ _))

def accepted (records : List Record) : List Record := records.filter (·.Accepted)

theorem mem_accepted {records : List Record} {r : Record} :
    r ∈ accepted records ↔ r ∈ records ∧ r.Accepted := by
  simp [accepted]

namespace Table

/-! ### Sizes -/

section Sizes

variable {records records' : List Record} {t t' : Table}

/-- The indexes of a table depend on which records there are. -/
theorem Indexes.congr (h : Indexes records t) (h' : Indexes records' t')
    (same : ∀ r, r ∈ records ↔ r ∈ records') :
    (∀ name : Name, t.sizes[name]? = t'.sizes[name]?) ∧
      ∀ name : Name, t.normalized[name]? = t'.normalized[name]? := by
  constructor <;> intro name
  · exact (h.sizes name).unique ((h'.sizes name).congr fun size => by simp only [same])
  · exact (h.normalized name).unique ((h'.normalized name).congr fun size => by simp only [same])

theorem frameSize_congr (sizes : ∀ name : Name, t.sizes[name]? = t'.sizes[name]?)
    (normalized : ∀ name : Name, t.normalized[name]? = t'.normalized[name]?) (name : Name) :
    t.frameSize name = t'.frameSize name := by
  simp only [frameSize, lookup, sizes, normalized]

theorem Indexes.largest_size (h : Indexes records t) (name : Name) :
    Largest (fun size => ⟨name, size⟩ ∈ accepted records) t.sizes[name]? := by
  refine (h.sizes name).congr fun size => ?_
  rw [mem_accepted]
  constructor
  · rintro ⟨r, recorded, accepted, rfl, rfl⟩
    exact ⟨recorded, accepted⟩
  · rintro ⟨recorded, accepted⟩
    exact ⟨_, recorded, accepted, rfl, rfl⟩

/-- The largest size of an identity is the entry of one of its raw names, and no other entry of theirs
is larger. -/
theorem Indexes.largest_of_names (h : Indexes records t) (identity : Name) :
    Largest (fun size => ∃ name, Name.normalize name = identity ∧ t.sizes[name]? = some size)
      t.normalized[identity]? := by
  have shared := h.normalized identity
  have recorded {name : Name} {size : Int64} (entry : t.sizes[name]? = some size) :
      ∃ r ∈ records, r.Accepted ∧ r.name = name ∧ r.size = size := by
    have own := h.sizes name
    rw [entry] at own
    exact own.1
  cases found : t.normalized[identity]? with
  | none =>
    rw [found] at shared
    rintro size ⟨name, same, entry⟩
    obtain ⟨r, listed, accepted, rfl, rfl⟩ := recorded entry
    exact shared r.size ⟨r, listed, accepted, same, rfl⟩
  | some most =>
    rw [found] at shared
    obtain ⟨⟨r, listed, accepted, same, rfl⟩, most⟩ := shared
    have below {name : Name} {size : Int64} (same : Name.normalize name = identity)
        (entry : t.sizes[name]? = some size) : size ≤ r.size := by
      obtain ⟨other, listed, accepted, rfl, rfl⟩ := recorded entry
      exact most other.size ⟨other, listed, accepted, same, rfl⟩
    refine ⟨⟨r.name, same, ?_⟩, fun size ⟨name, same, entry⟩ => below same entry⟩
    -- The raw name has an entry no smaller than its record, and the identity's bounds that entry.
    have own := h.sizes r.name
    cases entry : t.sizes[r.name]? with
    | none =>
      rw [entry] at own
      exact absurd ⟨r, listed, accepted, rfl, rfl⟩ (own r.size)
    | some size =>
      rw [entry] at own
      exact congrArg some (Int64.le_antisymm (below same entry)
        (own.2 r.size ⟨r, listed, accepted, rfl, rfl⟩))

theorem Indexes.mem_normalized_iff (h : Indexes records t) (identity : Name) :
    identity ∈ t.normalized ↔ ∃ name ∈ t.sizes, Name.normalize name = identity := by
  rw [Std.HashMap.mem_iff_isSome_getElem?, (h.largest_of_names identity).isSome_iff]
  constructor
  · rintro ⟨size, name, same, entry⟩
    exact ⟨name, Std.HashMap.mem_iff_isSome_getElem?.mpr (by simp [entry]), same⟩
  · rintro ⟨name, recorded, same⟩
    exact ⟨t.sizes[name], name, same, Std.HashMap.getElem?_eq_some_getElem recorded⟩

theorem Indexes.mem_normalized_iff_accepted (h : Indexes records t) (identity : Name) :
    identity ∈ t.normalized ↔ ∃ r ∈ accepted records, Name.normalize r.name = identity := by
  rw [Std.HashMap.mem_iff_isSome_getElem?, (h.normalized identity).isSome_iff]
  constructor
  · rintro ⟨size, r, recorded, taken, same, -⟩
    exact ⟨r, mem_accepted.mpr ⟨recorded, taken⟩, same⟩
  · rintro ⟨r, member, same⟩
    obtain ⟨recorded, taken⟩ := mem_accepted.mp member
    exact ⟨r.size, r, recorded, taken, same, rfl⟩

/-- A name is found exactly if some raw name of the same function was recorded. -/
theorem Indexes.isSome_lookup_iff (h : Indexes records t) (name : Name) :
    (t.lookup name).isSome = true ↔
      ∃ raw ∈ t.sizes, Name.normalize raw = Name.normalize name := by
  cases entry : t.sizes[name]? with
  | some size =>
    have recorded : name ∈ t.sizes := Std.HashMap.mem_iff_isSome_getElem?.mpr (by simp [entry])
    simp only [lookup, entry, Option.isSome_some, true_iff]
    exact ⟨name, recorded, rfl⟩
  | none =>
    simp only [lookup, entry]
    rw [← Std.HashMap.mem_iff_isSome_getElem?, h.mem_normalized_iff]

end Sizes

/-- An update tells that it changed the table exactly if it changed the entry of a raw name. -/
theorem changed_add_iff (t : Table) (name : Name) (size : Int64) :
    (t.add name size).2 = true ↔
      ∃ key : Name, (t.add name size).1.sizes[key]? ≠ t.sizes[key]? := by
  by_cases skip : name = [] ∨ size < 0
  · simp [add, skip]
  · rw [add, dif_neg skip]
    simp only
    cases raised : raises t.sizes name size with
    | false => simp
    | true =>
      refine iff_of_true rfl ⟨name, ?_⟩
      simp only [↓reduceIte, Std.HashMap.getElem?_insert_self]
      intro same
      simp [raises, ← same] at raised

/-! ### First names -/

/-- The first raw name of a function among some records. -/
def firstName (records : List Record) (identity : Name) : Option Name :=
  (records.find? fun r => Name.normalize r.name = identity).map (·.name)

theorem firstName_append (earlier later : List Record) (identity : Name) :
    firstName (earlier ++ later) identity =
      (firstName earlier identity).or (firstName later identity) := by
  rw [firstName, List.find?_append, Option.map_or]
  rfl

theorem raw_add (t : Table) (r : Record) (identity : Name) :
    (t.add r.name r.size).1.raw[identity]? =
      t.raw[identity]?.or (firstName (accepted [r]) identity) := by
  by_cases skip : r.name = [] ∨ r.size < 0
  · have refused : ¬ r.Accepted := fun taken => skip.elim taken.1 (Int64.not_lt.mpr taken.2)
    simp [add, skip, accepted, refused, firstName]
  · have taken : r.Accepted := by rwa [not_or, Int64.not_lt] at skip
    rw [add, dif_neg skip]
    simp only [Std.HashMap.getElem?_insertIfNew]
    by_cases same : Name.normalize r.name = identity
    · subst same
      by_cases known : Name.normalize r.name ∈ t.raw
      · simp [known]
      · simp [known, accepted, taken, firstName]
    · simp [same, accepted, taken, firstName]

theorem raw_merge (records : List Record) (identity : Name) :
    (empty.merge records).raw[identity]? = firstName (accepted records) identity := by
  induction records using List.reverseRecOn with
  | nil => simp [merge, empty, accepted, firstName]
  | append_singleton records r ih =>
    have one : empty.merge (records ++ [r]) = ((empty.merge records).add r.name r.size).1 := by
      rw [merge, List.foldl_append]
      rfl
    rw [one, raw_add, ih, ← firstName_append, accepted, accepted, ← List.filter_append]
    rfl

theorem rawName_after (updates : List Update) (name : Name) :
    (after updates).rawName name =
      (firstName (accepted (updates.flatMap Update.records)) (Name.normalize name)).getD name := by
  rw [after_eq_merge, rawName, Std.HashMap.getD_eq_getD_getElem?, raw_merge]

/-- What a table holds after any history. The entry of a raw name is the largest size accepted for it.
The identities are those of the raw names with an entry, and the entry of an identity is the largest
among these. An identity stands for the raw name that was accepted first, and a name without any for
itself; a name is found exactly if its identity has an entry. A further update tells truly whether it
changed an entry, and a history in another order leaves the same sizes. -/
theorem after_exact (updates : List Update) :
    let t := after updates
    let records := accepted (updates.flatMap Update.records)
    (∀ name : Name, Largest (fun size => ⟨name, size⟩ ∈ records) t.sizes[name]?) ∧
    (∀ identity, identity ∈ t.normalized ↔ ∃ name ∈ t.sizes, Name.normalize name = identity) ∧
    (∀ identity : Name, Largest
      (fun size => ∃ name, Name.normalize name = identity ∧ t.sizes[name]? = some size)
      t.normalized[identity]?) ∧
    (∀ identity ∈ t.normalized, ∃ r,
      records.find? (fun r => Name.normalize r.name = identity) = some r ∧
        t.rawName identity = r.name) ∧
    (∀ name, Name.normalize name ∉ t.normalized → t.rawName name = name) ∧
    (∀ name, (t.lookup name).isSome = true ↔
      ∃ raw ∈ t.sizes, Name.normalize raw = Name.normalize name) ∧
    (∀ name size, (t.add name size).2 = true ↔
      ∃ key : Name, (t.add name size).1.sizes[key]? ≠ t.sizes[key]?) ∧
    ∀ updates', updates.Perm updates' →
      (∀ name : Name, t.sizes[name]? = (after updates').sizes[name]?) ∧
      ∀ identity : Name, t.normalized[identity]? = (after updates').normalized[identity]? := by
  intro t records
  have indexes : Indexes (updates.flatMap Update.records) t := indexes_after updates
  refine ⟨indexes.largest_size, indexes.mem_normalized_iff, indexes.largest_of_names,
    fun identity listed => ?_, fun name unlisted => ?_, indexes.isSome_lookup_iff, changed_add_iff t,
    fun updates' same => ?_⟩
  · obtain ⟨r, member, same⟩ := (indexes.mem_normalized_iff_accepted identity).mp listed
    have own : Name.normalize identity = identity := by rw [← same, Name.normalize_normalize]
    have named : (records.find? fun r => Name.normalize r.name = identity).isSome = true :=
      List.find?_isSome.mpr ⟨r, member, decide_eq_true same⟩
    obtain ⟨first, found⟩ := Option.isSome_iff_exists.mp named
    refine ⟨first, found, ?_⟩
    rw [rawName_after, own, firstName, found]
    rfl
  · have none : firstName records (Name.normalize name) = none := by
      rw [firstName, Option.map_eq_none_iff, List.find?_eq_none]
      intro r member same
      exact unlisted
        ((indexes.mem_normalized_iff_accepted _).mpr ⟨r, member, of_decide_eq_true same⟩)
    rw [rawName_after, none]
    rfl
  · exact indexes.congr (indexes_after updates') fun r => (same.flatMap_right _).mem_iff

end Table
end StackBound.StackUsage
