import StackBound.Proofs.Symbol
import StackBound.StackUsage.Table

/-! What a table charges after any history of updates. The entry of a raw name is the largest size
recorded under it, the entry of an identity the largest over all raw names that share it. A raw name
that was recorded goes before its identity, so a function recorded under its plain name is charged for
that alone, and its clones only count where the plain name is missing. -/
namespace StackBound

namespace StackUsage

/-- The largest of the sizes recorded, if there are any. -/
def Largest (recorded : Int64 → Prop) : Option Int64 → Prop
  | none => ∀ size, ¬ recorded size
  | some most => recorded most ∧ ∀ size, recorded size → size ≤ most

theorem Largest.congr {recorded recorded' : Int64 → Prop} {found : Option Int64}
    (h : Largest recorded found) (same : ∀ size, recorded size ↔ recorded' size) :
    Largest recorded' found := by
  obtain rfl : recorded = recorded' := funext fun size => propext (same size)
  exact h

inductive Update
  | add (name : Name) (size : Int64)
  | merge (records : List Record)

namespace Update

def records : Update → List Record
  | .add name size => [⟨name, size⟩]
  | .merge records => records

end Update

/-- A record that a table takes in. -/
def Record.Accepted (r : Record) : Prop := r.name ≠ [] ∧ 0 ≤ r.size

namespace Table

def update (t : Table) : Update → Table
  | .add name size => (t.add name size).1
  | .merge records => t.merge records

def after (updates : List Update) : Table := updates.foldl update empty

/-- A history is as good as its records merged at once. -/
theorem after_eq_merge (updates : List Update) :
    after updates = empty.merge (updates.flatMap Update.records) := by
  suffices grown : ∀ t : Table,
      updates.foldl update t = t.merge (updates.flatMap Update.records) from grown empty
  induction updates with
  | nil => exact fun t => rfl
  | cons u rest ih =>
    intro t
    rw [List.foldl_cons, ih, List.flatMap_cons, merge, merge, List.foldl_append]
    cases u <;> rfl

/-- A size that is put where it raises the entry leaves the largest one there. -/
theorem largest_raise {sizes : Std.HashMap Name Int64} {recorded : Name → Int64 → Prop}
    (h : ∀ key, Largest (recorded key) sizes[key]?) (name : Name) (size : Int64) (key : Name) :
    Largest (fun s => recorded key s ∨ name = key ∧ size = s)
      (if raises sizes name size then sizes.insert name size else sizes)[key]? := by
  by_cases same : name = key
  · subst same
    have before := h name
    cases found : sizes[name]? with
    | none =>
      rw [found] at before
      simp only [raises, found, ↓reduceIte, Std.HashMap.getElem?_insert_self]
      refine ⟨.inr ⟨trivial, rfl⟩, fun s taken => ?_⟩
      rcases taken with earlier | ⟨-, rfl⟩
      · exact absurd earlier (before s)
      · exact Int64.le_refl _
    | some current =>
      rw [found] at before
      obtain ⟨present, most⟩ := before
      -- Only a strictly larger size is put in; either way the larger of the two stays.
      by_cases above : current < size
      · simp only [raises, found, above, decide_true, ↓reduceIte, Std.HashMap.getElem?_insert_self]
        refine ⟨.inr ⟨trivial, rfl⟩, fun s taken => ?_⟩
        rcases taken with earlier | ⟨-, rfl⟩
        · exact Int64.le_trans (most s earlier) (Int64.le_of_lt above)
        · exact Int64.le_refl _
      · simp only [raises, found, above, decide_false, Bool.false_eq_true, ↓reduceIte]
        refine ⟨.inl present, fun s taken => ?_⟩
        rcases taken with earlier | ⟨-, rfl⟩
        · exact most s earlier
        · exact Int64.not_lt.mp above
  · have untouched : (if raises sizes name size then sizes.insert name size else sizes)[key]? =
        sizes[key]? := by
      split
      · rw [Std.HashMap.getElem?_insert, if_neg (by simpa using same)]
      · rfl
    rw [untouched]
    exact (h key).congr fun s => by simp [same]

/-- Both indexes hold the largest size recorded, by raw name and by identity. -/
structure Indexes (records : List Record) (t : Table) : Prop where
  sizes : ∀ key, Largest (fun s => ∃ r ∈ records, r.Accepted ∧ r.name = key ∧ r.size = s)
    t.sizes[key]?
  normalized : ∀ key, Largest
    (fun s => ∃ r ∈ records, r.Accepted ∧ Name.normalize r.name = key ∧ r.size = s) t.normalized[key]?

theorem indexes_empty : Indexes [] empty := by
  constructor <;> intro key <;> simp [empty, Largest]

theorem Indexes.add {records : List Record} {t : Table} (h : Indexes records t) (r : Record) :
    Indexes (records ++ [r]) (t.add r.name r.size).1 := by
  by_cases skip : r.name = [] ∨ r.size < 0
  · have refused : ¬ r.Accepted := fun taken => skip.elim taken.1 (Int64.not_lt.mpr taken.2)
    rw [Table.add, dif_pos skip]
    exact ⟨fun key => (h.sizes key).congr fun s => by simp [or_and_right, exists_or, refused],
      fun key => (h.normalized key).congr fun s => by simp [or_and_right, exists_or, refused]⟩
  · have accepted : r.Accepted := by
      rw [not_or, Int64.not_lt] at skip
      exact skip
    rw [Table.add, dif_neg skip]
    exact ⟨fun key => (largest_raise h.sizes r.name r.size key).congr fun s => by
        simp [or_and_right, exists_or, accepted],
      fun key => (largest_raise h.normalized (Name.normalize r.name) r.size key).congr fun s => by
        simp [or_and_right, exists_or, accepted]⟩

theorem indexes_after (updates : List Update) :
    Indexes (updates.flatMap Update.records) (after updates) := by
  rw [after_eq_merge]
  suffices grown : ∀ (seen : List Record) (t : Table), Indexes seen t →
      ∀ records, Indexes (seen ++ records) (t.merge records) from
    grown [] empty indexes_empty _
  intro seen t h records
  induction records generalizing seen t with
  | nil => simpa [merge] using h
  | cons r rest ih => simpa [merge] using ih (seen ++ [r]) _ (h.add r)

/-- A name recorded with one size only is charged for that. -/
theorem frameSize_merge_of_unique {records : List Record} {name : Name} {size : Int64}
    (recorded : ⟨name, size⟩ ∈ records) (named : name ≠ []) (nonneg : 0 ≤ size)
    (unique : ∀ r ∈ records, r.name = name → r.size = size) :
    (empty.merge records).frameSize name = size := by
  have indexes : Indexes records (empty.merge records) := by
    simpa [after_eq_merge, Update.records] using indexes_after [.merge records]
  have own := indexes.sizes name
  cases found : (empty.merge records).sizes[name]? with
  | none =>
    rw [found] at own
    exact absurd ⟨⟨name, size⟩, recorded, ⟨named, nonneg⟩, rfl, rfl⟩ (own size)
  | some most =>
    rw [found] at own
    obtain ⟨r, listed, -, same, rfl⟩ := own.1
    rw [frameSize, lookup, found]
    exact unique r listed same

/-- A function is charged for its plain name where that is recorded, and then for the largest size
recorded under it; else for the largest size recorded under any name of the function. So every record
is covered, except that of a clone beside a plain name. -/
theorem frameSize_identity (updates : List Update) (r : Record)
    (recorded : r ∈ updates.flatMap Update.records) (accepted : r.Accepted) :
    let charged := (after updates).frameSize (Name.normalize r.name)
    let plain (size : Int64) := ∃ other ∈ updates.flatMap Update.records,
      other.Accepted ∧ other.name = Name.normalize r.name ∧ other.size = size
    (r.name = Name.normalize r.name ∨ (∀ size, ¬ plain size) → r.size ≤ charged) ∧
      ((∃ size, plain size) → plain charged ∧ ∀ size, plain size → size ≤ charged) := by
  intro charged plain
  have indexes := indexes_after updates
  have own := indexes.sizes (Name.normalize r.name)
  have shared := indexes.normalized (Name.normalize r.name)
  cases found : (after updates).sizes[Name.normalize r.name]? with
  | some size =>
    have cost : charged = size := by simp [charged, frameSize, lookup, found]
    rw [found, ← cost] at own
    refine ⟨fun covered => ?_, fun _ => own⟩
    rcases covered with whole | missing
    · exact own.2 r.size ⟨r, recorded, accepted, whole, rfl⟩
    · exact absurd own.1 (missing charged)
  | none =>
    rw [found] at own
    refine ⟨fun _ => ?_, fun ⟨size, present⟩ => absurd present (own size)⟩
    cases whole : (after updates).normalized[Name.normalize r.name]? with
    | none =>
      rw [whole] at shared
      exact absurd ⟨r, recorded, accepted, rfl, rfl⟩ (shared r.size)
    | some size =>
      have cost : charged = size := by simp [charged, frameSize, lookup, found, whole]
      rw [whole, ← cost] at shared
      exact shared.2 r.size ⟨r, recorded, accepted, rfl, rfl⟩

/-- A clone recorded without its plain name is charged in full. -/
theorem frameSize_identity_clone :
    let updates := [Update.add (utf8 "f.part.0") 40, .merge [⟨utf8 "f", 8⟩, ⟨utf8 "f", 16⟩],
      .add (utf8 "g.isra.0") 24]
    ⟨utf8 "g.isra.0", 24⟩ ∈ updates.flatMap Update.records ∧
      Record.Accepted ⟨utf8 "g.isra.0", 24⟩ ∧ 24 ≤ (after updates).frameSize (utf8 "g") := by
  intro updates
  have recorded : ⟨utf8 "g.isra.0", 24⟩ ∈ updates.flatMap Update.records := by decide
  have accepted : Record.Accepted ⟨utf8 "g.isra.0", 24⟩ := ⟨by decide, by decide⟩
  refine ⟨recorded, accepted, (frameSize_identity updates _ recorded accepted).1 (.inr ?_)⟩
  rintro size ⟨other, listed, -, plain, -⟩
  simp only [updates, List.flatMap_cons, List.flatMap_nil, Update.records, List.cons_append,
    List.nil_append, List.mem_cons, List.not_mem_nil, or_false] at listed
  rcases listed with rfl | rfl | rfl | rfl <;> revert plain <;> decide

/-- A clone beside its plain name is not covered, however large its frame. -/
theorem frameSize_lt_of_clone :
    let updates := [Update.add (utf8 "f") 8, .add (utf8 "f.part.0") 40]
    let clone : Record := ⟨utf8 "f.part.0", 40⟩
    clone ∈ updates.flatMap Update.records ∧ clone.Accepted ∧
      (after updates).frameSize (Name.normalize clone.name) < clone.size := by
  have distinct : utf8 "f.part.0" ≠ utf8 "f" := by decide
  have charged : (after [.add (utf8 "f") 8, .add (utf8 "f.part.0") 40]).frameSize (utf8 "f") = 8 := by
    rw [after_eq_merge]
    exact frameSize_merge_of_unique (by simp [Update.records]) (by decide) (by decide)
      (by simp [Update.records, distinct])
  have identity : Name.normalize (utf8 "f.part.0") = utf8 "f" := by decide
  refine ⟨by decide, ⟨by decide, by decide⟩, ?_⟩
  rw [identity, charged]
  decide

end Table
end StackUsage
end StackBound
