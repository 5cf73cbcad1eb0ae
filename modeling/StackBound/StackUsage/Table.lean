import StackBound.StackUsage.Record
import StackBound.Symbol
import Std.Data.HashMap

/-! The frame size of every function. Raw names keep their own sizes; beside them stands, for each
function identity, the largest size over all raw names that share it. -/
namespace StackBound
namespace StackUsage

structure Table where
  sizes : Std.HashMap Name Int64
  normalized : Std.HashMap Name Int64
  /-- The first raw name recorded for an identity. -/
  raw : Std.HashMap Name Name
  sizes_nonneg : ∀ {name : Name} {size : Int64}, sizes[name]? = some size → 0 ≤ size
  normalized_nonneg : ∀ {name : Name} {size : Int64}, normalized[name]? = some size → 0 ≤ size

namespace Table

def empty : Table := ⟨∅, ∅, ∅, by simp, by simp⟩

/-- Whether a size would raise the entry for a name. -/
def raises (sizes : Std.HashMap Name Int64) (name : Name) (size : Int64) : Bool :=
  match sizes[name]? with
  | none => true
  | some current => current < size

theorem nonneg_insert {sizes : Std.HashMap Name Int64} {name : Name} {size : Int64}
    (h : ∀ {n : Name} {s : Int64}, sizes[n]? = some s → 0 ≤ s) (nonneg : 0 ≤ size)
    {n : Name} {s : Int64}
    (found : (if raises sizes name size then sizes.insert name size else sizes)[n]? = some s) :
    0 ≤ s := by
  split at found
  · rw [Std.HashMap.getElem?_insert] at found
    split at found
    · exact Option.some.inj found ▸ nonneg
    · exact h found
  · exact h found

/-- Records a size and tells whether the raw entry changed. The larger size wins; a negative size
or an empty name is not recorded. -/
def add (t : Table) (name : Name) (size : Int64) : Table × Bool :=
  if skip : name = [] ∨ size < 0 then (t, false)
  else
    have nonneg : 0 ≤ size := Int64.not_lt.1 fun h => skip (.inr h)
    let changed := raises t.sizes name size
    let identity := name.normalize
    ({ sizes := if changed then t.sizes.insert name size else t.sizes
       normalized :=
        if raises t.normalized identity size then t.normalized.insert identity size
        else t.normalized
       raw := t.raw.insertIfNew identity name
       sizes_nonneg := nonneg_insert t.sizes_nonneg nonneg
       normalized_nonneg := nonneg_insert t.normalized_nonneg nonneg }, changed)

def merge (t : Table) (records : List Record) : Table :=
  records.foldl (fun t r => (t.add r.name r.size).1) t

/-- The size recorded for a raw name, or else for its identity. -/
def lookup (t : Table) (name : Name) : Option Int64 :=
  match t.sizes[name]? with
  | some size => some size
  | none => t.normalized[name.normalize]?

/-- The bytes charged for a function; one without a record costs nothing. -/
def frameSize (t : Table) (name : Name) : Int64 := (t.lookup name).getD 0

theorem frameSize_nonneg (t : Table) (name : Name) : 0 ≤ t.frameSize name := by
  unfold frameSize lookup
  split
  next size found => exact t.sizes_nonneg found
  next =>
    cases found : t.normalized[name.normalize]? with
    | none => decide
    | some size => exact t.normalized_nonneg found

def rawName (t : Table) (name : Name) : Name := t.raw.getD name.normalize name

def names (t : Table) : List Name := Bytes.sorted t.sizes.keys

def identities (t : Table) : List Name := Bytes.sorted t.normalized.keys

def size (t : Table) : Nat := t.sizes.size

def entries (t : Table) : List (Name × Int64) :=
  t.names.filterMap fun n => t.sizes[n]?.map (n, ·)

end Table
end StackUsage
end StackBound
