import StackBound.Text.Blank
import Std.Data.HashSet

/-! Function identities. A compiler gives one source function several raw names when it clones or
splits it (`foo.constprop.0`, `foo.part.1`); all of them stand for the name before the first dot. -/
namespace StackBound

abbrev Name := Bytes

namespace Name

def separator : UInt8 := 46

/-- The name up to its first dot. A name that starts with a dot, such as a local label, is its own
identity, so no name becomes empty. -/
def normalize (name : Name) : Name :=
  match name.takeWhile (· != separator) with
  | [] => name
  | stem => stem

def distinct (names : List Name) : List Name :=
  (names.foldl (fun (seen : Std.HashSet Name × List Name) n =>
    if seen.1.contains n then seen else (seen.1.insert n, n :: seen.2)) (∅, [])).2.reverse

/-- Trims and normalizes every name, leaving out empty ones and repetitions. -/
def normalizeAll (names : List Name) : List Name :=
  distinct ((names.map fun n => normalize n.trim).filter (· ≠ []))

end Name
end StackBound
