import StackBound.Symbol

/-! The answer to "how deep can the stack get from here": a finite number of bytes with the call path
that needs them, or the recursion that makes any number too small. -/
namespace StackBound

structure WorstCase where
  total : Int64
  unbounded : Bool
  path : List Name
  /-- For an unbounded answer, the calls that lead from a function back to itself. -/
  cycle : List Name
  deriving DecidableEq, Repr, Inhabited

namespace WorstCase

def zero : WorstCase := ⟨0, false, [], []⟩

/-- Strictly worse: unbounded answers are equal to each other and above every finite one. -/
def greater (a b : WorstCase) : Bool :=
  if a.unbounded then !b.unbounded
  else if b.unbounded then false
  else b.total < a.total

def max (best next : WorstCase) : WorstCase := if next.greater best then next else best

def recursion (cycle : List Name) : WorstCase := ⟨0, true, [], cycle⟩

def extend (fn : Name) (size : Int64) (best : WorstCase) : WorstCase :=
  if best.unbounded then ⟨0, true, fn :: best.path, best.cycle⟩
  else ⟨size + best.total, false, fn :: best.path, best.cycle⟩

def arrows (names : List Name) : Bytes := Bytes.join (utf8 " -> ") names

def text (r : WorstCase) : Bytes :=
  if r.unbounded then utf8 "unbounded (cycle " ++ arrows r.cycle ++ utf8 ")"
  else Bytes.ofInt64 r.total ++ utf8 " bytes (" ++ arrows r.path ++ utf8 ")"

structure Frame where
  function : Name
  size : Int64
  cumulative : Int64
  deriving DecidableEq, Repr

/-- The frames found so far, last first, with one more function called. -/
def addFrame (sizes : Name → Int64) (frames : List Frame) (fn : Name) : List Frame :=
  ⟨fn, sizes fn, (frames.head?.elim 0 (·.cumulative)) + sizes fn⟩ :: frames

def breakdown (sizes : Name → Int64) (path : List Name) : List Frame :=
  (path.foldl (addFrame sizes) []).reverse

end WorstCase
end StackBound
