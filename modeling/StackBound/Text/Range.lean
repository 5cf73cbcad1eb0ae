/-! Classes of characters given as runs of code points. -/
namespace StackBound

def isIn (ranges : List (Nat × Nat)) (n : Nat) : Bool :=
  ranges.any fun r => r.1 ≤ n && n ≤ r.2

end StackBound
