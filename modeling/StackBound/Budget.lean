import StackBound.Scenario

/-! A limit on the stack. It holds only if the worst case is known to stay within it. -/
namespace StackBound
namespace Budget

/-- How the worst case breaks a limit, if it does. No limit is meant by one that is not positive. -/
def overrun? (limit : Int64) (worst : Outcome) : Option Overrun :=
  if limit ≤ 0 then none
  else if worst.result.unbounded || limit < worst.result.total then
    some ⟨limit, worst.result.total, worst.result.unbounded, worst.label⟩
  else none

def check (limit : Int64) (worst : Outcome) : Except Fault Unit :=
  match overrun? limit worst with
  | some overrun => .error (.overBudget overrun)
  | none => .ok ()

end Budget
end StackBound
