import StackBound.Duration
import StackBound.Fault

/-! What a cache does for its user: it may answer a key with bytes stored earlier, and it may keep
bytes for a while. Neither is promised, so a user must be able to do without. -/
namespace StackBound
namespace Cache

inductive Answer
  | hit (data : Bytes)
  | miss
  | failed (fault : Fault)
  deriving DecidableEq, Repr

/-- A cache with states of its own. A lifetime of zero or less never ends. -/
structure Store (σ : Type) where
  get : σ → Bytes → Answer × σ
  set : σ → Bytes → Bytes → Duration → Option Fault × σ
  close : Option Fault

def Store.null : Store σ where
  get s _ := (.miss, s)
  set s _ _ _ := (none, s)
  close := none

def Store.broken (fault : Fault) : Store σ where
  get s _ := (.failed fault, s)
  set s _ _ _ := (some fault, s)
  close := some fault

end Cache
end StackBound
