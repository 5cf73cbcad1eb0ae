import StackBound.Text.Bytes

/-! Problems that do not end a run. Each step reports what it skipped as warnings; a journal keeps
them in the order of their recording until they are shown. -/
namespace StackBound

/-- A local warning is about one skipped piece of input; a deferred one is about a capability that
the whole run lacks. -/
inductive Tier
  | local
  | deferred
  deriving DecidableEq, Repr

def Tier.word : Tier → Bytes
  | .local => utf8 "local"
  | .deferred => utf8 "deferred"

/-- A problem found in a source. Line zero means that no line is meant. -/
structure Warning where
  tier : Tier
  source : Bytes
  line : Int64
  message : Bytes
  deriving DecidableEq, Repr

namespace Warning

def skipped (source : Bytes) (line : Int64) (message : Bytes) : Warning :=
  ⟨.local, source, line, message⟩

def degraded (source message : Bytes) : Warning := ⟨.deferred, source, 0, message⟩

def text (w : Warning) : Bytes :=
  if w.source = [] then w.message
  else if 0 < w.line then
    w.source ++ utf8 ":" ++ Bytes.ofInt64 w.line ++ utf8 ": " ++ w.message
  else w.source ++ utf8 ": " ++ w.message

end Warning

/-- A collection of warnings; a silent one forgets whatever is recorded in it. -/
inductive Journal
  | silent
  | kept (warnings : List Warning)

namespace Journal

def empty : Journal := .kept []

def all : Journal → List Warning
  | .silent => []
  | .kept warnings => warnings

def record (j : Journal) (more : List Warning) : Journal :=
  match j with
  | .silent => .silent
  | .kept warnings => .kept (warnings ++ more)

def merge (j other : Journal) : Journal := j.record other.all

def ofTier (j : Journal) (tier : Tier) : List Warning := j.all.filter (·.tier = tier)

def length (j : Journal) : Nat := j.all.length

end Journal
end StackBound
