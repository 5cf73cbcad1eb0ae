import StackBound.Text.Quoted

/-! What ends a run. A fault is a cause with the context it passed through on its way out; the
wording is in `Fault.text` alone. -/
namespace StackBound

/-- The word by which a fault is known to other programs. -/
structure Code where
  word : Bytes
  deriving DecidableEq, Repr

namespace Code

def invalidInput : Code := ⟨utf8 "INVALID_INPUT"⟩
def invalidConfig : Code := ⟨utf8 "INVALID_CONFIG"⟩
def invalidBinary : Code := ⟨utf8 "INVALID_BINARY"⟩
def fileNotFound : Code := ⟨utf8 "FILE_NOT_FOUND"⟩
def scenarioNotFound : Code := ⟨utf8 "SCENARIO_NOT_FOUND"⟩
def noStackUsage : Code := ⟨utf8 "NO_STACK_USAGE"⟩
def noEntryPoints : Code := ⟨utf8 "NO_ENTRY_POINTS"⟩
def budgetExceeded : Code := ⟨utf8 "STACK_BUDGET_EXCEEDED"⟩

end Code

structure Overrun where
  limit : Int64
  worst : Int64
  unbounded : Bool
  scenario : Bytes
  deriving DecidableEq, Repr

inductive Fault
  | plain (message : Bytes)
  | during (context : Bytes) (cause : Fault)
  | coded (code : Code) (message : Bytes)
  | codedBy (code : Code) (message : Bytes) (cause : Fault)
  | overBudget (overrun : Overrun)
  | tooFewFields
  | noFunctionName
  | invalidSize (field : Bytes)
  | lineTooLong
  | canceled
  | undecodable
  deriving DecidableEq, Repr

def Overrun.text (o : Overrun) : Bytes :=
  if o.unbounded then
    utf8 "stack budget of " ++ Bytes.ofInt64 o.limit ++
      utf8 " bytes cannot be proven: unbounded recursion in scenario " ++ o.scenario.quoted
  else
    utf8 "stack budget exceeded: " ++ Bytes.ofInt64 o.worst ++ utf8 " bytes > " ++
      Bytes.ofInt64 o.limit ++ utf8 " bytes in scenario " ++ o.scenario.quoted

namespace Fault

def text : Fault → Bytes
  | .plain message => message
  | .during context cause => context ++ utf8 ": " ++ cause.text
  | .coded code message => code.word ++ utf8 ": " ++ message
  | .codedBy code message cause => code.word ++ utf8 ": " ++ message ++ utf8 ": " ++ cause.text
  | .overBudget overrun => overrun.text
  | .tooFewFields => utf8 "expected identifier and size fields"
  | .noFunctionName => utf8 "identifier has no function name field"
  | .invalidSize field => utf8 "invalid frame size: " ++ field.quoted
  | .lineTooLong => utf8 "bufio.Scanner: token too long"
  | .canceled => utf8 "context canceled"
  | .undecodable => utf8 "decode report"

def code? : Fault → Option Code
  | .during _ cause => cause.code?
  | .coded code _ | .codedBy code _ _ => some code
  | .overBudget _ => some .budgetExceeded
  | _ => none

/-- Whether the fault is known by a code; no fault is known by the empty code. -/
def hasCode (fault : Fault) (code : Code) : Bool :=
  fault.code? = some code && code.word ≠ []

def message? : Fault → Option Bytes
  | .during _ cause => cause.message?
  | .coded _ message | .codedBy _ message _ => some message
  | _ => none

/-- What a person is told: the message without code and cause where there is one. -/
def userMessage (fault : Fault) : Bytes := fault.message?.getD fault.text

def root : Fault → Fault
  | .during _ cause | .codedBy _ _ cause => cause.root
  | fault => fault

end Fault
end StackBound
