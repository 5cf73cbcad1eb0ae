import StackBound.Fault
import StackBound.Symbol
import StackBound.Warning

/-! Interrupt handlers. A vector table is an array of 32-bit little-endian words: the initial stack
pointer, then one handler address a word, its lowest bit marking Thumb code. Each handler is the
function symbol at that address. -/
namespace StackBound
namespace Vector

structure Symbol where
  name : Name
  value : UInt64
  isFunction : Bool
  /-- The index of the section that holds the symbol, if any does. -/
  inSection : Option Nat
  deriving DecidableEq, Repr

structure Section where
  address : UInt64
  data : Bytes
  deriving DecidableEq, Repr

/-- What has to be known of a binary to read its vector table. -/
structure Image where
  symbols : Except Fault (List Symbol)
  sectionAt : Nat → Except Fault Section

def word (a b c d : UInt8) : UInt32 :=
  a.toUInt32 ||| b.toUInt32 <<< 8 ||| c.toUInt32 <<< 16 ||| d.toUInt32 <<< 24

def wordsOnto (read : List UInt32) : Bytes → List UInt32
  | a :: b :: c :: d :: rest => wordsOnto (word a b c d :: read) rest
  | _ => read

/-- Little-endian words; bytes that fill no word are left out. -/
def words (data : Bytes) : List UInt32 := (wordsOnto [] data).reverse

/-- Zero and all ones mark an unused slot. -/
def isUsed (word : UInt32) : Bool := word != 0 && word != 0xFFFFFFFF

/-- The first function at an address, or else at the address with its lowest bit set. -/
def functionAt (functions : List Symbol) (address : UInt64) : Option Name :=
  let exactly (value : UInt64) := (functions.find? (·.value = value)).map (·.name)
  (exactly address).orElse fun _ => exactly (address ||| 1)

/-- The address a slot points to, without its Thumb bit. -/
def target (word : UInt32) : UInt64 := (word &&& 0xFFFFFFFE).toUInt64

/-- The handlers of a table's words, sorted and each once; the first word is no handler. -/
def handlers (functions : List Symbol) (table : List UInt32) : List Name :=
  Bytes.sortedSet <| (table.drop 1).filterMap fun word =>
    if isUsed word then (functionAt functions (target word)).map Name.normalize else none

inductive Problem
  | symbols (cause : Fault)
  | notFound (table : Name)
  | noSection (table : Name)
  | unreadable (table : Name) (cause : Fault)
  | outside (table : Name) (address : UInt64)
  deriving DecidableEq, Repr

def hexText (n : UInt64) : Bytes := utf8 (String.ofList (Nat.toDigits 16 n.toNat))

def Problem.text : Problem → Bytes
  | .symbols cause => utf8 "cannot read symbol table: " ++ cause.text
  | .notFound table => utf8 "vector table symbol " ++ table.quoted ++ utf8 " not found"
  | .noSection table =>
    utf8 "vector table symbol " ++ table.quoted ++ utf8 " has no containing section"
  | .unreadable table cause =>
    utf8 "cannot read section of " ++ table.quoted ++ utf8 ": " ++ cause.text
  | .outside table address =>
    utf8 "vector table symbol " ++ table.quoted ++ utf8 " (0x" ++ hexText address ++
      utf8 ") lies outside its section"

def locate (image : Image) (table : Name) : Except Problem (List Name) := do
  let symbols ← image.symbols.mapError .symbols
  let some found := symbols.find? (·.name = table) | .error (.notFound table)
  let some index := found.inSection | .error (.noSection table)
  let sect ← (image.sectionAt index).mapError (.unreadable table)
  let offset := found.value - sect.address
  if found.value < sect.address ∨ sect.data.length < offset.toNat then
    .error (.outside table found.value)
  else
    return handlers (symbols.filter (·.isFunction)) (words (sect.data.drop offset.toNat))

def warnings (source : Bytes) : Except Problem (List Name) → List Warning
  | .ok _ => []
  | .error problem => [.degraded source problem.text]

end Vector
end StackBound
