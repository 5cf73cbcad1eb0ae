import StackBound.Deflate.Zlib
import StackBound.Tree
import StackBound.Vector.Image
import StackBound.Zstandard.Frame

/-! ELF binaries of either word size and byte order, read as far as a vector table needs: the section
headers with their names, the contents of sections, which may be packed, and the static symbol
table. -/
namespace StackBound
namespace Vector

/-- How numbers are laid out in a binary. -/
structure Layout where
  wide : Bool
  bigEndian : Bool
  deriving DecidableEq, Repr

namespace Layout

def number (l : Layout) (bytes : Bytes) : Nat :=
  (if l.bigEndian then bytes else bytes.reverse).foldl (fun n b => n * 256 + b.toNat) 0

def pick (l : Layout) (narrow wide : α) : α := if l.wide then wide else narrow

def headerSize (l : Layout) : Nat := l.pick 52 64
def programEntrySize (l : Layout) : Nat := l.pick 32 56
def sectionEntrySize (l : Layout) : Nat := l.pick 40 64
def symbolSize (l : Layout) : Nat := l.pick 16 24
def packingSize (l : Layout) : Nat := l.pick 12 24
def wordSize (l : Layout) : Nat := l.pick 4 8

def field (l : Layout) (entry : Bytes) (offset width : Nat) : Nat :=
  l.number ((entry.drop offset).take width)

end Layout

structure Packing where
  method : Nat
  /-- The size of the contents. -/
  size : Nat
  /-- Where in the section the packed bytes start. -/
  start : Nat
  deriving DecidableEq, Repr

namespace Packing

def zlib : Nat := 1
def zstandard : Nat := 2

def ofBytes (l : Layout) (header : Bytes) : Packing where
  method := l.field header 0 4
  size := l.field header (l.pick 4 8) l.wordSize
  start := l.packingSize

/-- The methods and the ends of the ranges of them that have names. -/
def names : List (Nat × String) :=
  [(1, "COMPRESS_ZLIB"), (2, "COMPRESS_ZSTD"), (0x60000000, "COMPRESS_LOOS"),
   (0x6FFFFFFF, "COMPRESS_HIOS"), (0x70000000, "COMPRESS_LOPROC"), (0x7FFFFFFF, "COMPRESS_HIPROC")]

/-- The name of a method, or the nearest name below it and the distance. -/
def methodText (method : Nat) : Bytes :=
  match names.reverse.find? (·.1 ≤ method) with
  | none => Bytes.ofNat method
  | some (base, name) =>
    utf8 name ++ if base = method then [] else utf8 "+" ++ Bytes.ofNat (method - base)

end Packing

structure SectionHeader where
  nameOffset : Nat
  type : Nat
  flags : Nat
  address : Nat
  offset : Nat
  /-- The bytes that the section takes in the file. -/
  size : Nat
  link : Nat
  packing : Option Packing
  name : Bytes
  deriving DecidableEq, Repr

namespace SectionHeader

def null : Nat := 0
def symbolTable : Nat := 2
def stringTable : Nat := 3
def noBits : Nat := 8

def hasFlag (s : SectionHeader) (place : Nat) : Bool := s.flags.testBit place

def isAllocated (s : SectionHeader) : Bool := s.hasFlag 1

def isPacked (s : SectionHeader) : Bool := s.hasFlag 11

def ofBytes (l : Layout) (entry : Bytes) : SectionHeader where
  nameOffset := l.field entry 0 4
  type := l.field entry 4 4
  flags := l.field entry 8 l.wordSize
  address := l.field entry (l.pick 12 16) l.wordSize
  offset := l.field entry (l.pick 16 24) l.wordSize
  size := l.field entry (l.pick 20 32) l.wordSize
  link := l.field entry (l.pick 24 40) 4
  packing := none
  name := []

end SectionHeader

structure Elf where
  layout : Layout
  content : Array UInt8
  sections : Array SectionHeader

namespace Elf

/-- Offsets and sizes are signed when they are used. -/
def isOffset (n : Nat) : Bool := n < Nat.pow 2 63

def slice? (content : Array UInt8) (offset size : Nat) : Option Bytes :=
  if size = 0 then some []
  else if offset + size ≤ content.size then some (content.extract offset (offset + size)).toList
  else none

/-- The text that starts at an offset of a string table and ends at a zero byte. -/
def string? (table : Bytes) (offset : Nat) : Option Bytes :=
  match (table.drop offset).span (· != 0) with
  | (_, []) => none
  | (text, _ :: _) => some text

/-- The bytes of a section that the file has, after some that are left out. -/
def present (content : Array UInt8) (s : SectionHeader) (start : Nat) : Bytes :=
  (content.extract (s.offset + start) (s.offset + s.size)).toList

/-- How a section of debugging information says that it is packed, before it was a flag that did:
four letters, and the size of the contents in eight bytes. -/
def markedPacking? (content : Array UInt8) (s : SectionHeader) : Option Packing :=
  match (present content s 0).take 12 with
  | 0x5A :: 0x4C :: 0x49 :: 0x42 :: size =>
    if s.name.startsWith (utf8 ".zdebug") ∧ size.length = 8 then
      some ⟨Packing.zlib, Zlib.bigEndian size, 12⟩
    else none
  | _ => none

def packingOf (content : Array UInt8) (s : SectionHeader) : Option Packing :=
  if s.isPacked then s.packing else markedPacking? content s

def misfit (s : SectionHeader) (packing : Packing) (complaint : String) : Fault :=
  .plain (utf8 complaint ++ utf8 " '" ++ Packing.methodText packing.method ++
    utf8 "' in record at byte 0x" ++ (Nat.toDigits 16 s.offset).map fun c => c.toNat.toUInt8)

/-- The contents of a packed section. A section that takes up memory must not carry the flag. -/
def unpacked (content : Array UInt8) (s : SectionHeader) (packing : Packing) : Except Fault Bytes :=
  if s.isPacked ∧ s.isAllocated then
    .error (misfit s packing "SHF_COMPRESSED applies only to non-allocable sections")
  else if packing.method = Packing.zlib then
    (Zlib.read packing.size (present content s packing.start)).mapError (.plain ·.text)
  else if packing.method = Packing.zstandard then
    (Zstandard.read packing.size (s.size - packing.start) (present content s packing.start)).mapError
      (.plain ·.text)
  else .error (misfit s packing "unknown compression type")

/-- The bytes of a section as they are in the file. One that starts at or past the end of the file has
nothing to read, and one that runs past it breaks off. -/
def stored (content : Array UInt8) (s : SectionHeader) : Except Fault Bytes :=
  match slice? content s.offset s.size with
  | some data => .ok data
  | none => .error (.plain (utf8 (if content.size ≤ s.offset then "EOF" else "unexpected EOF")))

/-- The contents of a section. One that takes no room in the file cannot be read; but nothing has to
be read if the contents are empty. -/
def sectionData (content : Array UInt8) (s : SectionHeader) : Except Fault Bytes :=
  let isVirtual := s.type = SectionHeader.noBits
  let packing := if isVirtual then s.packing else packingOf content s
  let size := packing.elim s.size (·.size)
  if !isOffset size then .error (.plain (utf8 "unexpected EOF"))
  else if size = 0 then .ok []
  else if isVirtual then .error (.plain (utf8 "unexpected read from SHT_NOBITS section"))
  else packing.elim (stored content s) (unpacked content s)

def layout? (content : Array UInt8) : Option Layout := do
  match ← slice? content 0 16 with
  | 0x7F :: 0x45 :: 0x4C :: 0x46 :: size :: order :: version :: _ =>
    guard (size = 1 ∨ size = 2)
    guard (order = 1 ∨ order = 2)
    guard (version = 1)
    return ⟨size = 2, order = 2⟩
  | _ => none

def entries (table : Bytes) (size count : Nat) : List Bytes :=
  let table := table.toArray
  (List.range count).map fun i => (table.extract (i * size) (i * size + size)).toList

/-- The number of sections and the index of the section with their names. A file with too many
sections for its header says so in the first section header. -/
def sectionCount? (content : Array UInt8) (l : Layout) (offset count names : Nat) :
    Option (Nat × Nat) := do
  if offset = 0 ∨ count ≠ 0 then return (count, names)
  let first := SectionHeader.ofBytes l (← slice? content offset l.sectionEntrySize)
  guard (first.type = SectionHeader.null ∧ 0xFF00 ≤ first.size ∧ isOffset first.size)
  if names ≠ 0xFFFF then return (first.size, names)
  guard (0xFF00 ≤ first.link)
  return (first.size, first.link)

def programsAreValid (content : Array UInt8) (l : Layout) (offset size count : Nat) : Bool :=
  match slice? content offset (count * size) with
  | none => false
  | some table => (entries table size count).all fun entry =>
    isOffset (l.field entry (l.pick 4 8) l.wordSize) &&
      isOffset (l.field entry (l.pick 16 32) l.wordSize)

def withPacking? (content : Array UInt8) (l : Layout) (s : SectionHeader) : Option SectionHeader :=
  if s.isPacked then do
    guard (l.packingSize ≤ s.size)
    let header ← slice? content s.offset l.packingSize
    return { s with packing := some (.ofBytes l header) }
  else some s

def named? (content : Array UInt8) (sections : Array SectionHeader) (names : Nat) :
    Option (Array SectionHeader) := do
  if sections.isEmpty ∨ names = 0 then return sections
  let holder ← sections[names]?
  guard (holder.type = SectionHeader.stringTable)
  let table ← (sectionData content holder).toOption
  sections.mapM fun s => return { s with name := ← string? table s.nameOffset }

def parse? (bytes : Bytes) : Option Elf := do
  let content := bytes.toArray
  let l ← layout? content
  let header ← slice? content 0 l.headerSize
  guard (l.field header 20 4 = 1)
  let programs := l.field header (l.pick 28 32) l.wordSize
  let sections := l.field header (l.pick 32 40) l.wordSize
  let sizes := l.pick 42 54
  let programSize := l.field header sizes 2
  let programCount := l.field header (sizes + 2) 2
  let sectionSize := l.field header (sizes + 4) 2
  let count := l.field header (sizes + 6) 2
  let names := l.field header (sizes + 8) 2
  guard (isOffset sections ∧ isOffset programs)
  guard (sections ≠ 0 ∨ count = 0)
  guard (count = 0 ∨ names < count)
  guard (programCount = 0 ∨ l.programEntrySize ≤ programSize)
  guard (programsAreValid content l programs programSize programCount)
  let (count, names) ← sectionCount? content l sections count names
  guard (count = 0 ∨ l.sectionEntrySize ≤ sectionSize)
  let table ← slice? content sections (count * sectionSize)
  let headers := (entries table sectionSize count).toArray.map (SectionHeader.ofBytes l)
  guard (headers.all fun s => isOffset s.offset && isOffset s.size)
  let headers ← headers.mapM (withPacking? content l)
  return ⟨l, content, ← named? content headers names⟩

def symbol (l : Layout) (names entry : Bytes) : Symbol :=
  let sect := l.field entry (l.pick 14 6) 2
  { name := (string? names (l.field entry 0 4)).getD []
    value := UInt64.ofNat (l.field entry (l.pick 4 8) l.wordSize)
    isFunction := l.field entry (l.pick 12 4) 1 % 16 = 2
    inSection := if sect = 0 ∨ 0xFF00 ≤ sect then none else some sect }

/-- The static symbols but the first, which is a filler. -/
def symbols (e : Elf) : Except Fault (List Symbol) := do
  let some table := e.sections.find? (·.type = SectionHeader.symbolTable)
    | .error (.plain (utf8 "no symbol section"))
  let data ← (sectionData e.content table).mapError
    (.during (utf8 "cannot load symbol section"))
  if data = [] then .error (.plain (utf8 "no symbol section"))
  else if data.length % e.layout.symbolSize ≠ 0 then
    .error (.plain (utf8 "length of symbol section is not a multiple of " ++
      utf8 (e.layout.pick "SymSize" "Sym64Size")))
  else
    let loading := Fault.during (utf8 "cannot load string table section")
    let invalid := loading (.plain (utf8 "section has invalid string table link"))
    if table.link = 0 then .error invalid
    let some holder := e.sections[table.link]? | .error invalid
    let names ← (sectionData e.content holder).mapError loading
    let count := data.length / e.layout.symbolSize
    return ((entries data e.layout.symbolSize count).drop 1).map (symbol e.layout names)

def sectionAt (e : Elf) (index : Int) : Except Fault Section :=
  match if index < 0 then none else e.sections[index.toNat]? with
  | none =>
    .error (.plain (utf8 "section index " ++ Bytes.ofInt index ++ utf8 " out of range"))
  | some s =>
    if s.type = SectionHeader.noBits then
      .error (.plain (utf8 "section " ++ s.name ++ utf8 " has no file data"))
    else
      ((sectionData e.content s).mapError (.during (utf8 "read section " ++ s.name))).map
        (⟨UInt64.ofNat s.address, ·⟩)

def image (e : Elf) : Image := ⟨e.symbols, fun index => e.sectionAt index⟩

def load (t : Tree) (path : Path) : Except Fault Elf :=
  let broken := Fault.coded .invalidBinary (utf8 "read ELF " ++ path)
  match t.read path with
  | .ok content => (parse? content).elim (.error broken) .ok
  | .error e =>
    if e.isMissing then
      .error (.codedBy .fileNotFound (utf8 "ELF file not found: " ++ path) e.fault)
    else .error broken

end Elf

def locateFile (t : Tree) (path : Path) (table : Name) : Option (List Name) × List Warning :=
  match Elf.load t path with
  | .error fault => (none, [.degraded path (utf8 "cannot open ELF file: " ++ fault.text)])
  | .ok elf =>
    let found := locate elf.image table
    (found.toOption, warnings path found)

end Vector
end StackBound
