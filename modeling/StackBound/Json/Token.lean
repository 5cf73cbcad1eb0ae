import StackBound.Text.Utf8

/-! The lexemes of a structured text: brackets, commas, colons, words, numerals and strings. Where no
lexeme can start, the list ends in `junk`, so that what stands before it can still be read. -/
namespace StackBound
namespace Json

inductive Token
  | openObject
  | closeObject
  | openArray
  | closeArray
  | comma
  | colon
  | null
  | truth (value : Bool)
  | number (numeral : Bytes)
  | string (text : Bytes)
  | junk
  deriving DecidableEq, Repr

def isGap (b : UInt8) : Bool := b == 32 || b == 9 || b == 10 || b == 13

namespace Numeral

def isMark (b : UInt8) : Bool := b == 101 || b == 69

def isSign (b : UInt8) : Bool := b == 43 || b == 45

/-- A zero, or digits that start with another one. -/
def whole? : Bytes → Option (Bytes × Bytes)
  | 48 :: rest => some ([48], rest)
  | text => Bytes.run? Bytes.isDigit text

/-- A point and digits, or nothing. -/
def fraction? : Bytes → Option (Bytes × Bytes)
  | 46 :: rest => (Bytes.run? Bytes.isDigit rest).map fun (digits, rest) => (46 :: digits, rest)
  | text => some ([], text)

/-- A mark, perhaps a sign, and digits, or nothing. -/
def power? : Bytes → Option (Bytes × Bytes)
  | [] => some ([], [])
  | mark :: text =>
    if isMark mark then
      let sign := (text.take 1).filter isSign
      (Bytes.run? Bytes.isDigit (text.drop sign.length)).map fun (digits, rest) =>
        (mark :: sign ++ digits, rest)
    else some ([], mark :: text)

/-- The numeral that a text starts with. One that breaks off after its point or its mark is none. -/
def first? (text : Bytes) : Option Bytes := do
  let sign := (text.take 1).filter (· == 45)
  let (whole, rest) ← whole? (text.drop sign.length)
  let (fraction, rest) ← fraction? rest
  let (power, _) ← power? rest
  return sign ++ whole ++ fraction ++ power

end Numeral

/-- A byte of a string as it stands, or a 16-bit unit written by its four digits. -/
inductive Piece
  | byte (b : UInt8)
  | unit (n : Nat)
  deriving DecidableEq, Repr

namespace Piece

def short? (b : UInt8) : Option UInt8 :=
  [((34 : UInt8), (34 : UInt8)), (92, 92), (47, 47), (98, 8), (102, 12), (110, 10), (114, 13),
    (116, 9)].lookup b

def hexValue? (b : UInt8) : Option Nat :=
  if Bytes.isDigit b then some (Bytes.digit b)
  else if 97 ≤ b && b ≤ 102 then some (b.toNat - 87)
  else if 65 ≤ b && b ≤ 70 then some (b.toNat - 55)
  else none

def unit? (a b c d : UInt8) : Option Piece := do
  let a ← hexValue? a
  let b ← hexValue? b
  let c ← hexValue? c
  let d ← hexValue? d
  return .unit (((a * 16 + b) * 16 + c) * 16 + d)

/-- The pieces up to the closing quote, and how many bytes they and the quote take. A control byte or
an unknown escape makes the string unreadable. -/
def read? (found : List Piece) (taken : Nat) : Bytes → Option (List Piece × Nat)
  | [] => none
  | 34 :: _ => some (found.reverse, taken + 1)
  | 92 :: 117 :: a :: b :: c :: d :: rest =>
    match unit? a b c d with
    | some piece => read? (piece :: found) (taken + 6) rest
    | none => none
  | 92 :: c :: rest =>
    match short? c with
    | some b => read? (.byte b :: found) (taken + 2) rest
    | none => none
  | b :: rest => if b < 32 || b == 92 then none else read? (.byte b :: found) (taken + 1) rest

def isHigh (n : Nat) : Bool := 0xD800 ≤ n && n < 0xDC00

def isLow (n : Nat) : Bool := 0xDC00 ≤ n && n < 0xE000

def replacement : Char := '\uFFFD'

/-- The text so far, last byte first, and the first half of a pair that may still be completed. -/
structure Spelling where
  written : Bytes
  pending : Option Nat

namespace Spelling

def put (s : Spelling) (c : Char) : Spelling :=
  { s with written := (String.utf8EncodeChar c).reverse ++ s.written }

/-- A first half that no second half follows is replaced. -/
def settle (s : Spelling) : Spelling :=
  match s.pending with
  | none => s
  | some _ => { s.put replacement with pending := none }

def putUnit (s : Spelling) (n : Nat) : Spelling :=
  if isHigh n then { s with pending := some n }
  else if isLow n then s.put replacement
  else s.put (Char.ofNat n)

def add (s : Spelling) : Piece → Spelling
  | .byte b => { s.settle with written := b :: s.settle.written }
  | .unit n =>
    match s.pending with
    | some high =>
      if isLow n then
        { s.put (Char.ofNat ((high - 0xD800) * 1024 + (n - 0xDC00) + 0x10000)) with pending := none }
      else s.settle.putUnit n
    | none => s.putUnit n

end Spelling

def text (pieces : List Piece) : Bytes :=
  Bytes.wellFormed (pieces.foldl Spelling.add ⟨[], none⟩).settle.written.reverse

end Piece

namespace Token

def word? (text : Bytes) : Option (Token × Nat) :=
  if text.startsWith (utf8 "null") then some (.null, 4)
  else if text.startsWith (utf8 "true") then some (.truth true, 4)
  else if text.startsWith (utf8 "false") then some (.truth false, 5)
  else none

def first? (b : UInt8) (rest : Bytes) : Option (Token × Nat) :=
  match b with
  | 123 => some (.openObject, 0)
  | 125 => some (.closeObject, 0)
  | 91 => some (.openArray, 0)
  | 93 => some (.closeArray, 0)
  | 44 => some (.comma, 0)
  | 58 => some (.colon, 0)
  | 34 => (Piece.read? [] 0 rest).map fun (pieces, taken) => (.string (Piece.text pieces), taken)
  | b =>
    if b = 45 || Bytes.isDigit b then
      (Numeral.first? (b :: rest)).map fun numeral => (.number numeral, numeral.length - 1)
    else (word? (b :: rest)).map fun (token, length) => (token, length - 1)

/-- Adds the lexemes of a text to those already found, after skipping bytes accounted for. -/
def scan (found : List Token) : Nat → Bytes → List Token
  | _, [] => found.reverse
  | skip + 1, _ :: rest => scan found skip rest
  | 0, b :: rest =>
    if isGap b then scan found 0 rest
    else match first? b rest with
      | some (token, more) => scan (token :: found) more rest
      | none => (.junk :: found).reverse

def ofText (text : Bytes) : List Token := scan [] 0 text

/-- The two digits that follow `\u00`. -/
def escaped (n : Nat) : Bytes := utf8 "\\u00" ++ Bytes.hex 2 n

/-- How a character is written inside a string. Angle brackets and ampersands are written by number,
so that the text is safe inside markup, and so are the two line separators of Unicode. -/
def spell (c : Char) : Bytes :=
  match c with
  | '"' => utf8 "\\\""
  | '\\' => utf8 "\\\\"
  | '\n' => utf8 "\\n"
  | '\r' => utf8 "\\r"
  | '\t' => utf8 "\\t"
  | c =>
    if c.toNat = 8 then utf8 "\\b"
    else if c.toNat = 12 then utf8 "\\f"
    else if c.toNat < 32 || c = '<' || c = '>' || c = '&' then escaped c.toNat
    else if c = '\u2028' then utf8 "\\u2028"
    else if c = '\u2029' then utf8 "\\u2029"
    else String.utf8EncodeChar c

/-- How a glyph is written inside a string: a stray byte as it is shown. -/
def spellGlyph (g : Glyph) : Bytes := spell g.shown

def text : Token → Bytes
  | .openObject => [123]
  | .closeObject => [125]
  | .openArray => [91]
  | .closeArray => [93]
  | .comma => [44]
  | .colon => [58]
  | .null => utf8 "null"
  | .truth true => utf8 "true"
  | .truth false => utf8 "false"
  | .number numeral => numeral
  | .string text => utf8 "\"" ++ text.glyphs.flatMap spellGlyph ++ utf8 "\""
  | .junk => []

end Token
end Json
end StackBound
