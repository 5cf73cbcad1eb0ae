import StackBound.Toml.Literal

/-! The statements of a TOML document: table headers, and keys with their values. -/
namespace StackBound
namespace Toml

abbrev Key := List Bytes

/-- A value as it is written. Floats and dates are checked but not kept. -/
inductive Value
  | string (text : Bytes)
  | integer (n : Int64)
  | float
  | boolean (b : Bool)
  | date
  | array (items : List Value)
  | inline (fields : List (Key × Value))

inductive Statement
  | table (key : Key)
  | tables (key : Key)
  | assign (key : Key) (value : Value)

def isBare (b : UInt8) : Bool :=
  (97 ≤ b && b ≤ 122) || (65 ≤ b && b ≤ 90) || Bytes.isDigit b || b == 95 || b == 45

def skipGaps (text : Bytes) : Bytes := text.dropWhile isGap

def keyPart? (text : Bytes) : Option (Bytes × Bytes) :=
  match text with
  | 34 :: rest => lineString? quote rest
  | 39 :: rest => lineString? apostrophe rest
  | _ =>
    match text.span isBare with
    | ([], _) => none
    | found => some found

def key? : Nat → Bytes → Option (Key × Bytes)
  | 0, _ => none
  | fuel + 1, text => do
    let (part, rest) ← keyPart? (skipGaps text)
    match skipGaps rest with
    | 46 :: rest =>
      let (more, rest) ← key? fuel rest
      return (part :: more, rest)
    | rest => return ([part], rest)

def skipFiller (comment : Bool) : Bytes → Bytes
  | [] => []
  | b :: rest =>
    if isLineEnd b then skipFiller false rest
    else if comment || isGap b then skipFiller comment rest
    else if b = 35 then skipFiller true rest
    else b :: rest

def number? (text : Bytes) : Option (Value × Bytes) :=
  let isInner (b : UInt8) : Bool := Bytes.isDigit b || b == 95
  let isFloatByte (b : UInt8) : Bool := isInner b || isFloatMark b || b == 45 || b == 43
  let integer (token rest : Bytes) := (integer? token).map fun n => (Value.integer n, rest)
  let decimal (sign body : Bytes) :=
    let (whole, rest) := body.span isInner
    if rest.head?.elim false isFloatMark then
      let (fraction, rest) := rest.span isFloatByte
      if isFloat (sign ++ whole ++ fraction) then some (Value.float, rest) else none
    else integer (sign ++ whole) rest
  let based (letter : UInt8) (rest : Bytes) (isDigit : UInt8 → Bool) :=
    let (digits, rest) := rest.span fun b => isDigit b || b == 95
    if digits.head?.elim false isDigit then integer (48 :: letter :: digits) rest else none
  let signed (sign : UInt8) (body : Bytes) :=
    match body with
    | 105 :: 110 :: 102 :: rest | 110 :: 97 :: 110 :: rest => some (Value.float, rest)
    | 48 :: b :: _ => if isBaseLetter b then none else decimal [sign] body
    | b :: _ => if Bytes.isDigit b then decimal [sign] body else none
    | [] => none
  match text with
  | 43 :: body => signed 43 body
  | 45 :: body => signed 45 body
  | 48 :: 98 :: rest => based 98 rest fun b => b == 48 || b == 49
  | 48 :: 111 :: rest => based 111 rest fun b => 48 ≤ b && b ≤ 55
  | 48 :: 120 :: rest => based 120 rest isHexDigit
  | _ =>
    let after := text.dropWhile Bytes.isDigit
    if after.head?.elim false (fun b => b == 45 || b == 58) then
      let (token, rest) := text.span isDateByte
      let trimmed := (token.reverse.dropWhile isGap).reverse
      if isDate trimmed then some (.date, rest) else none
    else decimal [] text

def scalar? (text : Bytes) : Option (Value × Bytes) :=
  match text with
  | 34 :: rest => (string? quote rest).map fun (s, rest) => (.string s, rest)
  | 39 :: rest => (string? apostrophe rest).map fun (s, rest) => (.string s, rest)
  | b :: _ =>
    if Bytes.isDigit b ∨ b = 43 ∨ b = 45 then number? text
    else
      let word (w : String) (v : Value) := (text.after? (utf8 w)).map fun rest => (v, rest)
      (word "true" (.boolean true)).orElse fun _ => (word "false" (.boolean false)).orElse
        fun _ => (word "inf" .float).orElse fun _ => word "nan" .float
  | [] => none

mutual

def value? : Nat → Bytes → Option (Value × Bytes)
  | 0, _ => none
  | fuel + 1, text =>
    match skipGaps text with
    | 91 :: rest => (items? fuel rest).map fun (items, rest) => (.array items, rest)
    | 123 :: rest =>
      match skipGaps rest with
      | 125 :: rest => some (.inline [], rest)
      | rest => (fields? fuel rest).map fun (fields, rest) => (.inline fields, rest)
    | rest => scalar? rest

/-- The items of an array up to its end; a comma may follow the last. -/
def items? : Nat → Bytes → Option (List Value × Bytes)
  | 0, _ => none
  | fuel + 1, text =>
    match skipFiller false text with
    | 93 :: rest => some ([], rest)
    | 44 :: _ => none
    | rest => do
      let (item, rest) ← value? fuel rest
      match skipFiller false rest with
      | 44 :: rest =>
        let (more, rest) ← items? fuel rest
        return (item :: more, rest)
      | 93 :: rest => return ([item], rest)
      | _ => none

/-- The fields of an inline table, one at least, up to its end on the same line. -/
def fields? : Nat → Bytes → Option (List (Key × Value) × Bytes)
  | 0, _ => none
  | fuel + 1, text => do
    let (key, rest) ← key? fuel text
    let rest ← rest.after? (utf8 "=")
    let (value, rest) ← value? fuel rest
    match skipGaps rest with
    | 44 :: rest =>
      let (more, rest) ← fields? fuel rest
      return ((key, value) :: more, rest)
    | 125 :: rest => return ([(key, value)], rest)
    | _ => none

end

/-- What is left after a statement: nothing but space and a comment may follow it on its line. -/
def lineEnd? (text : Bytes) : Option Bytes :=
  match skipGaps text with
  | [] => some []
  | 35 :: rest => some (rest.dropWhile (!isLineEnd ·))
  | b :: rest => if isLineEnd b then some rest else none

def statement? (fuel : Nat) (text : Bytes) : Option (Statement × Bytes) :=
  match text with
  | 91 :: 91 :: rest => do
    let (key, rest) ← key? fuel rest
    return (.tables key, ← rest.after? (utf8 "]]"))
  | 91 :: rest => do
    let (key, rest) ← key? fuel rest
    return (.table key, ← rest.after? (utf8 "]"))
  | _ => do
    let (key, rest) ← key? fuel text
    let rest ← rest.after? (utf8 "=")
    let (value, rest) ← value? fuel rest
    return (.assign key value, rest)

def statementsOnto (read : List Statement) : Nat → Bytes → Option (List Statement)
  | 0, _ => none
  | fuel + 1, text =>
    match skipFiller false text with
    | [] => some read.reverse
    | rest => do
      let (statement, rest) ← statement? (fuel + 1) rest
      statementsOnto (statement :: read) fuel (← lineEnd? rest)

/-- Every carriage return is followed by a newline. -/
def returnsFit : Bytes → Bool
  | [] => true
  | 13 :: rest => rest.head? = some 10 && returnsFit rest
  | _ :: rest => returnsFit rest

def isPlain (text : Bytes) : Bool :=
  returnsFit text && text.glyphs.all fun g => match g with
    | .stray _ => false
    | .char c => c = '\t' || c = '\n' || c = '\r' || (32 ≤ c.toNat && c.toNat ≠ 127)

/-- A byte order mark at the start is not part of the document. -/
def withoutMark : Bytes → Bytes
  | 0xFF :: 0xFE :: rest => rest
  | 0xFE :: 0xFF :: rest => rest
  | 0xEF :: 0xBB :: 0xBF :: rest => rest
  | text => text

def statements? (document : Bytes) : Option (List Statement) :=
  let text := withoutMark document
  if isPlain text then statementsOnto [] (text.length + 1) text else none

end Toml
end StackBound
