import StackBound.Fault
import StackBound.Number.Literal
import StackBound.Text.Csv

/-! Flags and the arguments between them. A flag is `--name value`, `--name=value` or, if it has a
letter, `-l value`, `-lvalue` or `-l=value`; a switch needs no value, and letters of switches may be
written together. Two hyphens alone end the flags. -/
namespace StackBound
namespace CommandLine

inductive Kind
  | text
  | texts
  | integer
  | switch
  deriving DecidableEq, Repr

structure Flag where
  name : Bytes
  letter : Option UInt8
  kind : Kind
  deriving DecidableEq, Repr

def flag (name : String) (kind : Kind) : Flag := ⟨utf8 name, none, kind⟩

def lettered (name : String) (letter : Char) (kind : Kind) : Flag :=
  ⟨utf8 name, some letter.toNat.toUInt8, kind⟩

inductive Value
  | text (value : Bytes)
  | texts (values : List Bytes)
  | integer (value : Int64)
  | switch (value : Bool)
  deriving DecidableEq, Repr

structure Arguments where
  given : List (Bytes × Value)
  rest : List Bytes
  deriving DecidableEq, Repr

namespace Flag

def title (f : Flag) : Bytes :=
  match f.letter with
  | some letter => utf8 "-" ++ [letter] ++ utf8 ", --" ++ f.name
  | none => utf8 "--" ++ f.name

def refused (f : Flag) (value reason : Bytes) : Fault :=
  .plain (utf8 "invalid argument " ++ value.quoted ++ utf8 " for " ++ f.title.quoted ++
    utf8 " flag: " ++ reason)

/-- Reads the value of a flag. An empty text is an empty list. -/
def read (f : Flag) (value : Bytes) : Except Fault Value :=
  match f.kind with
  | .text => .ok (.text value)
  | .texts =>
    if value = [] then .ok (.texts [])
    else match Csv.parse value with
      | .ok values => .ok (.texts values)
      | .error e => .error (f.refused value e.text)
  | .integer =>
    match Number.integer value with
    | .ok n => .ok (.integer n)
    | .error e => .error (f.refused value
        (utf8 "strconv.ParseInt: parsing " ++ value.quoted ++ utf8 ": " ++ e.text))
  | .switch =>
    match Number.truth? value with
    | some b => .ok (.switch b)
    | none => .error (f.refused value
        (utf8 "strconv.ParseBool: parsing " ++ value.quoted ++ utf8 ": " ++
          Number.Misread.text .syntactic))

end Flag

def hyphen : UInt8 := 45
def equals : UInt8 := 61

namespace Arguments

def empty : Arguments := ⟨[], []⟩

def give (a : Arguments) (f : Flag) (value : Bytes) : Except Fault Arguments :=
  (f.read value).map fun v => { a with given := a.given ++ [(f.name, v)] }

/-- A letter between single quotes, as it is shown in a complaint. One beyond ASCII is shown by the
first byte of its encoding. -/
def shownLetter (letter : UInt8) : Bytes :=
  let c := Char.ofNat (((String.utf8EncodeChar (Char.ofNat letter.toNat)).headD 0).toNat)
  if c = '\'' then utf8 "'\\''"
  else if c = '"' then utf8 "'\"'"
  else utf8 "'" ++ Quoted.glyph (.char c) ++ utf8 "'"

/-- Letters that start so are meant for a test runner, and are passed over with all that follow in
their word. -/
def testLetters : Bytes := utf8 "test."

/-- Reads flags by their letters. The rest of the word, or the next argument, is the value of the
first that needs one; it is returned how many of the next arguments were used. -/
def letters (flags : List Flag) (next : Option Bytes) (a : Arguments) :
    Bytes → Except Fault (Arguments × Nat)
  | [] => .ok (a, 0)
  | letter :: more =>
    if Bytes.startsWith (letter :: more) testLetters then .ok (a, 0)
    else match flags.find? (·.letter = some letter) with
    | none =>
      .error (.plain (utf8 "unknown shorthand flag: " ++ shownLetter letter ++ utf8 " in -" ++
        letter :: more))
    | some f =>
      if more.head? = some equals ∧ 1 < more.length then
        (a.give f more.tail).map (·, 0)
      else if f.kind = .switch then
        match a.give f (utf8 "true") with
        | .ok a => letters flags next a more
        | .error fault => .error fault
      else if more ≠ [] then (a.give f more).map (·, 0)
      else match next with
        | some value => (a.give f value).map (·, 1)
        | none =>
          .error (.plain (utf8 "flag needs an argument: " ++ shownLetter letter ++ utf8 " in -" ++
            letter :: more))

def named (flags : List Flag) (next : Option Bytes) (a : Arguments) (word : Bytes) :
    Except Fault (Arguments × Nat) :=
  let body := word.drop 2
  if body.head? = some hyphen ∨ body.head? = some equals then
    .error (.plain (utf8 "bad flag syntax: " ++ word))
  else
    let name := body.takeWhile (· != equals)
    match flags.find? (·.name = name) with
    | none => .error (.plain (utf8 "unknown flag: --" ++ name))
    | some f =>
      if name.length < body.length then (a.give f (body.drop (name.length + 1))).map (·, 0)
      else if f.kind = .switch then (a.give f (utf8 "true")).map (·, 0)
      else match next with
        | some value => (a.give f value).map (·, 1)
        | none => .error (.plain (utf8 "flag needs an argument: " ++ word))

/-- Whether an argument is a flag. A hyphen alone is none. -/
def isFlag (word : Bytes) : Bool := word.head? = some hyphen && 1 < word.length

def scan (flags : List Flag) (a : Arguments) : Nat → List Bytes → Except Fault Arguments
  | _, [] => .ok a
  | skip + 1, _ :: words => scan flags a skip words
  | 0, word :: words =>
    if !isFlag word then scan flags { a with rest := a.rest ++ [word] } 0 words
    else if word = [hyphen, hyphen] then .ok { a with rest := a.rest ++ words }
    else
      let read := if word.startsWith [hyphen, hyphen] then named flags words.head? a word
        else letters flags words.head? a word.tail
      match read with
      | .error fault => .error fault
      | .ok (a, used) => scan flags a used words

def parse (flags : List Flag) (words : List Bytes) : Except Fault Arguments :=
  scan flags empty 0 words

/-! ### What was given -/

def values (a : Arguments) (name : String) : List Value :=
  (a.given.filter (·.1 = utf8 name)).map (·.2)

def isGiven (a : Arguments) (name : String) : Bool := !(a.values name).isEmpty

def whenGiven {α : Type} (a : Arguments) (name : String) (value : α) : Option α :=
  if a.isGiven name then some value else none

def text (a : Arguments) (name : String) (default : Bytes) : Bytes :=
  match (a.values name).getLast? with
  | some (.text value) => value
  | _ => default

def texts (a : Arguments) (name : String) : List Bytes :=
  (a.values name).flatMap fun v => match v with
    | .texts values => values
    | _ => []

def integer (a : Arguments) (name : String) : Int64 :=
  match (a.values name).getLast? with
  | some (.integer value) => value
  | _ => 0

def switch (a : Arguments) (name : String) : Bool :=
  match (a.values name).getLast? with
  | some (.switch value) => value
  | _ => false

end Arguments
end CommandLine
end StackBound
