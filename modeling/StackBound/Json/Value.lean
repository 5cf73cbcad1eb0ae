import StackBound.Json.Token

/-! Structured values, and their texts. A value is read off a list of lexemes by a machine that keeps
the arrays and objects still open; it stops at the end of the first value. -/
namespace StackBound

inductive Json
  | null
  | bool (value : Bool)
  | number (numeral : Bytes)
  | string (text : Bytes)
  | array (items : List Json)
  | object (members : List (Bytes × Json))

namespace Json

def int (n : Int64) : Json := .number (Bytes.ofInt64 n)

abbrev Member := Bytes × Json

def texts (l : List Bytes) : Json := .array (l.map .string)

def member (key : String) (value : Json) : Member := (utf8 key, value)

def optional (absent : Bool) (key : String) (value : Json) : List Member :=
  if absent then [] else [member key value]

/-- A list that may be missing altogether. -/
def orNull (list : Option (List α)) (item : α → Json) : Json :=
  match list with
  | none => .null
  | some list => .array (list.map item)

/-- Puts a comma between lists of lexemes. -/
def separated (parts : List (List Token)) : List Token := [Token.comma].intercalate parts

def tokens : Json → List Token
  | .null => [.null]
  | .bool value => [.truth value]
  | .number numeral => [.number numeral]
  | .string text => [.string text]
  | .array items => .openArray :: separated (items.map fun item => item.tokens) ++ [.closeArray]
  | .object members =>
    .openObject :: separated (members.map fun member =>
      .string member.1 :: .colon :: member.2.tokens) ++ [.closeObject]
decreasing_by
  · simp_wf; have := List.sizeOf_lt_of_mem ‹_›; omega
  · simp_wf
    have := List.sizeOf_lt_of_mem ‹_›
    rcases member with ⟨key, value⟩
    simp_all; omega

def compact (value : Json) : Bytes := value.tokens.flatMap Token.text

/-- A text in progress that is broken into lines. -/
structure Layout where
  written : Bytes
  depth : Nat
  /-- Whether the last lexeme opened an array or object. -/
  opened : Bool

namespace Layout

def put (l : Layout) (text : Bytes) : Layout := { l with written := text.reverse ++ l.written }

def newline (l : Layout) : Layout := l.put (10 :: Bytes.spaces (2 * l.depth))

def indent (l : Layout) : Layout :=
  if l.opened then { l.newline with opened := false } else l

/-- Adds one lexeme. An empty array or object stays on its line. -/
def add (l : Layout) (token : Token) : Layout :=
  match token with
  | .openArray | .openObject =>
    let l := l.indent.put token.text
    { l with depth := l.depth + 1, opened := true }
  | .closeArray | .closeObject =>
    let shallow := { l with depth := l.depth - 1 }
    if l.opened then { shallow.put token.text with opened := false }
    else shallow.newline.put token.text
  | .comma => (l.put token.text).newline
  | .colon => l.put (token.text ++ [32])
  | token => l.indent.put token.text

end Layout

def indented (value : Json) : Bytes :=
  (value.tokens.foldl Layout.add ⟨[], 0, false⟩).written.reverse

/-- An array or object still open around a value, with what it holds so far, last first. -/
inductive Open
  | array (items : List Json)
  | object (members : List (Bytes × Json)) (key : Bytes)

/-- What the machine waits for. `first` tells that an array or object was just opened. -/
inductive State
  | value (first : Bool) (outer : List Open)
  | key (first : Bool) (members : List (Bytes × Json)) (outer : List Open)
  | colon (members : List (Bytes × Json)) (key : Bytes) (outer : List Open)
  | after (value : Json) (outer : List Open)

/-- How many arrays and objects may stand inside each other. -/
def deepest : Nat := 10000

def State.step : State → Token → Option State
  | .value _ outer, .openArray =>
    if outer.length < deepest then some (.value true (.array [] :: outer)) else none
  | .value _ outer, .openObject =>
    if outer.length < deepest then some (.key true [] outer) else none
  | .value true (.array items :: outer), .closeArray => some (.after (.array items.reverse) outer)
  | .value _ outer, .null => some (.after .null outer)
  | .value _ outer, .truth b => some (.after (.bool b) outer)
  | .value _ outer, .number numeral => some (.after (.number numeral) outer)
  | .value _ outer, .string text => some (.after (.string text) outer)
  | .key _ members outer, .string name => some (.colon members name outer)
  | .key true members outer, .closeObject => some (.after (.object members.reverse) outer)
  | .colon members name outer, .colon => some (.value false (.object members name :: outer))
  | .after item (.array items :: outer), .comma => some (.value false (.array (item :: items) :: outer))
  | .after item (.array items :: outer), .closeArray =>
    some (.after (.array (item :: items).reverse) outer)
  | .after item (.object members name :: outer), .comma =>
    some (.key false ((name, item) :: members) outer)
  | .after item (.object members name :: outer), .closeObject =>
    some (.after (.object ((name, item) :: members).reverse) outer)
  | _, _ => none

def State.read : State → List Token → Option (Json × List Token)
  | .after item [], rest => some (item, rest)
  | _, [] => none
  | state, token :: rest =>
    match state.step token with
    | some next => next.read rest
    | none => none

def start : State := .value false []

/-- The first value of a text; whatever follows it is not looked at. -/
def first? (text : Bytes) : Option Json := (start.read (Token.ofText text)).map (·.1)

def whole? (text : Bytes) : Option Json :=
  match start.read (Token.ofText text) with
  | some (value, []) => some value
  | _ => none

end Json
end StackBound
