import StackBound.Text.Bytes

/-! How a terminal draws the characters it is sent, and the sequences that change it. A text that is
broken into lines is drawn the same on the next line if the pen is put down at the break and taken up
again. -/
namespace StackBound
namespace Screen

/-- A number in a control sequence. -/
structure Parameter where
  /-- Nothing if it was left out. -/
  value : Option Nat
  /-- Whether a colon joins it to the next. -/
  joined : Bool
  deriving DecidableEq, Repr

def Parameter.number (p : Parameter) : Nat := p.value.getD 0

namespace Parameters

def colon : UInt8 := 58
def semicolon : UInt8 := 59

def isSeparator (b : UInt8) : Bool := b == colon || b == semicolon

def ofText (text : Bytes) : List Parameter :=
  let step (b : UInt8) (found : Bytes × List Parameter) : Bytes × List Parameter :=
    if isSeparator b then ([], entry found.1 (b = colon) :: found.2) else (found.1 ++ [b], found.2)
  let (last, before) := text.foldl (fun found b => step b found) ([], [])
  if text = [] then [] else (entry last false :: before).reverse
where
  entry (digits : Bytes) (joined : Bool) : Parameter :=
    ⟨if digits = [] then none else some (Bytes.natOfDigits digits), joined⟩

end Parameters

inductive Colour
  | basic (index : Nat)
  | indexed (index : Nat)
  | direct (red green blue : Nat)
  deriving DecidableEq, Repr

namespace Colour

/-- The high byte of a level of 16 bits; one that has a single byte is kept. -/
def level (n : Nat) : Nat := if n < 256 then n else n / 256

/-- A share of ink and a share of black as a level of light. -/
def light (ink black : Nat) : Nat :=
  level ((0xFFFF - ink * 0x101) * (0xFFFF - black * 0x101) / 0xFFFF)

def ofInks (cyan magenta yellow black : Nat) : Colour :=
  .direct (light cyan black) (light magenta black) (light yellow black)

/-- The places of the components after the two parameters that say what is set and how, and how many
parameters there are in all. They stand alone between semicolons or colons, or between colons after a
colour space and with up to three more. -/
def components? (parameters : List Parameter) : Option (List Nat × Nat) :=
  let joined := parameters.takeWhile (·.joined)
  let number (i : Nat) : Nat := ((parameters[i]?).map Parameter.number).getD 0
  let long (count size : Nat) := some ((List.range count).map fun i => number (i + 3), size)
  if 8 ≤ joined.length ∧ 8 < parameters.length then long 4 9
  else if 7 ≤ joined.length ∧ 7 < parameters.length then long 4 8
  else if 6 ≤ joined.length ∧ 6 < parameters.length then long 4 7
  else if joined.length = 5 ∧ 5 < parameters.length then long 3 6
  else if number 1 = 2 ∧ 4 < parameters.length ∧
      (joined.length = 4 ∨ (parameters.take 5).all (!·.joined)) then
    some ([number 2, number 3, number 4], 5)
  else none

/-- Reads a colour from the parameters that start with the one that says what it is for; it is
returned how many were used. No colour means the default. -/
def read? (parameters : List Parameter) : Option (Option Colour × Nat) :=
  let byte (n : Nat) : Nat := n % 256
  match parameters with
  | purpose :: model :: rest =>
    match model.number with
    | 0 => some (none, 2)
    | 1 => some (some (.direct 0 0 0), 2)
    | 2 =>
      match components? parameters with
      | some (r :: g :: b :: _, used) => some (some (.direct (byte r) (byte g) (byte b)), used)
      | _ => none
    | 3 =>
      match components? parameters with
      | some (c :: m :: y :: _, used) => some (some (ofInks (byte c) (byte m) (byte y) 0), used)
      | _ => none
    | 4 =>
      match components? parameters with
      | some (c :: m :: y :: k :: _, used) =>
        some (some (ofInks (byte c) (byte m) (byte y) (byte k)), used)
      | _ => none
    | 5 =>
      match rest with
      | index :: _ =>
        if purpose.joined = model.joined ∧ !index.joined then
          some (some (.indexed (byte index.number)), 3)
        else none
      | [] => none
    | 6 =>
      match components? parameters with
      | some (r :: g :: b :: _ :: _, used) => some (some (.direct (byte r) (byte g) (byte b)), used)
      | _ => none
    | _ => none
  | _ => none

end Colour

inductive Effect
  | bold
  | faint
  | italic
  | slowBlink
  | rapidBlink
  | reverse
  | conceal
  | strike
  deriving DecidableEq, Repr

namespace Effect

def all : List Effect := [.bold, .faint, .italic, .slowBlink, .rapidBlink, .reverse, .conceal, .strike]

/-- The number that switches it on. -/
def code : Effect → Nat
  | .bold => 1
  | .faint => 2
  | .italic => 3
  | .slowBlink => 5
  | .rapidBlink => 6
  | .reverse => 7
  | .conceal => 8
  | .strike => 9

def ended : Nat → List Effect
  | 22 => [.bold, .faint]
  | 23 => [.italic]
  | 25 => [.slowBlink, .rapidBlink]
  | 27 => [.reverse]
  | 28 => [.conceal]
  | 29 => [.strike]
  | _ => []

end Effect

structure Pen where
  effects : List Effect
  /-- The style of the line below the text: none, single, double, curly, dotted or dashed. -/
  underline : Nat
  fore : Option Colour
  back : Option Colour
  /-- The colour of the line below the text. -/
  line : Option Colour
  deriving DecidableEq, Repr

namespace Pen

def plain : Pen := ⟨[], 0, none, none, none⟩

/-- Whether spaces drawn with the pen cannot be seen. -/
def hidesSpaces (p : Pen) : Bool := !(Effect.reverse ∈ p.effects) && p.back.isNone && p.underline == 0

def change (p : Pen) (n : Nat) : Pen :=
  match Effect.all.find? (·.code = n) with
  | some effect => { p with effects := effect :: p.effects }
  | none =>
    if n = 0 then plain
    else if n = 24 then { p with underline := 0 }
    else if 30 ≤ n ∧ n ≤ 37 then { p with fore := some (.basic (n - 30)) }
    else if n = 39 then { p with fore := none }
    else if 40 ≤ n ∧ n ≤ 47 then { p with back := some (.basic (n - 40)) }
    else if n = 49 then { p with back := none }
    else if n = 59 then { p with line := none }
    else if 90 ≤ n ∧ n ≤ 97 then { p with fore := some (.basic (n - 82)) }
    else if 100 ≤ n ∧ n ≤ 107 then { p with back := some (.basic (n - 92)) }
    else { p with effects := p.effects.filter (· ∉ Effect.ended n) }

def paint (p : Pen) (purpose : Nat) (colour : Option Colour) : Pen :=
  if purpose = 38 then { p with fore := colour }
  else if purpose = 48 then { p with back := colour }
  else { p with line := colour }

/-- The pen after one parameter, and how many of those that follow belong to it. -/
def step (p : Pen) (first : Parameter) (rest : List Parameter) : Pen × Nat :=
  match first.number with
  | 4 =>
    match first.joined, rest with
    | true, style :: _ => if style.number ≤ 5 then ({ p with underline := style.number }, 1) else (p, 0)
    | _, _ => ({ p with underline := 1 }, 0)
  | n =>
    if n = 38 ∨ n = 48 ∨ n = 58 then
      match Colour.read? (first :: rest) with
      | some (colour, used) => (p.paint n colour, used - 1)
      | none => (p, 0)
    else (p.change n, 0)

def follow (p : Pen) : Nat → List Parameter → Pen
  | _, [] => p
  | skip + 1, _ :: rest => follow p skip rest
  | 0, first :: rest =>
    let (p, used) := p.step first rest
    follow p used rest

/-- The pen after a sequence; one without parameters makes it plain. -/
def apply (p : Pen) (parameters : List Parameter) : Pen :=
  if parameters = [] then plain else p.follow 0 parameters

/-! ### Sequences -/

def sequence (body : Bytes) : Bytes := utf8 "\x1B[" ++ body ++ utf8 "m"

def reset : Bytes := sequence []

/-- The parameters of a colour of the text or the ground behind it, by the number of its first basic
colour. -/
def colourText (base : Nat) : Colour → Bytes
  | .basic n => Bytes.ofNat (if n < 8 then base + n else base + 52 + n)
  | .indexed n => numbers [base + 8, 5, n]
  | .direct r g b => numbers [base + 8, 2, r, g, b]
where
  numbers (values : List Nat) : Bytes := Bytes.join (utf8 ";") (values.map Bytes.ofNat)

/-- The parameters of a colour of the line below the text, for which basic colours have no numbers. -/
def lineText : Colour → Bytes
  | .basic n => colourText 50 (.indexed n)
  | colour => colourText 50 colour

def underlineText (style : Nat) : List Bytes :=
  if style = 0 then [] else if style = 1 then [utf8 "4"] else [utf8 "4:" ++ Bytes.ofNat style]

def text (p : Pen) : Bytes :=
  sequence <| Bytes.join (utf8 ";") <|
    ((Effect.all.filter (· ∈ p.effects)).map fun effect => Bytes.ofNat effect.code) ++
    underlineText p.underline ++ (p.fore.map (colourText 30)).toList ++
    (p.back.map (colourText 40)).toList ++ (p.line.map lineText).toList

end Pen
end Screen
end StackBound
