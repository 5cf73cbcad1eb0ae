import StackBound.Event
import StackBound.Text.Blank
import StackBound.Text.Printable

/-! Events as lines of a log: `DEBU cache set kind=su bytes=57`. A value that could be misread is
quoted, and one of several lines is set out below its key. -/
namespace StackBound
namespace Log

inductive Level
  | debug
  | info
  | warn
  deriving DecidableEq, Repr

def Level.rank : Level → Nat
  | .debug => 0
  | .info => 1
  | .warn => 2

def Level.word : Level → Bytes
  | .debug => utf8 "DEBU"
  | .info => utf8 "INFO"
  | .warn => utf8 "WARN"

structure Entry where
  level : Level
  message : Bytes
  values : List (Bytes × Bytes)
  deriving DecidableEq, Repr

/-- Whether a glyph makes a value ambiguous without quotes. -/
def isDoubtful : Glyph → Bool
  | .stray _ => true
  | .char c => c = '"' || c = '=' || c = '\uFFFD' || isBlank c || !isPrintable c

/-- How an unprintable character is written. -/
def unprintable (c : Char) : Bytes :=
  match c.toNat with
  | 7 => utf8 "\\a"
  | 8 => utf8 "\\b"
  | 9 => utf8 "\\t"
  | 10 => utf8 "\\n"
  | 11 => utf8 "\\v"
  | 12 => utf8 "\\f"
  | 13 => utf8 "\\r"
  | n =>
    if n < 32 then utf8 "\\x" ++ Bytes.hex 2 n
    else if n < 0x10000 then utf8 "\\u" ++ Bytes.hex 4 n
    else utf8 "\\U" ++ Bytes.hex 8 n

/-- The value with every unprintable character escaped, and its quotes too if it stands in some. -/
def escaped (quotes : Bool) (value : Bytes) : Bytes :=
  value.glyphs.flatMap fun g =>
    let c := g.shown
    if quotes && c = '"' then utf8 "\\\""
    else if isPrintable c then String.utf8EncodeChar c
    else unprintable c

def newline : UInt8 := 10

def inline (value : Bytes) : Bytes :=
  if value = [] then utf8 "\"\""
  else if value.glyphs.any isDoubtful then utf8 "\"" ++ escaped true value ++ utf8 "\""
  else value

/-- The lines of a value, each behind a bar. The last has a line end only if more values follow. -/
def block (more : Bool) (value : Bytes) : Bytes :=
  let parts := value.split newline
  let row (part : Bytes) : Bytes := utf8 "  │ " ++ escaped false part
  let last := parts.getLastD []
  (parts.dropLast.flatMap fun part => row part ++ [newline]) ++
    (if last = [] then [] else row last ++ if more then [newline] else [])

def assignments : List (Bytes × Bytes) → Bytes
  | [] => []
  | (key, value) :: rest =>
    (if value.contains newline then
      utf8 "\n  " ++ key ++ utf8 "=\n" ++ block (!rest.isEmpty) value
    else utf8 " " ++ key ++ utf8 "=" ++ inline value) ++ assignments rest

def Entry.line (e : Entry) : Bytes :=
  e.level.word ++ utf8 " " ++ e.message ++ assignments e.values ++ [newline]

def number (n : Int64) : Bytes := Bytes.ofInt64 n

def faultText (fault : Option Fault) : Bytes :=
  match fault with
  | none => utf8 "<nil>"
  | some fault => fault.text

end Log

namespace Event

/-- Everything is for those who debug, but a cache that fails concerns everybody. -/
def logged (event : Event) : Log.Entry :=
  let entry (message : String) (values : List (String × Bytes)) : Log.Entry :=
    ⟨.debug, utf8 message, values.map fun (key, value) => (utf8 key, value)⟩
  match event with
  | .parseStarted kind files =>
    entry "parse started" [("kind", kind), ("files", Log.number files)]
  | .parseFinished kind records took fault =>
    entry "parse finished" [("kind", kind), ("records", Log.number records),
      ("took", took.text), ("err", Log.faultText fault)]
  | .analysisStarted scenarios entries =>
    entry "analysis started"
      [("scenarios", Log.number scenarios), ("entries", Log.number entries)]
  | .scenarioFinished label total unbounded =>
    entry "scenario finished" [("scenario", label),
      ("worst", if unbounded then utf8 "unbounded" else Log.number total)]
  | .analysisFinished took fault =>
    entry "analysis finished" [("took", took.text), ("err", Log.faultText fault)]
  | .renderStarted format nodes =>
    entry "render started" [("format", format), ("nodes", Log.number nodes)]
  | .renderFinished format took fault =>
    entry "render finished"
      [("format", format), ("took", took.text), ("err", Log.faultText fault)]
  | .cacheHit kind => entry "cache hit" [("kind", kind)]
  | .cacheMiss kind => entry "cache miss" [("kind", kind)]
  | .cacheSet kind size => entry "cache set" [("kind", kind), ("bytes", Log.number size)]
  | .cacheFailed kind fault =>
    { entry "cache unavailable, parsing inputs"
        [("kind", kind), ("err", Log.faultText fault)] with level := .warn }

end Event

namespace Log

structure Listening where
  stages : Bool
  cache : Bool
  deriving DecidableEq, Repr

namespace Listening

def none : Listening := ⟨false, false⟩

/-- Listens to more; what was listened to stays so. -/
def also (l more : Listening) : Listening := ⟨l.stages || more.stages, l.cache || more.cache⟩

def hears (l : Listening) (event : Event) : Bool := if event.isCache then l.cache else l.stages

/-- What an event adds to a log that takes records from a level on. -/
def written (l : Listening) (lowest : Level) (event : Event) : Bytes :=
  let entry := event.logged
  if l.hears event && lowest.rank ≤ entry.level.rank then entry.line else []

end Listening
end Log
end StackBound
