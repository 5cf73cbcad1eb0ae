import StackBound.CallGraph.Dump
import StackBound.Discovery
import StackBound.Json.Reader
import StackBound.StackUsage.Record

/-! The stored form of scans: what a file was found to hold, as a structured text, so that the file
need not be looked through again. -/
namespace StackBound

open CallGraph (CallList Definition Dump)
open Json (Reader member orNull optional texts)
open Json.Reader (field)
open StackUsage (Listing Record Skipped)

/-- How files of one kind are read, and how what they hold is stored. -/
structure Format (α : Type) where
  kind : Discovery.Kind
  parse : Bytes → Except Fault α
  stored : α → Bytes
  restored? : Bytes → Option α

namespace Format

def word : Discovery.Kind → Bytes
  | .stackUsage => utf8 "su"
  | .callGraph => utf8 "cgraph"

def listOrNull (list : List α) (item : α → Json) : Json :=
  orNull (if list.isEmpty then none else some list) item

/-- Reads a stored text; one that says null holds nothing. -/
def restore? (reader : Reader α) (text : Bytes) : Option α :=
  match Json.whole? text with
  | none | some .null => none
  | some value => reader [value]

def recordJson (r : Record) : Json :=
  .object [member "name" (.string r.name), member "size" (.int r.size)]

def skippedJson (s : Skipped) : Json :=
  .object [member "line" (.int s.line), member "text" (.string s.text),
    member "reason" (.string s.reason)]

def listingJson (l : Listing) : Json :=
  .object ([member "records" (listOrNull l.records recordJson)] ++
    optional l.skipped.isEmpty "skipped" (.array (l.skipped.map skippedJson)))

def recordReader : Reader Record :=
  .object ⟨[], 0⟩
    [field "name" ({ · with name := · }) .text,
     field "size" ({ · with size := · }) .int]

def skippedReader : Reader Skipped :=
  .object ⟨0, [], []⟩
    [field "line" ({ · with line := · }) .int,
     field "text" ({ · with text := · }) .text,
     field "reason" ({ · with reason := · }) .text]

def listingReader : Reader Listing :=
  .object ⟨[], []⟩
    [field "records" ({ · with records := · }) (.list recordReader),
     field "skipped" ({ · with skipped := · }) (.list skippedReader)]

def stackUsage : Format Listing where
  kind := .stackUsage
  parse := Listing.parse
  stored l := (listingJson l).compact
  restored? := restore? listingReader

def definitionJson (d : Definition) : Json :=
  .object [member "id" (.string d.id), member "name" (.string d.name)]

def callListJson (c : CallList) : Json :=
  .object [member "caller" (.string c.caller), member "refs" (texts c.refs)]

def dumpJson (d : Dump) : Json :=
  .object [member "definitions" (listOrNull d.definitions definitionJson),
    member "calls" (listOrNull d.calls callListJson)]

def definitionReader : Reader Definition :=
  .object ⟨[], []⟩
    [field "id" ({ · with id := · }) .text,
     field "name" ({ · with name := · }) .text]

def callListReader : Reader CallList :=
  .object ⟨[], []⟩
    [field "caller" ({ · with caller := · }) .text,
     field "refs" ({ · with refs := · }) (.list .text)]

def dumpReader : Reader Dump :=
  .object ⟨[], []⟩
    [field "definitions" ({ · with definitions := · }) (.list definitionReader),
     field "calls" ({ · with calls := · }) (.list callListReader)]

def callGraph : Format Dump where
  kind := .callGraph
  parse := Dump.parse
  stored d := (dumpJson d).compact
  restored? := restore? dumpReader

end Format
end StackBound
