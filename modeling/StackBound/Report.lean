import StackBound.CallGraph.Resolution
import StackBound.Json.Reader
import StackBound.Reach
import StackBound.Tree
import StackBound.WorstCase.Result

/-! The report of a run, as other programs read it and as a later run compares itself with it. A
report that was read may lack its lists; one that was made here has them all. -/
namespace StackBound

open CallGraph (Unresolved)

namespace Report

structure Finding where
  label : Bytes
  entry : Name
  total : Int64
  unbounded : Bool
  path : Option (List Name)
  cycle : List Name
  deriving DecidableEq, Repr

structure Worst extends Finding where
  frames : List WorstCase.Frame
  deriving DecidableEq, Repr

structure Note where
  tier : Bytes
  source : Bytes
  line : Int64
  message : Bytes
  deriving DecidableEq, Repr

/-- How large the analyzed program was, and the milliseconds it took. -/
structure Stats where
  suFiles : Int64
  cgraphFiles : Int64
  functions : Int64
  callers : Int64
  edges : Int64
  parseMs : Int64
  analyzeMs : Int64
  deriving DecidableEq, Repr

end Report

structure Report where
  runId : Bytes
  version : Bytes
  entryPoints : Option (List Name)
  isrs : List Name
  scenarios : Option (List Report.Finding)
  worst : Report.Worst
  uncalled : List Uncalled
  unresolved : List Unresolved
  warnings : List Report.Note
  stats : Report.Stats
  deriving DecidableEq, Repr

namespace Report

/-! ### Writing -/

open Json (Member member optional orNull texts)

def Finding.members (f : Finding) : List Member :=
  [member "label" (.string f.label)] ++
  optional f.entry.isEmpty "entry" (.string f.entry) ++
  [member "total" (.int f.total), member "unbounded" (.bool f.unbounded),
    member "path" (orNull f.path .string)] ++
  optional f.cycle.isEmpty "cycle" (texts f.cycle)

def frameJson (f : WorstCase.Frame) : Json :=
  .object [member "function" (.string f.function), member "size" (.int f.size),
    member "cumulative" (.int f.cumulative)]

def Worst.json (w : Worst) : Json :=
  .object (w.toFinding.members ++
    optional w.frames.isEmpty "frames" (.array (w.frames.map frameJson)))

def uncalledJson (u : Uncalled) : Json :=
  .object [member "name" (.string u.name), member "raw_name" (.string u.rawName),
    member "size" (.int u.size)]

def unresolvedJson (u : Unresolved) : Json :=
  .object [member "caller" (.string u.caller), member "ref" (.string u.ref)]

def Note.json (n : Note) : Json :=
  .object ([member "tier" (.string n.tier)] ++
    optional n.source.isEmpty "source" (.string n.source) ++
    optional (n.line = 0) "line" (.int n.line) ++
    [member "message" (.string n.message)])

def Stats.json (s : Stats) : Json :=
  .object [member "su_files" (.int s.suFiles), member "cgraph_files" (.int s.cgraphFiles),
    member "functions" (.int s.functions), member "callers" (.int s.callers),
    member "edges" (.int s.edges), member "parse_ms" (.int s.parseMs),
    member "analyze_ms" (.int s.analyzeMs)]

def json (r : Report) : Json :=
  .object ([member "run_id" (.string r.runId), member "version" (.string r.version),
      member "entry_points" (orNull r.entryPoints .string)] ++
    optional r.isrs.isEmpty "isrs" (texts r.isrs) ++
    [member "scenarios" (orNull r.scenarios fun f => .object f.members),
      member "worst" r.worst.json] ++
    optional r.uncalled.isEmpty "uncalled" (.array (r.uncalled.map uncalledJson)) ++
    optional r.unresolved.isEmpty "unresolved" (.array (r.unresolved.map unresolvedJson)) ++
    optional r.warnings.isEmpty "warnings" (.array (r.warnings.map Note.json)) ++
    [member "stats" r.stats.json])

def text (r : Report) : Bytes := r.json.indented ++ [10]

/-! ### Reading -/

open Json (Reader)
open Json.Reader (Setter field)

def names : Reader (List Name) := .list .text

def Finding.blank : Finding := ⟨[], [], 0, false, none, []⟩

def Finding.fields : List (Bytes × Setter Finding) :=
  [field "label" ({ · with label := · }) .text,
   field "entry" ({ · with entry := · }) .text,
   field "total" ({ · with total := · }) .int,
   field "unbounded" ({ · with unbounded := · }) .bool,
   field "path" ({ · with path := · }) (.list? .text),
   field "cycle" ({ · with cycle := · }) names]

def frameReader : Reader WorstCase.Frame :=
  .object ⟨[], 0, 0⟩
    [field "function" ({ · with function := · }) .text,
     field "size" ({ · with size := · }) .int,
     field "cumulative" ({ · with cumulative := · }) .int]

def Worst.blank : Worst := ⟨.blank, []⟩

def Worst.fields : List (Bytes × Setter Worst) :=
  Finding.fields.map (fun (key, set) => (key, fun worst occurrences =>
    (set worst.toFinding occurrences).map ({ worst with toFinding := · }))) ++
  [field "frames" ({ · with frames := · }) (.list frameReader)]

def uncalledReader : Reader Uncalled :=
  .object ⟨[], [], 0⟩
    [field "name" ({ · with name := · }) .text,
     field "raw_name" ({ · with rawName := · }) .text,
     field "size" ({ · with size := · }) .int]

def unresolvedReader : Reader Unresolved :=
  .object ⟨[], []⟩
    [field "caller" ({ · with caller := · }) .text,
     field "ref" ({ · with ref := · }) .text]

def Note.reader : Reader Note :=
  .object ⟨[], [], 0, []⟩
    [field "tier" ({ · with tier := · }) .text,
     field "source" ({ · with source := · }) .text,
     field "line" ({ · with line := · }) .int,
     field "message" ({ · with message := · }) .text]

def Stats.blank : Stats := ⟨0, 0, 0, 0, 0, 0, 0⟩

def Stats.reader : Reader Stats :=
  .object .blank
    [field "su_files" ({ · with suFiles := · }) .int,
     field "cgraph_files" ({ · with cgraphFiles := · }) .int,
     field "functions" ({ · with functions := · }) .int,
     field "callers" ({ · with callers := · }) .int,
     field "edges" ({ · with edges := · }) .int,
     field "parse_ms" ({ · with parseMs := · }) .int,
     field "analyze_ms" ({ · with analyzeMs := · }) .int]

def blank : Report := ⟨[], [], none, [], none, .blank, [], [], [], .blank⟩

def reader : Reader Report :=
  .object blank
    [field "run_id" ({ · with runId := · }) .text,
     field "version" ({ · with version := · }) .text,
     field "entry_points" ({ · with entryPoints := · }) (.list? .text),
     field "isrs" ({ · with isrs := · }) names,
     field "scenarios" ({ · with scenarios := · })
       (.list? (.object .blank Finding.fields)),
     field "worst" ({ · with worst := · }) (.object .blank Worst.fields),
     field "uncalled" ({ · with uncalled := · }) (.list uncalledReader),
     field "unresolved" ({ · with unresolved := · }) (.list unresolvedReader),
     field "warnings" ({ · with warnings := · }) (.list Note.reader),
     field "stats" ({ · with stats := · }) Stats.reader]

def parse (content : Bytes) : Except Fault Report :=
  match (Json.first? content).bind fun value => reader [value] with
  | some report => .ok report
  | none => .error .undecodable

/-- Reads the report in a file. What is no file holds no report. -/
def load (t : Tree) (path : Path) : Except Fault Report :=
  match t.read path with
  | .ok content => parse content
  | .error e =>
    if e.refusal = .isDirectory then .error .undecodable
    else .error (.during (utf8 "open " ++ path) e.fault)

end Report
end StackBound
