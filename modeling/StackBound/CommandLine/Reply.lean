import StackBound.Budget
import StackBound.Cache.Directory
import StackBound.CommandLine.Request
import StackBound.Drawing.Dot
import StackBound.Run.Summary
import StackBound.Screen.Summary
import StackBound.Version

/-! What the program does about a request: what it prints, which files it writes, and whether it
failed. -/
namespace StackBound
namespace CommandLine

open Screen (detail file line status)

structure World where
  tree : Tree
  now : Instant
  /-- The user's cache directory and home directory; empty where they are not set. -/
  cacheHome : Path
  home : Path
  /-- The name of this run in reports. -/
  runId : Bytes
  version : Version

structure Reply where
  output : Bytes
  fault : Option Fault
  tree : Tree

namespace World

def succeed (w : World) (output : Bytes) : Reply := ⟨output, none, w.tree⟩

def fail (w : World) (output : Bytes) (fault : Fault) : Reply := ⟨output, some fault, w.tree⟩

/-- The cache that a project asks for. A directory that cannot be used is as good as none. -/
def caching (w : World) (p : Project) (noCache : Bool) :
    Run.Caching Cache.Directory × Cache.Directory :=
  let lifetime := if 0 < p.cache.lifetime then p.cache.lifetime else Run.standardLifetime
  let off : Run.Caching Cache.Directory × Cache.Directory :=
    (⟨.null, [], lifetime⟩, ⟨w.tree, [], w.now⟩)
  if noCache || p.cache.disabled then off
  else match Cache.Directory.standard w.cacheHome w.home programName with
    | .error _ => off
    | .ok dir =>
      match Cache.Directory.create w.tree dir w.now with
      | .error _ => off
      | .ok directory => (⟨Cache.Directory.store, [], lifetime⟩, directory)

/-- The settings of the project file that is named, or else of the one that is there, or else none. -/
def project (w : World) (r : InputRequest) : Except Fault Project :=
  let path := if r.config = [] then Project.find w.tree Path.dot else r.config
  if path = [] then .ok .empty else Project.load w.tree path

/-- Runs the analysis that is asked for. The world afterwards has what was put into the cache. -/
def analyze (w : World) (r : InputRequest) : Except Fault (Analysis × Project) × World :=
  match w.project r with
  | .error fault => (.error fault, w)
  | .ok p =>
    let (caching, directory) := w.caching p r.noCache
    let (result, trace) :=
      Run.execute caching w.tree false (r.options p) (.start directory)
    (result.map (·, p), { w with tree := trace.cache.tree })

def writeReport (w : World) (path : Path) (a : Analysis) : Except Fault World :=
  match w.tree.write path (Report.ofAnalysis w.runId w.version.number a).text with
  | .ok tree => .ok { w with tree := tree }
  | .error e => .error (.during (utf8 "create " ++ path) e.fault)

def described (w : World) (r : AnalyzeRequest) (a : Analysis) : Bytes × Option Fault :=
  let summary := Summary.text a
  if r.baseline = [] then (summary, none)
  else match Report.load w.tree r.baseline with
    | .error fault => (summary, some fault)
    | .ok base => (summary ++ Summary.comparison base a.evaluation.overall.result, none)

/-- The limit on the stack: a flag decides, or else the project. -/
def budget (r : AnalyzeRequest) (p : Project) : Int64 := r.maxStack.getD p.maxStack

def toOutput : Path := utf8 "-"

def present (w : World) (r : AnalyzeRequest) (a : Analysis) (limit : Int64) : Reply :=
  let checked (w : World) (output : Bytes) : Reply :=
    match Budget.check limit a.evaluation.overall with
    | .ok _ => w.succeed output
    | .error fault => w.fail output fault
  if r.json = toOutput then checked w (Report.ofAnalysis w.runId w.version.number a).text
  else match w.described r a with
    | (output, some fault) => w.fail output fault
    | (output, none) =>
      if r.json = [] then checked w output
      else match w.writeReport r.json a with
        | .error fault => w.fail output fault
        | .ok w => checked w (output ++ line [] ++ status .ok (utf8 "Report written") ++ file r.json)

def replyAnalyze (w : World) (r : AnalyzeRequest) : Reply :=
  match w.analyze r.inputs with
  | (.error fault, w) => w.fail [] fault
  | (.ok (a, p), w) =>
    let limit := budget r p
    if limit < 0 then
      w.fail [] (.coded .invalidInput (utf8 "--max-stack must not be negative"))
    else w.present r a limit

def formats : List Bytes := ["dot", "svg", "png"].map utf8

/-- The drawing that is asked for: the graph, with what a scenario adds and its worst path. -/
def drawing (r : GraphRequest) (a : Analysis) : Except Fault Drawing :=
  let sizes := if r.detailed then some a.table.frameSize else none
  if r.scenario = [] then .ok ⟨a.graph, .ofEdges [], [], sizes⟩
  else match a.scenario? r.scenario, a.evaluation.find? r.scenario with
    | some scenario, some outcome =>
      .ok ⟨a.graph, scenario.additions.overlay,
        if outcome.result.unbounded then outcome.result.cycle else outcome.result.path, sizes⟩
    | _, _ =>
      .error (.coded .scenarioNotFound
        (utf8 "no scenario " ++ r.scenario.quoted ++ utf8 " (have: " ++
          Bytes.join (utf8 ", ") (a.scenarios.map (·.label)) ++ utf8 ")"))

def deliver (w : World) (r : GraphRequest) (a : Analysis) (dot : Bytes) : Reply :=
  if r.output = [] then w.succeed dot
  else match w.tree.write r.output dot with
    | .error e => w.fail [] (.during (utf8 "write " ++ r.output) e.fault)
    | .ok tree =>
      { w with tree := tree }.succeed <|
        status .ok (utf8 "Call graph written (" ++ Bytes.ofNat a.graph.callerCount ++
          utf8 " callers, " ++ Bytes.ofNat a.graph.edgeCount ++ utf8 " edges)") ++
        file r.output ++
        line (utf8 "Render: " ++ Screen.block (utf8 "dot -Tsvg " ++ r.output))

def replyGraph (w : World) (r : GraphRequest) : Reply :=
  if !formats.contains r.format then
    w.fail [] (.coded .invalidInput
      (utf8 "unknown format " ++ r.format.quoted ++ utf8 " (want " ++
        Bytes.join (utf8 ", ") formats ++ utf8 ")"))
  else match w.analyze r.inputs with
    | (.error fault, w) => w.fail [] fault
    | (.ok (a, _), w) =>
      match drawing r a with
      | .error fault => w.fail [] fault
      | .ok d =>
        if r.format = utf8 "dot" then w.deliver r a d.dot
        else w.fail [] (.plain (utf8 "init graphviz: no renderer for " ++ r.format))

def cacheDirectory (w : World) : Except Fault Path :=
  (Cache.Directory.standard w.cacheHome w.home programName).mapError
    (.during (utf8 "get cache dir"))

def replyCachePath (w : World) : Reply :=
  match w.cacheDirectory with
  | .error fault => w.fail [] fault
  | .ok dir => w.succeed (line dir)

/-- Whether a path leads to nothing at all. -/
def isMissing (w : World) (path : Path) : Bool :=
  match w.tree.stat path with
  | .error e => e.isMissing
  | .ok _ => false

def replyCacheClear (w : World) : Reply :=
  match w.cacheDirectory with
  | .error fault => w.fail [] fault
  | .ok dir =>
    if w.isMissing dir then w.succeed (status .info (utf8 "Cache is empty"))
    else match Cache.Directory.create w.tree dir w.now with
      | .error fault => w.fail [] fault
      | .ok directory =>
        let (removed, directory) := directory.clear
        { w with tree := directory.tree }.succeed <|
          status .ok (utf8 "Cleared " ++ Bytes.ofNat removed ++ utf8 " cached entries") ++
          detail (utf8 "Directory: " ++ dir)

end World

/-- Answers a request. Help and completion scripts are left to the caller. -/
def Request.reply (w : World) : Request → Reply
  | .analyze r => w.replyAnalyze r
  | .graph r => w.replyGraph r
  | .cachePath => w.replyCachePath
  | .cacheClear => w.replyCacheClear
  | .version => w.succeed (w.version.text programName)
  | .completion _ | .help _ => w.succeed []

def answer (w : World) (args : List Bytes) : Reply :=
  match Request.parse args with
  | .error fault => w.fail [] fault
  | .ok request => request.reply w

end CommandLine
end StackBound
