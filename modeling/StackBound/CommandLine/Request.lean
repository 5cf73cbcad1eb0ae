import StackBound.CommandLine.Flag
import StackBound.Path
import StackBound.Project
import StackBound.Run.Options
import StackBound.Text.Lower

/-! What the program can be asked on its command line. The words that are no flags lead from the
program to one of its commands; the rest are that command's arguments. -/
namespace StackBound
namespace CommandLine

def programName : Bytes := utf8 "stackdepth"

inductive Command
  | root
  | analyze
  | graph
  | cache
  | cacheClear
  | cachePath
  | completion
  | help
  deriving DecidableEq, Repr

def inputFlags : List Flag :=
  [flag "config" .text, flag "elf-file" .text, flag "su-dir" .texts, flag "cgraph-dir" .texts,
   flag "start-func" .text, flag "vector-table" .text, flag "ignore-calls" .text,
   flag "add-calls" .texts, flag "debug" .switch, flag "no-cache" .switch, flag "refresh" .switch]

namespace Command

def children : Command → List (Bytes × Command)
  | .root =>
    [(utf8 "analyze", .analyze), (utf8 "graph", .graph), (utf8 "cache", .cache),
     (utf8 "completion", .completion), (utf8 "help", .help)]
  | .cache => [(utf8 "clear", .cacheClear), (utf8 "path", .cachePath)]
  | _ => []

def path : Command → Bytes
  | .root => programName
  | .analyze => programName ++ utf8 " analyze"
  | .graph => programName ++ utf8 " graph"
  | .cache => programName ++ utf8 " cache"
  | .cacheClear => programName ++ utf8 " cache clear"
  | .cachePath => programName ++ utf8 " cache path"
  | .completion => programName ++ utf8 " completion"
  | .help => programName ++ utf8 " help"

def flags : Command → List Flag
  | .analyze =>
    inputFlags ++ [flag "json" .text, flag "baseline" .text, flag "max-stack" .integer,
      lettered "interactive" 'i' .switch]
  | .graph =>
    inputFlags ++ [flag "scenario" .text, lettered "output" 'o' .text, lettered "format" 'f' .text,
      flag "detailed" .switch]
  | _ => []

def allFlags (c : Command) : List Flag :=
  c.flags ++ [lettered "help" 'h' .switch] ++
    if c = .root then [lettered "version" 'v' .switch] else []

/-- Whether the argument after a word is taken for its value while the command is looked for. -/
def takesValue (c : Command) (word : Bytes) : Bool :=
  let isSwitch (test : Flag → Bool) : Bool := c.flags.any fun f => test f && f.kind = .switch
  !word.contains equals &&
    if word.startsWith [hyphen, hyphen] then !isSwitch (·.name = word.drop 2)
    else word.head? = some hyphen && word.length = 2 && !isSwitch (·.letter = word.getLast?)

/-- The words between the flags. A flag without an argument that could be a word ends them. -/
def words (c : Command) : List Bytes → List Bytes
  | [] => []
  | [word] => if word.head? = some hyphen ∨ word = [] then [] else [word]
  | word :: next :: rest =>
    if word = [hyphen, hyphen] then []
    else if c.takesValue word then (if rest = [] then [] else c.words rest)
    else if word.head? = some hyphen ∨ word = [] then c.words (next :: rest)
    else word :: c.words (next :: rest)

/-- The arguments without the first occurrence of a word between the flags. -/
def without (c : Command) (word : Bytes) : List Bytes → List Bytes
  | [] => []
  | first :: rest =>
    if first = [hyphen, hyphen] then first :: rest
    else if c.takesValue first then
      match rest with
      | [] => [first]
      | value :: rest => first :: value :: c.without word rest
    else if first = word then rest
    else first :: c.without word rest

/-- The command that arguments lead to, and what they hold beside the words that lead there. -/
def find (c : Command) : Nat → List Bytes → Command × List Bytes
  | 0, args => (c, args)
  | depth + 1, args =>
    match (c.words args).head? with
    | none => (c, args)
    | some word =>
      match c.children.lookup word with
      | none => (c, args)
      | some child => child.find depth (c.without word args)

end Command

/-! ### Suggestions -/

def distanceRow (target : Bytes) (row : List Nat) (index : Nat) (b : UInt8) : List Nat :=
  ((target.zip (row.zip row.tail)).foldl (fun (done : List Nat) (t, corner, above) =>
    let left := done.headD 0
    (if t = b then corner else 1 + min (min above left) corner) :: done) [index + 1]).reverse

/-- How many bytes have to be changed, added or left out to make one text of another. -/
def distance (a b : Bytes) : Nat :=
  (a.foldl (fun (state : Nat × List Nat) byte =>
    (state.1 + 1, distanceRow b state.2 state.1 byte))
    (0, List.range (b.length + 1))).2.getLastD 0

/-- Whether a word may be meant for a command, in whatever case it is written. -/
def resembles (word name : Bytes) : Bool :=
  distance word.lowered name.lowered ≤ 2 || name.lowered.startsWith word.lowered

/-- The commands that may be meant, as an addition to a complaint. Help is never suggested. -/
def suggestions (c : Command) (word : Bytes) : Bytes :=
  match ((c.children.filter (·.2 ≠ .help)).map (·.1)).filter (resembles word) with
  | [] => []
  | names => utf8 "\n\nDid you mean this?\n" ++ names.flatMap fun n => utf8 "\t" ++ n ++ utf8 "\n"

/-! ### Requests -/

/-- What is asked about the inputs of a run; none where the project file decides. -/
structure InputRequest where
  config : Path
  elfFile : Option Path
  suDirs : Option (List Path)
  cgraphDirs : Option (List Path)
  startFunctions : Option Bytes
  vectorTable : Option Name
  ignoreCalls : Option Path
  addCalls : Option (List Path)
  debug : Option Bool
  noCache : Bool
  refresh : Bool
  deriving DecidableEq, Repr

structure AnalyzeRequest where
  inputs : InputRequest
  json : Path
  baseline : Path
  maxStack : Option Int64
  interactive : Bool
  deriving DecidableEq, Repr

structure GraphRequest where
  inputs : InputRequest
  scenario : Bytes
  output : Path
  format : Bytes
  detailed : Bool
  deriving DecidableEq, Repr

inductive Request
  | analyze (request : AnalyzeRequest)
  | graph (request : GraphRequest)
  | cacheClear
  | cachePath
  | completion (shell : Bytes)
  | help (command : Command)
  | version
  deriving DecidableEq, Repr

namespace InputRequest

def ofArguments (a : Arguments) : InputRequest :=
  { config := a.text "config" []
    elfFile := a.whenGiven "elf-file" (a.text "elf-file" [])
    suDirs := a.whenGiven "su-dir" (a.texts "su-dir")
    cgraphDirs := a.whenGiven "cgraph-dir" (a.texts "cgraph-dir")
    startFunctions := a.whenGiven "start-func" (a.text "start-func" [])
    vectorTable := a.whenGiven "vector-table" (a.text "vector-table" [])
    ignoreCalls := a.whenGiven "ignore-calls" (a.text "ignore-calls" [])
    addCalls := a.whenGiven "add-calls" (a.texts "add-calls")
    debug := a.whenGiven "debug" (a.switch "debug")
    noCache := a.switch "no-cache"
    refresh := a.switch "refresh" }

/-- The entry points: those asked for, or those of the project if it names any, or the standard one. -/
def entryPoints (r : InputRequest) (p : Project) : List Name :=
  match r.startFunctions, p.entryPoints with
  | none, some (entry :: more) => entry :: more
  | asked, _ => (asked.getD Options.standardEntry).split Csv.comma

/-- What a run is asked to do: a flag decides where it is given, and the project where it is not. -/
def options (r : InputRequest) (p : Project) : Options where
  elfFile := r.elfFile.getD p.elfFile
  suDirs := r.suDirs.getD p.suDirs
  cgraphDirs := r.cgraphDirs.getD p.cgraphDirs
  entryPoints := some (r.entryPoints p)
  vectorTable := r.vectorTable.getD p.vectorTable
  ignoreFile := r.ignoreCalls.getD p.ignoreCalls
  addCallFiles := r.addCalls.getD p.addCalls
  reachability := r.debug.getD p.debug
  refresh := r.refresh
  complete := false

end InputRequest

def shells : List Bytes := ["bash", "fish", "powershell", "zsh"].map utf8

namespace Request

def noArguments (c : Command) (a : Arguments) (request : Request) : Except Fault Request :=
  match a.rest with
  | [] => .ok request
  | word :: _ =>
    .error (.plain (utf8 "unknown command " ++ word.quoted ++ utf8 " for " ++ c.path.quoted))

/-- The request for a shell's completion script. -/
def forShell (c : Command) (args : List Bytes) : Except Fault Request :=
  match args with
  | [shell] =>
    if shells.contains shell then .ok (.completion shell)
    else .error (.plain (utf8 "invalid argument " ++ shell.quoted ++ utf8 " for " ++ c.path.quoted))
  | _ =>
    .error (.plain (utf8 "accepts 1 arg(s), received " ++ Bytes.ofNat args.length))

def ofArguments (c : Command) (a : Arguments) : Except Fault Request :=
  match c with
  | .root | .cache | .help => .ok (.help c)
  | .analyze =>
    noArguments c a <| .analyze
      { inputs := .ofArguments a
        json := a.text "json" []
        baseline := a.text "baseline" []
        maxStack := a.whenGiven "max-stack" (a.integer "max-stack")
        interactive := a.switch "interactive" }
  | .graph =>
    noArguments c a <| .graph
      { inputs := .ofArguments a
        scenario := a.text "scenario" []
        output := a.text "output" []
        format := a.text "format" (utf8 "dot")
        detailed := a.switch "detailed" }
  | .cacheClear => noArguments c a .cacheClear
  | .cachePath => noArguments c a .cachePath
  | .completion => forShell c a.rest

def parse (args : List Bytes) : Except Fault Request :=
  let (c, args) := Command.root.find args.length args
  match c, (Command.words .root args).head? with
  | .root, some word =>
    .error (.plain (utf8 "unknown command " ++ word.quoted ++ utf8 " for " ++ c.path.quoted ++
      suggestions c word))
  | c, _ =>
    match Arguments.parse c.allFlags args with
    | .error fault => .error fault
    | .ok a =>
      if a.switch "help" then .ok (.help c)
      else if a.switch "version" then .ok .version
      else ofArguments c a

end Request
end CommandLine
end StackBound
