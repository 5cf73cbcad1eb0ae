import StackBound.Duration
import StackBound.Symbol
import StackBound.Text.Folded
import StackBound.Toml.Document
import StackBound.Tree

/-! Project files: the inputs of an analysis, recorded once for everybody who runs it. Paths in the
file are relative to the directory it is in. -/
namespace StackBound

structure CacheSettings where
  disabled : Bool
  url : Bytes
  /-- The lifetime as written. -/
  ttl : Bytes
  lifetime : Duration

structure Project where
  elfFile : Path
  suDirs : List Path
  cgraphDirs : List Path
  /-- The entry points, if the file names any list of them, even an empty one. -/
  entryPoints : Option (List Name)
  vectorTable : Name
  ignoreCalls : Path
  addCalls : List Path
  debug : Bool
  maxStack : Int64
  cache : CacheSettings
  /-- The file the settings come from; empty if there is none. -/
  path : Path

namespace Project

def fileName : Bytes := utf8 "stackdepth.toml"

def empty : Project where
  elfFile := []
  suDirs := []
  cgraphDirs := []
  entryPoints := none
  vectorTable := []
  ignoreCalls := []
  addCalls := []
  debug := false
  maxStack := 0
  cache := ⟨false, [], [], 0⟩
  path := []

open Toml (Item Key)

def string? : Item → Option Bytes
  | .string text => some text
  | _ => none

def strings? : Item → Option (List Bytes)
  | .array items => items.mapM string?
  | _ => none

def boolean? : Item → Option Bool
  | .boolean b => some b
  | _ => none

def integer? : Item → Option Int64
  | .integer n => some n
  | _ => none

/-- A setting: its name and what its value changes, with the keys inside the value that were
understood. A value of the wrong type changes nothing. -/
structure Setting (α : Type) where
  name : Bytes
  assign : α → Item → Option (α × List Key)

def plain (name : String) (read? : Item → Option β) (put : α → β → α) : Setting α :=
  ⟨utf8 name, fun a item => (read? item).map fun value => (put a value, [])⟩

def apply (settings : List (Setting α)) (table : Toml.Table) (start : α) :
    Option (α × List Key) :=
  table.foldlM (fun (state : α × List Key) (key, item) =>
    match (Bytes.meant? (settings.map (·.name)) key).bind
        fun name => settings.find? (·.name = name) with
    | none => some state
    | some setting => (setting.assign state.1 item).map fun (value, inner) =>
      (value, [key] :: inner.map (key :: ·) ++ state.2)) (start, [])

def cacheSettings : List (Setting CacheSettings) :=
  [plain "disabled" boolean? fun c v => { c with disabled := v },
   plain "url" string? fun c v => { c with url := v },
   plain "ttl" string? fun c v => { c with ttl := v }]

def cacheSetting : Setting Project :=
  ⟨utf8 "cache", fun p item => match item with
    | .table fields => (apply cacheSettings fields p.cache).map fun (cache, known) =>
      ({ p with cache := cache }, known)
    | _ => none⟩

def settings : List (Setting Project) :=
  [plain "elf_file" string? fun p v => { p with elfFile := v },
   plain "su_dirs" strings? fun p v => { p with suDirs := v },
   plain "cgraph_dirs" strings? fun p v => { p with cgraphDirs := v },
   plain "entry_points" strings? fun p v => { p with entryPoints := some v },
   plain "vector_table" string? fun p v => { p with vectorTable := v },
   plain "ignore_calls" string? fun p v => { p with ignoreCalls := v },
   plain "add_calls" strings? fun p v => { p with addCalls := v },
   plain "debug" boolean? fun p v => { p with debug := v },
   plain "max_stack" integer? fun p v => { p with maxStack := v },
   cacheSetting]

/-- A path of the file as seen from the directory the program runs in. -/
def resolve (base path : Path) : Path :=
  if path = [] ∨ path.isRooted then path else Path.join [base, path]

def resolved (p : Project) (base : Path) : Project :=
  { p with
    elfFile := resolve base p.elfFile
    ignoreCalls := resolve base p.ignoreCalls
    suDirs := p.suDirs.map (resolve base)
    cgraphDirs := p.cgraphDirs.map (resolve base)
    addCalls := p.addCalls.map (resolve base) }

def invalid (message : Bytes) : Fault := .coded .invalidConfig message

/-- The settings of a file with the given content. The first unknown key is named; then the values
are looked at. -/
def ofContent (path : Path) (content : Bytes) : Except Fault Project :=
  let complaint (message : Bytes) : Fault := invalid (path ++ utf8 ": " ++ message)
  match (Toml.Document.parse? content).bind fun d => (apply settings d.root empty).map (d.keys, ·) with
  | none => .error (invalid (utf8 "parse " ++ path))
  | some (keys, p, known) =>
    match keys.find? (!known.contains ·) with
    | some key => .error (complaint (utf8 "unknown key " ++ Bytes.quoted key.text))
    | none =>
      if p.maxStack < 0 then .error (complaint (utf8 "max_stack must not be negative"))
      else
        let lifetime? := if p.cache.ttl = [] then some 0 else Duration.parse? p.cache.ttl
        match lifetime?.filter (0 ≤ ·) with
        | none => .error (complaint (utf8 "invalid cache ttl " ++ p.cache.ttl.quoted))
        | some lifetime =>
          let p := { p with cache := { p.cache with lifetime := lifetime }, path := path }
          .ok (p.resolved path.dir)

def load (t : Tree) (path : Path) : Except Fault Project :=
  match t.read path with
  | .ok content => ofContent path content
  | .error e =>
    if e.isMissing then
      .error (.codedBy .fileNotFound (utf8 "config file not found: " ++ path) e.fault)
    else .error (invalid (utf8 "parse " ++ path))

def find (t : Tree) (dir : Path) : Path :=
  let path := Path.join [dir, fileName]
  if t.isFile path then path else []

end Project
end StackBound
