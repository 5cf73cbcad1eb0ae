import StackBound.Cache.Store
import StackBound.Digest.Sha256
import StackBound.Instant
import StackBound.Json.Reader
import StackBound.Tree

/-! A cache in a directory. Each entry is a file that holds the bytes and when they expire; its name
is the hash of the key, and its first two digits name a directory of their own. -/
namespace StackBound
namespace Cache

/-- Stored bytes; an entry that expires at the zero instant never does. -/
structure Entry where
  data : Bytes
  expires : Instant
  deriving DecidableEq, Repr

namespace Entry

def reader : Json.Reader Entry :=
  .object ⟨[], .zero⟩
    [Json.Reader.field "data" ({ · with data := · }) .blob,
     Json.Reader.field "expires_at" ({ · with expires := · }) (.leaf .zero instant?)]
where
  instant? : Json → Option Instant
    | .string text => Instant.parse? text
    | _ => none

def parse? (text : Bytes) : Option Entry := (Json.whole? text).bind fun value => reader [value]

def text? (e : Entry) : Option Bytes :=
  e.expires.text?.map fun expires =>
    Json.compact <| .object
      [Json.member "data" (.string (Base64.encode e.data)), Json.member "expires_at" (.string expires)]

/-- An entry is good up to the very instant at which it expires. -/
def isExpired (e : Entry) (now : Instant) : Bool := e.expires ≠ .zero && now.after e.expires

end Entry

/-- The files of a cache directory and the time. -/
structure Directory where
  tree : Tree
  root : Path
  now : Instant

namespace Directory

def create (tree : Tree) (root : Path) (now : Instant) : Except Fault Directory :=
  match tree.makeDirectories root with
  | .ok tree => .ok ⟨tree, root, now⟩
  | .error e => .error e.fault

def pathOf (root : Path) (key : Bytes) : Path :=
  let hash := Sha256.hex key
  Path.join [root, hash.take 2, hash.drop 2 ++ utf8 ".json"]

def advance (d : Directory) (span : Duration) : Directory := { d with now := d.now.add span }

/-- Takes a file away if that can be done. -/
def drop (d : Directory) (path : Path) : Directory :=
  match d.tree.unlink path with
  | .ok tree => { d with tree := tree }
  | .error _ => d

/-- What is stored under a key. An entry that cannot be read or has expired is taken away. -/
def get (d : Directory) (key : Bytes) : Answer × Directory :=
  let path := pathOf d.root key
  match d.tree.read path with
  | .error e => (if e.isMissing then .miss else .failed e.fault, d)
  | .ok content =>
    match Entry.parse? content with
    | none => (.miss, d.drop path)
    | some entry =>
      if entry.isExpired d.now then (.miss, d.drop path) else (.hit entry.data, d)

/-- A name in a directory that nothing has yet. -/
def temporary (t : Tree) (dir : Place) : Place :=
  let taken := (t.children dir).length
  let free := (List.range (taken + 1)).find? fun n => (t.node? (dir ++ [name n])).isNone
  dir ++ [name (free.getD taken)]
where
  name (n : Nat) : Bytes := utf8 ".tmp-" ++ Bytes.ofNat n

/-- Writes a file under a temporary name and then gives it its own, so that nobody ever sees half of
it. A directory in its place makes the second step fail. -/
def replaceFile (t : Tree) (path : Path) (content : Bytes) : Option Fault × Tree :=
  match t.place true path.dir with
  | .error refusal => (some (PathError.fault ⟨utf8 "open", path, refusal⟩), t)
  | .ok dir =>
    let place := dir ++ [path.base]
    if t.node? place = some .directory then
      (some (PathError.fault ⟨utf8 "rename", path, .exists⟩),
        t.put (temporary t dir) (.file content))
    else (none, t.put place (.file content))

/-- Stores bytes under a key, for good if the lifetime is not positive. -/
def set (d : Directory) (key data : Bytes) (lifetime : Duration) : Option Fault × Directory :=
  let expires := if 0 < lifetime then d.now.add lifetime else .zero
  match Entry.text? ⟨data, expires⟩ with
  | none => (some (.plain (utf8 "year outside of range")), d)
  | some content =>
    let path := pathOf d.root key
    match d.tree.makeDirectories path.dir with
    | .error e => (some e.fault, d)
    | .ok tree =>
      let (fault, tree) := replaceFile tree path content
      (fault, { d with tree := tree })

def delete (d : Directory) (key : Bytes) : Option Fault × Directory :=
  match d.tree.unlink (pathOf d.root key) with
  | .ok tree => (none, { d with tree := tree })
  | .error e => (if e.isMissing then none else some e.fault, d)

/-- Takes away everything and tells how many files there were. -/
def clear (d : Directory) : Nat × Directory :=
  match d.tree.find false d.root with
  | .ok (place, .directory) =>
    ((d.tree.below place).countP (·.2 ≠ .directory), { d with tree := d.tree.removeBelow place })
  | _ => (0, d)

def store : Store Directory := ⟨get, set, none⟩

/-- Where a program keeps its cache: below the cache directory of the user's settings, or else below
the one in the home directory. An unset and an empty variable are the same. -/
def standard (cacheHome home : Bytes) (app : Bytes) : Except Fault Path :=
  if cacheHome ≠ [] then .ok (Path.join [cacheHome, app])
  else if home ≠ [] then .ok (Path.join [home, utf8 ".cache", app])
  else .error (.plain (utf8 "$HOME is not defined"))

end Directory
end Cache
end StackBound
