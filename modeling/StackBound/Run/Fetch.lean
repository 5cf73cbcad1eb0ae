import StackBound.Cache.Key
import StackBound.Cache.Store
import StackBound.Event
import StackBound.Stored

/-! Reading input files by way of a cache. The file itself is always read; what the cache may save is
looking through its content. A cache that fails, or holds something that cannot be understood, is as
good as none. -/
namespace StackBound
namespace Run

/-- How a run uses its cache: the scope of its keys, and for how long it stores scans. -/
structure Caching (σ : Type) where
  store : Cache.Store σ
  scope : Bytes
  lifetime : Duration

def standardLifetime : Duration := 30 * 24 * 3600 * 1000000000

def Caching.keeps (c : Caching σ) : Duration :=
  if 0 < c.lifetime then c.lifetime else standardLifetime

/-- What a run leaves behind as it goes on: the state of the cache, the events so far, the last first,
and how often the cache had what was asked for. -/
structure Trace (σ : Type) where
  cache : σ
  events : List Event
  hits : Nat
  misses : Nat

namespace Trace

def start (cache : σ) : Trace σ := ⟨cache, [], 0, 0⟩

def add (t : Trace σ) (event : Event) : Trace σ := { t with events := event :: t.events }

end Trace

def count (n : Nat) : Int64 := Int64.ofNat n

def lookUp (c : Caching σ) (f : Format α) (refresh : Bool) (key : Bytes) (t : Trace σ) :
    Option α × Trace σ :=
  let word := Format.word f.kind
  if refresh then (none, t)
  else
    let (answer, cache) := c.store.get t.cache key
    let t := { t with cache := cache }
    match answer with
    | .failed fault => (none, t.add (.cacheFailed word (some fault)))
    | .miss => (none, t)
    | .hit data =>
      match f.restored? data with
      | some scan => (some scan, { t.add (.cacheHit word) with hits := t.hits + 1 })
      | none => (none, t)

def keep (c : Caching σ) (f : Format α) (key : Bytes) (scan : α) (t : Trace σ) : Trace σ :=
  let word := Format.word f.kind
  let data := f.stored scan
  let (fault, cache) := c.store.set t.cache key data c.keeps
  let t := { t with cache := cache }
  match fault with
  | some fault => t.add (.cacheFailed word (some fault))
  | none => t.add (.cacheSet word (count data.length))

def scan (c : Caching σ) (f : Format α) (path : Path) (content key : Bytes) (t : Trace σ) :
    Except Fault α × Trace σ :=
  let t := { t.add (.cacheMiss (Format.word f.kind)) with misses := t.misses + 1 }
  match f.parse content with
  | .error fault => (.error (.during (utf8 "parse " ++ path) fault), t)
  | .ok scan => (.ok scan, keep c f key scan t)

def fetch (c : Caching σ) (f : Format α) (tree : Tree) (refresh : Bool) (path : Path)
    (t : Trace σ) : Except Fault α × Trace σ :=
  match tree.read path with
  | .error e => (.error (.during (utf8 "read " ++ path) e.fault), t)
  | .ok content =>
    let key := Cache.scanKey c.scope (Format.word f.kind) (Sha256.hex content)
    match lookUp c f refresh key t with
    | (some scan, t) => (.ok scan, t)
    | (none, t) => scan c f path content key t

/-- What each of some files holds, up to the first that cannot be read. -/
structure Fetched (α : Type) where
  scans : List (Path × α)
  fault : Option Fault

def fetchAll (c : Caching σ) (f : Format α) (tree : Tree) (refresh : Bool)
    (done : List (Path × α)) : List Path → Trace σ → Fetched α × Trace σ
  | [], t => (⟨done.reverse, none⟩, t)
  | path :: rest, t =>
    match fetch c f tree refresh path t with
    | (.error fault, t) => (⟨done.reverse, some fault⟩, t)
    | (.ok scan, t) => fetchAll c f tree refresh ((path, scan) :: done) rest t

end Run
end StackBound
