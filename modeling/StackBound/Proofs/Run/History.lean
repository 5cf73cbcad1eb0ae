import StackBound.Proofs.Cache.Directory
import StackBound.Proofs.Run.Direct
import StackBound.Proofs.Stored
import Mathlib.Data.Set.Operations

/-! Runs that share a cache directory. Whatever the runs before it left there, a run finds what it
finds without a cache: the files may change between runs, entries may expire or be passed over, and
any request may fail. This holds for scans of well-formed texts, as only those are stored without
loss, and where the hashes of what is read and asked for do not collide. -/
namespace StackBound.Run

open CallGraph (Dump)
open StackUsage (Listing)

/-- One of several runs: when it takes place, how it uses the cache, and what it is asked to do with
which files. -/
structure Session where
  now : Instant
  scope : Bytes
  lifetime : Duration
  tree : Tree
  canceled : Bool
  options : Options

namespace Session

def caching (s : Session) (store : Cache.Store σ) : Caching σ := ⟨store, s.scope, s.lifetime⟩

def run (s : Session) (d : Cache.Directory) : Except Fault Analysis × Cache.Directory :=
  let (result, t) := execute (s.caching Cache.Directory.store) s.tree s.canceled s.options
    (.start { d with now := s.now })
  (result, t.cache)

/-- The result without a cache. -/
def alone (s : Session) : Except Fault Analysis :=
  (execute (s.caching .null) s.tree s.canceled s.options (.start ())).1

def replay (d : Cache.Directory) : List Session → List (Except Fault Analysis)
  | [] => []
  | s :: later => (s.run d).1 :: replay (s.run d).2 later

def Reads (s : Session) (kind : Discovery.Kind) (content : Bytes) : Prop :=
  Run.Reads s.tree s.options kind content

def key (s : Session) (kind : Discovery.Kind) (content : Bytes) : Bytes :=
  Cache.scanKey s.scope (Format.word kind) (Sha256.hex content)

/-- No two contents that are read have one hash, nor have two identities or two keys of them. -/
structure Apart (history : List Session) : Prop where
  contents : Set.InjOn Sha256.hex
    { content | ∃ s ∈ history, ∃ kind, s.Reads kind content }
  identities : Set.InjOn Sha256.hex
    { identity | ∃ s ∈ history, ∃ kind content, s.Reads kind content ∧
      identity = Cache.identity (Format.word kind) (Sha256.hex content) }
  keys : Set.InjOn Sha256.hex
    { key | ∃ s ∈ history, ∃ kind content, s.Reads kind content ∧ key = s.key kind content }

/-- All scans hold well-formed texts, and so survive being stored. -/
structure Textual (history : List Session) : Prop where
  listings : ∀ s ∈ history, ∀ content l, s.Reads .stackUsage content →
    Listing.parse content = .ok l → l.IsText
  dumps : ∀ s ∈ history, ∀ content d, s.Reads .callGraph content →
    Dump.parse content = .ok d → d.IsText

section Keys

theorem word_inj {kind kind' : Discovery.Kind} (same : Format.word kind = Format.word kind') :
    kind = kind' := by
  cases kind <;> cases kind' <;> first | rfl | exact absurd same (by decide)

theorem zero_not_mem_word (kind : Discovery.Kind) : 0 ∉ Format.word kind := by
  cases kind <;> decide

variable {history : List Session} {s s' : Session} {kind kind' : Discovery.Kind}
  {content content' : Bytes}

/-- Where hashes do not collide, the hash of a key tells the kind and the content. -/
theorem Apart.eq_of_key (apart : Apart history) (member : s ∈ history) (member' : s' ∈ history)
    (reads : s.Reads kind content) (reads' : s'.Reads kind' content')
    (same : Sha256.hex (s.key kind content) = Sha256.hex (s'.key kind' content')) :
    kind = kind' ∧ content = content' := by
  have keys := apart.keys ⟨s, member, kind, content, reads, rfl⟩
    ⟨s', member', kind', content', reads', rfl⟩ same
  have identities := apart.identities ⟨s, member, kind, content, reads, rfl⟩
    ⟨s', member', kind', content', reads', rfl⟩ (Cache.digest_of_scanKey keys)
  obtain ⟨words, hashes⟩ := Cache.identity_inj (zero_not_mem_word kind) (zero_not_mem_word kind') identities
  exact ⟨word_inj words, apart.contents ⟨s, member, kind, reads⟩ ⟨s', member', kind', reads'⟩ hashes⟩

end Keys

/-- Bytes that may be found under a key: for each content that is looked for there, nothing but what
the content holds is restored from them. -/
structure Right (history : List Session) (key data : Bytes) : Prop where
  listings : ∀ s ∈ history, ∀ content l, s.Reads .stackUsage content →
    key = s.key .stackUsage content → Format.stackUsage.restored? data = some l →
    Listing.parse content = .ok l
  dumps : ∀ s ∈ history, ∀ content d, s.Reads .callGraph content →
    key = s.key .callGraph content → Format.callGraph.restored? data = some d →
    Dump.parse content = .ok d

section Storing

variable {history : List Session} {s : Session} {content other : Bytes}

theorem right_listing (apart : Apart history) (textual : Textual history) (member : s ∈ history)
    (reads : s.Reads .stackUsage content) {l : Listing} (parsed : Listing.parse content = .ok l)
    (same : Sha256.hex other = Sha256.hex (s.key .stackUsage content)) :
    Right history other (Format.stackUsage.stored l) where
  listings s' member' content' l' reads' key restored := by
    subst key
    obtain ⟨-, rfl⟩ := apart.eq_of_key member' member reads' reads same
    rw [Format.keeps_listing_iff.mpr (textual.listings s member _ l reads parsed)] at restored
    rw [parsed, Option.some.inj restored]
  dumps s' member' content' d reads' key _ := by
    subst key
    exact absurd (apart.eq_of_key member' member reads' reads same).1 nofun

theorem right_dump (apart : Apart history) (textual : Textual history) (member : s ∈ history)
    (reads : s.Reads .callGraph content) {d : Dump} (parsed : Dump.parse content = .ok d)
    (same : Sha256.hex other = Sha256.hex (s.key .callGraph content)) :
    Right history other (Format.callGraph.stored d) where
  listings s' member' content' l reads' key _ := by
    subst key
    exact absurd (apart.eq_of_key member' member reads' reads same).1 nofun
  dumps s' member' content' d' reads' key restored := by
    subst key
    obtain ⟨-, rfl⟩ := apart.eq_of_key member' member reads' reads same
    rw [Format.keeps_dump_iff.mpr (textual.dumps s member _ d reads parsed)] at restored
    rw [parsed, Option.some.inj restored]

end Storing

section Runs

variable {history : List Session} {origin : Tree} {root : Path} {place : Place} {s : Session}

/-- A directory that holds nothing but right answers is honest about what a run reads. -/
theorem honest_directory (apart : Apart history) (textual : Textual history)
    (vacant : Cache.Directory.Vacant origin root place) (member : s ∈ history) :
    (∀ content, s.Reads .stackUsage content → (s.caching Cache.Directory.store).Honest
      (Cache.Directory.Holds (Right history) origin root place) .stackUsage content) ∧
    (∀ content, s.Reads .callGraph content → (s.caching Cache.Directory.store).Honest
      (Cache.Directory.Holds (Right history) origin root place) .callGraph content) := by
  constructor <;> intro content reads
  · exact {
      get := fun d holds => (holds.get vacant _).1
      hit := fun d data l holds hit restored =>
        ((holds.get vacant _).2 data hit).listings s member content l reads rfl restored
      set := fun d l holds parsed => holds.set vacant
        (fun _ same => right_listing apart textual member reads parsed same) _ }
  · exact {
      get := fun d holds => (holds.get vacant _).1
      hit := fun d data dump holds hit restored =>
        ((holds.get vacant _).2 data hit).dumps s member content dump reads rfl restored
      set := fun d dump holds parsed => holds.set vacant
        (fun _ same => right_dump apart textual member reads parsed same) _ }

theorem alone_eq (s : Session) : s.alone = direct s.tree s.canceled s.options :=
  (execute_eq (fun _ _ => honest_null) (fun _ _ => honest_null) trivial s.canceled).1

/-- The time of a run has no part in what the cache holds. -/
theorem holds_at {right : Bytes → Bytes → Prop} {d : Cache.Directory}
    (holds : Cache.Directory.Holds right origin root place d) (now : Instant) :
    Cache.Directory.Holds right origin root place { d with now := now } :=
  ⟨holds.root_eq, holds.grown, holds.solid, holds.entries⟩

theorem run_eq (apart : Apart history) (textual : Textual history)
    (vacant : Cache.Directory.Vacant origin root place) (member : s ∈ history)
    {d : Cache.Directory} (holds : Cache.Directory.Holds (Right history) origin root place d) :
    (s.run d).1 = s.alone ∧ Cache.Directory.Holds (Right history) origin root place (s.run d).2 := by
  obtain ⟨listings, dumps⟩ := honest_directory apart textual vacant member
  have started : Cache.Directory.Holds (Right history) origin root place
      (Trace.start { d with now := s.now }).cache := holds_at holds s.now
  rw [alone_eq]
  exact execute_eq listings dumps started s.canceled

/-- Runs that share a cache directory find what each of them finds without a cache. -/
theorem replay_eq_alone {d : Cache.Directory} (empty : d.IsEmpty) (apart : Apart history)
    (textual : Textual history) : replay d history = history.map alone := by
  obtain ⟨place, vacant⟩ := empty.vacant
  -- By induction over the runs still to come, for every cache that those before may leave.
  suffices later : ∀ (sessions : List Session) (d' : Cache.Directory), (∀ s ∈ sessions, s ∈ history) →
      Cache.Directory.Holds (Right history) d.tree d.root place d' →
      replay d' sessions = sessions.map alone from
    later history d (fun _ member => member) vacant.holds
  intro sessions
  induction sessions with
  | nil => exact fun _ _ _ => rfl
  | cons s rest ih =>
    intro d' members holds
    obtain ⟨member, others⟩ := List.forall_mem_cons.mp members
    obtain ⟨same, next⟩ := run_eq apart textual vacant member holds
    rw [replay, same, ih _ others next, List.map_cons]

end Runs

section Sample

def sampleContent : Bytes := utf8 "m.c:1:1:main\t8\tstatic\n"

def sampleTree : Tree := ⟨(∅ : Std.HashMap Place Node).insert [utf8 "a.su"] (.file sampleContent), []⟩

/-- A run that reads the file and finds no dumps. -/
def sample : Session where
  now := .zero
  scope := []
  lifetime := 0
  tree := sampleTree
  canceled := false
  options := { Options.blank with suDirs := [Path.dot], cgraphDirs := [utf8 "none"] }

def sampleCache : Cache.Directory := ⟨.bare [], Path.dot, .zero⟩

theorem find_dot (t : Tree) (follow : Bool) :
    t.find follow Path.dot = .ok (t.current, .directory) := by
  have walked : t.walk follow Tree.linkLimit t.current [Path.dot] = .ok t.current := by
    rw [Tree.walk_stay (Tree.node?_current t) (.inr rfl), Tree.walk_nil]
  have placed : t.place follow Path.dot = .ok t.current := walked
  simp [Tree.find, placed, Tree.node?_current, bind, Except.bind, pure, Except.pure]

theorem node?_sampleTree (place : Place) :
    sampleTree.node? place =
      if place = [] then some .directory
      else if place = [utf8 "a.su"] then some (.file sampleContent) else none := by
  cases place with
  | nil => rfl
  | cons name rest =>
    by_cases same : name :: rest = [utf8 "a.su"]
    · rw [same]
      simp [Tree.node?, sampleTree]
    · have other : ([utf8 "a.su"] == name :: rest) = false := by simpa using Ne.symm same
      simp [Tree.node?, sampleTree, same, other]

theorem place_sampleTree (name : Bytes) (enters : Tree.Enters name)
    (placed : sampleTree.place true name = sampleTree.walk true Tree.linkLimit [] [name]) :
    sampleTree.place true name = .ok [name] := by
  refine Tree.place_of_name placed enters fun target => ?_
  rw [node?_sampleTree, if_neg (by simp)]
  split <;> simp

theorem read_sampleTree : sampleTree.read (utf8 "a.su") = .ok sampleContent := by
  have placed := place_sampleTree (utf8 "a.su") ⟨by decide, by decide, by decide⟩ rfl
  simp [Tree.read, Tree.find, placed, node?_sampleTree, bind, Except.bind, pure, Except.pure]

theorem eq_of_read_sampleTree {path : Path} {content : Bytes}
    (read : sampleTree.read path = .ok content) : content = sampleContent := by
  obtain ⟨place, -, file⟩ := Tree.place_of_read read
  rw [node?_sampleTree] at file
  split at file
  · cases file
  · split at file <;> simp_all

theorem children_sampleTree : sampleTree.children [] = [(utf8 "a.su", .file sampleContent)] := by
  have listed : sampleTree.nodes.toList = [([utf8 "a.su"], .file sampleContent)] := by
    have perm := Std.HashMap.toList_insert_perm (m := (∅ : Std.HashMap Place Node))
      (k := [utf8 "a.su"]) (v := Node.file sampleContent)
    simp only [Std.HashMap.toList_empty, List.filter_nil] at perm
    exact List.perm_singleton.mp perm
  have entries : sampleTree.entries = [([utf8 "a.su"], .file sampleContent)] := by
    rw [Tree.entries, listed]
    rfl
  simp [Tree.children, Tree.below, entries]

theorem files_sampleTree :
    (Discovery.files sampleTree Discovery.isStackUsage [Path.dot]).1 = [utf8 "a.su"] := by
  have found := find_dot sampleTree
  have current : sampleTree.current = [] := rfl
  have stat : sampleTree.stat Path.dot = .ok ([], .directory) := by
    rw [Tree.stat, found true]
    rfl
  have searched : Discovery.root sampleTree Discovery.isStackUsage Path.dot = ([utf8 "a.su"], []) := by
    simp only [Discovery.root, Discovery.Access.stat, Discovery.Access.all, ↓reduceIte, stat,
      found false, current, children_sampleTree]
    decide
  simp [Discovery.files, Discovery.gather, searched, Name.distinct]

theorem files_sampleTree_missing :
    (Discovery.files sampleTree Discovery.isCallGraph [utf8 "none"]).1 = [] := by
  have placed := place_sampleTree (utf8 "none") ⟨by decide, by decide, by decide⟩ rfl
  have missing : sampleTree.find true (utf8 "none") = .error .missing := by
    simp [Tree.find, placed, node?_sampleTree, bind, Except.bind]
  have stat : sampleTree.stat (utf8 "none") = .error ⟨utf8 "stat", utf8 "none", .missing⟩ := by
    rw [Tree.stat, missing]
    rfl
  simp [Discovery.files, Discovery.gather, Discovery.root, Discovery.Access.stat,
    Discovery.Access.all, stat, Name.distinct]

theorem reads_sample : sample.Reads .stackUsage sampleContent := by
  have member : utf8 "a.su" ∈ (Discovery.files sampleTree Discovery.isStackUsage [Path.dot]).1 := by
    simp [files_sampleTree]
  exact ⟨utf8 "a.su", member, read_sampleTree⟩

theorem eq_of_reads_sample {kind : Discovery.Kind} {content : Bytes}
    (reads : sample.Reads kind content) : kind = .stackUsage ∧ content = sampleContent := by
  obtain ⟨path, member, read⟩ := reads
  refine ⟨?_, eq_of_read_sampleTree read⟩
  cases kind with
  | stackUsage => rfl
  | callGraph =>
    have listed : path ∈ (Discovery.files sampleTree Discovery.isCallGraph [utf8 "none"]).1 := member
    simp [files_sampleTree_missing] at listed

theorem isEmpty_sampleCache : sampleCache.IsEmpty := by
  refine ⟨[], find_dot _ true, ?_⟩
  rintro other ⟨rest, some, rfl⟩
  obtain ⟨name, more, rfl⟩ := List.exists_cons_of_ne_nil some
  simp [sampleCache, Tree.bare, Tree.node?]

theorem apart_sample : Apart [sample, sample] := by
  have unique {s : Session} {kind : Discovery.Kind} {content : Bytes} (member : s ∈ [sample, sample])
      (reads : s.Reads kind content) : s = sample ∧ kind = .stackUsage ∧ content = sampleContent := by
    obtain rfl : s = sample := by simpa using member
    exact ⟨rfl, eq_of_reads_sample reads⟩
  refine ⟨?_, ?_, ?_⟩
  · rintro a ⟨s, member, kind, reads⟩ b ⟨s', member', kind', reads'⟩ -
    rw [(unique member reads).2.2, (unique member' reads').2.2]
  all_goals
    rintro a ⟨s, member, kind, content, reads, rfl⟩ b ⟨s', member', kind', content', reads', rfl⟩ -
    obtain ⟨rfl, rfl, rfl⟩ := unique member reads
    obtain ⟨rfl, rfl, rfl⟩ := unique member' reads'
    rfl

theorem parse_sampleContent :
    Listing.parse sampleContent = .ok ⟨[⟨utf8 "main", 8⟩], []⟩ := by
  decide

theorem textual_sample : Textual [sample, sample] := by
  constructor
  · intro s member content l reads found
    obtain rfl : s = sample := by simpa using member
    rw [(eq_of_reads_sample reads).2, parse_sampleContent] at found
    cases found
    exact ⟨by simpa using Bytes.isUtf8_utf8 "main", by simp, by simp⟩
  · intro s member content d reads
    obtain rfl : s = sample := by simpa using member
    exact absurd (eq_of_reads_sample reads).1 nofun

/-- The second of two equal runs, which the cache answers, finds what the first found. -/
theorem replay_eq_alone_twice :
    sampleCache.IsEmpty ∧ Apart [sample, sample] ∧ Textual [sample, sample] ∧
      sample.Reads .stackUsage sampleContent ∧
      replay sampleCache [sample, sample] = [sample.alone, sample.alone] :=
  ⟨isEmpty_sampleCache, apart_sample, textual_sample, reads_sample,
    replay_eq_alone isEmpty_sampleCache apart_sample textual_sample⟩

end Sample

end Session
end StackBound.Run
