import StackBound.Proofs.Run.Evaluated
import StackBound.Proofs.Run.History
import StackBound.Proofs.StackUsage.Charge
import StackBound.Proofs.Text.SortedSet

/-! A cache that is of no use. Whether its requests fail, miss or bring back bytes from which nothing
can be restored, and whatever becomes of what it is given to keep, a run finds what it finds without
any cache, and counts each of its files as missed. A refreshing run does not ask, and so takes every
cache for such a one. -/
namespace StackBound.Run

open StackUsage (Table)

variable {σ α : Type}

/-- Nothing is ever restored from what the cache has for files of this format. -/
def Caching.Useless (c : Caching σ) (f : Format α) : Prop :=
  ∀ s content data, (c.store.get s (c.key f.kind content)).1 = .hit data → f.restored? data = none

/-- The cache with every request missing. -/
def Caching.blind (c : Caching σ) : Caching σ :=
  { c with store := { c.store with get := fun s _ => (.miss, s) } }

theorem Caching.useless_blind (c : Caching σ) (f : Format α) : c.blind.Useless f :=
  nofun

theorem Caching.Useless.honest {c : Caching σ} {f : Format α} (useless : c.Useless f)
    (content : Bytes) : c.Honest (fun _ => True) f content where
  get _ _ := trivial
  hit s data scan _ hit restored := by
    rw [useless s content data hit] at restored
    cases restored
  set _ _ _ _ := trivial

section Refreshing

variable {c : Caching σ} {f : Format α} {tree : Tree} {t : Trace σ}

theorem fetch_blind (path : Path) :
    fetch c.blind f tree true path t = fetch c f tree true path t := rfl

theorem fetchAll_blind (paths : List Path) (done : List (Path × α)) :
    fetchAll c.blind f tree true done paths t = fetchAll c f tree true done paths t := by
  induction paths generalizing t done with
  | nil => rfl
  | cons path rest ih => simp only [fetchAll, fetch_blind, ih]

theorem gather_blind (dirs : List Path) (size : Bool → List α → Nat) :
    gather c.blind f tree true dirs size t = gather c f tree true dirs size t := by
  simp only [gather, fetchAll_blind]

theorem stages_blind {o : Options} (refresh : o.refresh = true) (canceled : Bool) :
    stages c.blind tree canceled o t = stages c tree canceled o t := by
  simp only [stages, refresh, gather_blind]

/-- Checking options does not change whether the cache is asked. -/
theorem refresh_check (o : Options) : o.check.1.refresh = o.refresh := by
  unfold Options.check
  split
  · rfl
  split
  · rfl
  dsimp only
  split <;> rfl

/-- A refreshing run does not see what the cache has. -/
theorem execute_blind {o : Options} (refresh : o.refresh = true) (canceled : Bool) :
    execute c.blind tree canceled o t = execute c tree canceled o t := by
  have checked := refresh_check o
  unfold execute
  generalize o.check = found at *
  obtain ⟨o, fault⟩ := found
  cases fault with
  | some fault => rfl
  | none => exact stages_blind (checked.trans refresh) canceled

end Refreshing

section Counting

variable {c : Caching σ} {f : Format α} (tree : Tree) (t : Trace σ)

def Trace.tally (t : Trace σ) : Nat × Nat := (t.hits, t.misses)

theorem tally_lookUp (useless : c.Useless f) (refresh : Bool) (content : Bytes) :
    (lookUp c f refresh (c.key f.kind content) t).1 = none ∧
      (lookUp c f refresh (c.key f.kind content) t).2.tally = t.tally := by
  rw [lookUp]
  split
  · exact ⟨rfl, rfl⟩
  · have nothing := useless t.cache content
    generalize c.store.get t.cache (c.key f.kind content) = answered at *
    obtain ⟨answer, cache⟩ := answered
    cases answer with
    | failed fault => exact ⟨rfl, rfl⟩
    | miss => exact ⟨rfl, rfl⟩
    | hit data =>
      dsimp only
      rw [nothing data rfl]
      exact ⟨rfl, rfl⟩

theorem tally_keep (key : Bytes) (scan : α) : (keep c f key scan t).tally = t.tally := by
  rw [keep]
  generalize c.store.set t.cache key (f.stored scan) c.keeps = answered
  obtain ⟨fault, cache⟩ := answered
  cases fault <;> rfl

/-- A file that is read is one more that the cache did not have. -/
theorem tally_fetch (useless : c.Useless f) (refresh : Bool) (path : Path) (scan : α)
    (fetched : (fetch c f tree refresh path t).1 = .ok scan) :
    (fetch c f tree refresh path t).2.tally = (t.hits, t.misses + 1) := by
  rw [fetch] at fetched ⊢
  cases read : tree.read path with
  | error e =>
    rw [read] at fetched
    cases fetched
  | ok content =>
    obtain ⟨nothing, same⟩ := tally_lookUp t useless refresh content
    rw [Caching.key] at nothing same
    simp only [read] at fetched ⊢
    generalize lookUp c f refresh (Cache.scanKey c.scope (Format.word f.kind)
      (Sha256.hex content)) t = answered at *
    obtain ⟨answer, after⟩ := answered
    obtain rfl : answer = none := nothing
    obtain ⟨hits, misses⟩ := Prod.mk.inj same
    simp only [Run.scan] at fetched ⊢
    cases parsed : f.parse content with
    | error fault =>
      rw [parsed] at fetched
      cases fetched
    | ok scan =>
      dsimp only
      rw [tally_keep, ← hits, ← misses]
      rfl

theorem tally_fetchAll (useless : c.Useless f) (refresh : Bool) (paths : List Path)
    (done : List (Path × α)) (whole : (fetchAll c f tree refresh done paths t).1.fault = none) :
    (fetchAll c f tree refresh done paths t).2.tally = (t.hits, t.misses + paths.length) := by
  induction paths generalizing t done with
  | nil => rfl
  | cons path rest ih =>
    have first := tally_fetch tree t useless refresh path
    rw [fetchAll] at whole ⊢
    generalize fetch c f tree refresh path t = fetched at *
    obtain ⟨result, after⟩ := fetched
    cases result with
    | error fault => cases whole
    | ok scan =>
      obtain ⟨hits, misses⟩ := Prod.mk.inj (first scan rfl)
      have later := ih after _ whole
      rw [hits, misses] at later
      rw [List.length_cons, Nat.add_comm rest.length, ← Nat.add_assoc]
      exact later

theorem tally_gather (useless : c.Useless f) (refresh : Bool) (dirs : List Path)
    (size : Bool → List α → Nat) (found : Inputs α)
    (gathered : (gather c f tree refresh dirs size t).1 = .ok found) :
    (gather c f tree refresh dirs size t).2.tally =
      (t.hits, t.misses + (Discovery.files tree f.kind.accepts dirs).1.length) := by
  simp only [gather] at gathered ⊢
  have counted := tally_fetchAll tree (t.add (.parseStarted (Format.word f.kind)
      (count (Discovery.files tree f.kind.accepts dirs).1.length)))
    useless refresh (Discovery.files tree f.kind.accepts dirs).1 []
  generalize fetchAll c f tree refresh [] (Discovery.files tree f.kind.accepts dirs).1 _ = fetched at *
  obtain ⟨⟨scans, fault⟩, after⟩ := fetched
  cases fault with
  | some fault => cases gathered
  | none => exact counted rfl

theorem tally_evaluate (canceled : Bool) (a : Analysis) :
    (evaluate canceled a t).2.tally = t.tally := by
  obtain ⟨-, events, same⟩ := evaluate_eq canceled a t
  rw [same]
  rfl

def filesOf (tree : Tree) (o : Options) (kind : Discovery.Kind) : List Path :=
  (Discovery.files tree kind.accepts (Reads.dirs o kind)).1

theorem tally_stages {o : Options} (listings : c.Useless .stackUsage) (dumps : c.Useless .callGraph)
    {canceled : Bool} {a : Analysis} (done : (stages c tree canceled o t).1 = .ok a) :
    (stages c tree canceled o t).2.tally = (t.hits, t.misses +
      (filesOf tree o .stackUsage).length + (filesOf tree o .callGraph).length) := by
  obtain ⟨found, ignored, others, between, last, assembled, first, second, -, same⟩ :=
    stages_eq_of_ok done
  have before := tally_gather tree t listings o.refresh o.suDirs recordCount found
  have after := tally_gather tree between dumps o.refresh o.cgraphDirs (edgeCount ignored.1) others
  rw [first] at before
  rw [second] at after
  obtain ⟨hits, misses⟩ := Prod.mk.inj (before rfl)
  rw [same, tally_evaluate, after rfl, hits, misses]
  rfl

theorem tally_execute {o : Options} (listings : c.Useless .stackUsage) (dumps : c.Useless .callGraph)
    {canceled : Bool} {a : Analysis} (done : (execute c tree canceled o t).1 = .ok a) :
    (execute c tree canceled o t).2.tally = (t.hits, t.misses +
      (filesOf tree o.check.1 .stackUsage).length + (filesOf tree o.check.1 .callGraph).length) := by
  have same := execute_eq_of_ok done
  rw [same] at done ⊢
  exact tally_stages tree t listings dumps done

end Counting

/-- A cache of no use changes no run, and neither does any cache if the run refreshes: the result is
that of a run without a cache, be it an analysis or a fault. If it is an analysis, the cache had
nothing and missed every file read, of both kinds. -/
theorem execute_eq_uncached (c : Caching σ) (tree : Tree) (canceled : Bool) (o : Options)
    (cache : σ) (useless : o.refresh = true ∨ c.Useless .stackUsage ∧ c.Useless .callGraph) :
    let ran := execute c tree canceled o (.start cache)
    ran.1 = (execute ⟨.null, c.scope, c.lifetime⟩ tree canceled o (.start ())).1 ∧
      ∀ a, ran.1 = .ok a → ran.2.hits = 0 ∧
        ran.2.misses = (filesOf tree o.check.1 .stackUsage).length +
          (filesOf tree o.check.1 .callGraph).length := by
  have uncached : (execute ⟨.null, c.scope, c.lifetime⟩ tree canceled o (.start ())).1 =
      direct tree canceled o :=
    (execute_eq (fun _ _ => honest_null) (fun _ _ => honest_null) trivial canceled).1
  intro ran
  rw [uncached]
  suffices holds : ∀ c : Caching σ, c.Useless .stackUsage → c.Useless .callGraph →
      (execute c tree canceled o (.start cache)).1 = direct tree canceled o ∧
        ∀ a, (execute c tree canceled o (.start cache)).1 = .ok a →
          (execute c tree canceled o (.start cache)).2.hits = 0 ∧
          (execute c tree canceled o (.start cache)).2.misses =
            (filesOf tree o.check.1 .stackUsage).length +
              (filesOf tree o.check.1 .callGraph).length by
    rcases useless with refresh | ⟨listings, dumps⟩
    · have unasked : ran = execute c.blind tree canceled o (.start cache) :=
        (execute_blind refresh canceled).symm
      rw [unasked]
      exact holds c.blind (c.useless_blind _) (c.useless_blind _)
    · exact holds c listings dumps
  intro c listings dumps
  refine ⟨(execute_eq (fun content _ => listings.honest content)
    (fun content _ => dumps.honest content) trivial canceled).1, fun a done => ?_⟩
  obtain ⟨hits, misses⟩ := Prod.mk.inj (tally_execute tree _ listings dumps done)
  refine ⟨hits, misses.trans ?_⟩
  rw [Trace.start, Nat.zero_add]

section Sample

namespace Session

theorem inputs_listings_sample : ∃ warnings, inputs .stackUsage sampleTree [Path.dot] =
    .ok ⟨[(utf8 "a.su", ⟨[⟨utf8 "main", 8⟩], []⟩)], warnings⟩ := by
  have files : (Discovery.files sampleTree Format.stackUsage.kind.accepts [Path.dot]).1 =
      [utf8 "a.su"] := files_sampleTree
  have parsed : Format.stackUsage.parse sampleContent = .ok ⟨[⟨utf8 "main", 8⟩], []⟩ :=
    parse_sampleContent
  refine ⟨(Discovery.files sampleTree Discovery.isStackUsage [Path.dot]).2, ?_⟩
  simp only [inputs, files, readings, reading, read_sampleTree, parsed]
  rfl

theorem inputs_dumps_sample :
    ∃ warnings, inputs .callGraph sampleTree [utf8 "none"] = .ok ⟨[], warnings⟩ := by
  have files : (Discovery.files sampleTree Format.callGraph.kind.accepts [utf8 "none"]).1 = [] :=
    files_sampleTree_missing
  refine ⟨(Discovery.files sampleTree Discovery.isCallGraph [utf8 "none"]).2, ?_⟩
  simp only [inputs, files, readings]
  rfl

theorem size_sample : (tableOf [(utf8 "a.su", ⟨[⟨utf8 "main", 8⟩], []⟩)]).size = 1 := by
  have accepted : ¬(utf8 "main" = [] ∨ (8 : Int64) < 0) := by decide
  have single : tableOf [(utf8 "a.su", ⟨[⟨utf8 "main", 8⟩], []⟩)] =
    (Table.empty.add (utf8 "main") 8).1 := rfl
  rw [single, Table.add, dif_neg accepted]
  simp only [Table.size, Table.raises, Table.empty, Std.HashMap.getElem?_empty, ↓reduceIte]
  rw [Std.HashMap.size_insert]
  simp

theorem entries_sample : Bytes.sortedSet (Name.normalizeAll [utf8 "main"] ++ []) = [utf8 "main"] := by
  have trimmed : Name.normalize (utf8 "main").trim = utf8 "main" := by decide
  have named : Name.normalizeAll [utf8 "main"] = [utf8 "main"] := by
    simp [Name.normalizeAll, Name.distinct, trimmed, show utf8 "main" ≠ [] by decide]
  rw [named]
  decide +kernel

structure SampleFound (a : Analysis) : Prop where
  table : a.table = (Table.empty.add (utf8 "main") 8).1
  graph : a.graph = .ofEdges []
  scenarios : a.scenarios = [.base]
  entryPoints : a.entryPoints = [utf8 "main"]

theorem SampleFound.frameSize {a : Analysis} (found : SampleFound a) :
    a.table.frameSize (utf8 "main") = 8 := by
  have single : a.table = Table.empty.merge [⟨utf8 "main", 8⟩] := found.table
  rw [single]
  exact Table.frameSize_merge_of_unique (by simp) (by decide) (by decide) (by simp)

/-- The run ends with an analysis: there is a record, and there is an entry. -/
theorem direct_sample_found :
    ∃ a, direct sampleTree false sample.options = .ok a ∧ SampleFound a := by
  obtain ⟨warnings, listings⟩ := inputs_listings_sample
  obtain ⟨warnings', dumps⟩ := inputs_dumps_sample
  obtain ⟨a, made, found⟩ : ∃ a, assemble sampleTree sample.options.withDirs.withEntries
      ⟨[(utf8 "a.su", ⟨[⟨utf8 "main", 8⟩], []⟩)], warnings⟩ (fun _ => false, []) ⟨[], warnings'⟩ =
        .ok a ∧ SampleFound a := by
    have loaded : Scenario.load sampleTree sample.options.withDirs.withEntries.addCallFiles =
      .ok ([.base], []) := rfl
    have handlers : handlers sampleTree sample.options.withDirs.withEntries = ([], []) := rfl
    have entries : sample.options.withDirs.withEntries.entryPoints.getD [] =
      Name.normalizeAll [utf8 "main"] := rfl
    have some : [utf8 "main"] ≠ [] := List.cons_ne_nil _ _
    simp only [assemble, resolveEntries, loaded, handlers, entries, entries_sample, some, bind,
      Except.bind, ↓reduceIte]
    exact ⟨_, rfl, rfl, rfl, rfl, rfl⟩
  have ends : direct sampleTree false sample.options = evaluated false a := by
    have checked : sample.options.check = (sample.options.withDirs.withEntries, none) := rfl
    have suDirs : sample.options.withDirs.withEntries.suDirs = [Path.dot] := rfl
    have cgraphDirs : sample.options.withDirs.withEntries.cgraphDirs = [utf8 "none"] := rfl
    have ignored : ignoredCalls sampleTree sample.options.withDirs.withEntries.ignoreFile =
      .ok (fun _ => false, []) := rfl
    simp only [direct, checked, directly, suDirs, cgraphDirs, listings, dumps, ignored, made,
      size_sample, bind, Except.bind, Nat.one_ne_zero, ↓reduceIte]
  exact ⟨_, ends, found.table, found.graph, found.scenarios, found.entryPoints⟩

theorem direct_sample : ∃ a, direct sampleTree false sample.options = .ok a := by
  obtain ⟨a, ends, -⟩ := direct_sample_found
  exact ⟨a, ends⟩

end Session

/-- A cache that fails, misses and finds something without meaning by turns, and keeps nothing. -/
def moody : Caching Nat where
  store :=
    { get := fun n _ => (if n % 3 = 0 then .failed .canceled else
        if n % 3 = 1 then .miss else .hit (utf8 "null"), n + 1)
      set := fun n _ _ _ => (some .canceled, n + 1)
      close := none }
  scope := []
  lifetime := 0

theorem useless_moody : moody.Useless .stackUsage ∧ moody.Useless .callGraph := by
  have answer {s : Nat} {key data : Bytes} (hit : (moody.store.get s key).1 = .hit data) :
      data = utf8 "null" := by
    simp only [moody] at hit
    split at hit
    · cases hit
    · split at hit
      · cases hit
      · exact (Cache.Answer.hit.inj hit).symm
  constructor <;> intro s content data hit <;> rw [answer hit] <;> rfl

/-- The cache answers with a text that says null, and refuses to keep the scan of the file. -/
theorem execute_eq_uncached_moody :
    moody.Useless .stackUsage ∧ moody.Useless .callGraph ∧
      ∃ a, (execute moody Session.sampleTree false Session.sample.options (.start 2)).1 = .ok a ∧
        (execute ⟨.null, [], 0⟩ Session.sampleTree false Session.sample.options
          (.start ())).1 = .ok a ∧
        (execute moody Session.sampleTree false Session.sample.options (.start 2)).2.misses = 1 := by
  obtain ⟨listings, dumps⟩ := useless_moody
  obtain ⟨same, counted⟩ := execute_eq_uncached moody Session.sampleTree false
    Session.sample.options 2 (.inr ⟨listings, dumps⟩)
  obtain ⟨a, found⟩ := Session.direct_sample
  have alone : (execute ⟨.null, [], 0⟩ Session.sampleTree false Session.sample.options
      (.start ())).1 = .ok a := (Session.alone_eq Session.sample).trans found
  have files : (filesOf Session.sampleTree Session.sample.options.check.1 .stackUsage).length +
      (filesOf Session.sampleTree Session.sample.options.check.1 .callGraph).length = 1 := by
    have listed : filesOf Session.sampleTree Session.sample.options.check.1 .stackUsage =
      [utf8 "a.su"] := Session.files_sampleTree
    have missing : filesOf Session.sampleTree Session.sample.options.check.1 .callGraph = [] :=
      Session.files_sampleTree_missing
    rw [listed, missing]
    rfl
  refine ⟨listings, dumps, a, same.trans alone, alone, ?_⟩
  exact (counted a (same.trans alone)).2.trans files

end Sample

end StackBound.Run
