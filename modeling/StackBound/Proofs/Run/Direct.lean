import StackBound.Run.Analysis

/-! What a run finds by itself. A run that reads every file anew is given by its inputs alone; a run
with a cache finds the same as long as the cache answers with nothing but what the files hold. -/
namespace StackBound.Run

open CallGraph (Dump)
open StackUsage (Listing)

section Spec

def reading (f : Format α) (tree : Tree) (path : Path) : Except Fault α :=
  match tree.read path with
  | .error e => .error (.during (utf8 "read " ++ path) e.fault)
  | .ok content => (f.parse content).mapError (.during (utf8 "parse " ++ path))

def readings (f : Format α) (tree : Tree) (done : List (Path × α)) : List Path → Fetched α
  | [] => ⟨done.reverse, none⟩
  | path :: rest =>
    match reading f tree path with
    | .error fault => ⟨done.reverse, some fault⟩
    | .ok scan => readings f tree ((path, scan) :: done) rest

def inputs (f : Format α) (tree : Tree) (dirs : List Path) : Except Fault (Inputs α) :=
  let (paths, warnings) := Discovery.files tree f.kind.accepts dirs
  let read := readings f tree [] paths
  match read.fault with
  | some fault => .error fault
  | none => .ok ⟨read.scans, warnings⟩

def evaluated (canceled : Bool) (a : Analysis) : Except Fault Analysis :=
  match Evaluation.run canceled a.graph a.table.frameSize a.scenarios a.entryPoints with
  | .error fault => .error (.during (utf8 "analyze") fault)
  | .ok evaluation => .ok { a with evaluation := evaluation }

/-- All stages of a run with complete options. -/
def directly (tree : Tree) (canceled : Bool) (o : Options) : Except Fault Analysis := do
  let listings ← inputs .stackUsage tree o.suDirs
  if (tableOf listings.scans).size = 0 then throw (noStackUsage o.suDirs)
  let ignored ← ignoredCalls tree o.ignoreFile
  let dumps ← inputs .callGraph tree o.cgraphDirs
  let analysis ← assemble tree o listings ignored dumps
  evaluated canceled analysis

/-- What a run finds when nothing is kept from any other run. -/
def direct (tree : Tree) (canceled : Bool) (o : Options) : Except Fault Analysis :=
  match o.check with
  | (_, some fault) => .error fault
  | (o, none) => directly tree canceled o

end Spec

section Honesty

variable {σ α : Type}

def Caching.key (c : Caching σ) (kind : Discovery.Kind) (content : Bytes) : Bytes :=
  Cache.scanKey c.scope (Format.word kind) (Sha256.hex content)

/-- As long as the state satisfies an invariant, whatever the cache has for a content is what the
content holds; and the invariant outlasts what a run asks of the cache. -/
structure Caching.Honest (c : Caching σ) (inv : σ → Prop) (f : Format α) (content : Bytes) : Prop where
  get : ∀ s, inv s → inv (c.store.get s (c.key f.kind content)).2
  hit : ∀ s data scan, inv s → (c.store.get s (c.key f.kind content)).1 = .hit data →
    f.restored? data = some scan → f.parse content = .ok scan
  set : ∀ s scan, inv s → f.parse content = .ok scan →
    inv (c.store.set s (c.key f.kind content) (f.stored scan) c.keeps).2

variable {c : Caching σ} {inv : σ → Prop} {f : Format α} {content : Bytes} {t : Trace σ}

theorem Caching.Honest.lookUp (honest : c.Honest inv f content) (kept : inv t.cache) (refresh : Bool) :
    inv (lookUp c f refresh (c.key f.kind content) t).2.cache ∧
      ∀ scan, (lookUp c f refresh (c.key f.kind content) t).1 = some scan → f.parse content = .ok scan := by
  rw [Run.lookUp]
  split
  · exact ⟨kept, nofun⟩
  · have next := honest.get t.cache kept
    have hit := honest.hit t.cache
    generalize c.store.get t.cache (c.key f.kind content) = answered at *
    obtain ⟨answer, cache⟩ := answered
    cases answer with
    | failed fault => exact ⟨next, nofun⟩
    | miss => exact ⟨next, nofun⟩
    | hit data =>
      cases restored : f.restored? data with
      | none => simpa [restored] using next
      | some scan =>
        have found := hit data scan kept rfl restored
        simp only [restored]
        refine ⟨next, fun other same => ?_⟩
        cases same
        exact found

theorem Caching.Honest.keep (honest : c.Honest inv f content) (kept : inv t.cache) {scan : α}
    (parsed : f.parse content = .ok scan) :
    inv (keep c f (c.key f.kind content) scan t).cache := by
  have next := honest.set t.cache scan kept parsed
  rw [Run.keep]
  generalize c.store.set t.cache (c.key f.kind content) (f.stored scan) c.keeps = answered at *
  obtain ⟨fault, cache⟩ := answered
  cases fault <;> exact next

variable {tree : Tree}

/-- One file is found to hold what it holds. -/
theorem fetch_eq {path : Path} (honest : ∀ content, tree.read path = .ok content → c.Honest inv f content)
    (kept : inv t.cache) (refresh : Bool) :
    (fetch c f tree refresh path t).1 = reading f tree path ∧
      inv (fetch c f tree refresh path t).2.cache := by
  rw [fetch, reading]
  cases read : tree.read path with
  | error e => exact ⟨rfl, kept⟩
  | ok content =>
    have good := honest content read
    obtain ⟨next, found⟩ := good.lookUp kept refresh
    rw [Caching.key] at next found
    simp only
    generalize Run.lookUp c f refresh (Cache.scanKey c.scope (Format.word f.kind)
      (Sha256.hex content)) t = answered at *
    obtain ⟨answer, after⟩ := answered
    -- What the cache has is what the content holds; what it does not have is looked for there.
    cases answer with
    | some scan =>
      rw [found scan rfl]
      exact ⟨rfl, next⟩
    | none =>
      simp only [scan]
      cases parsed : f.parse content with
      | error fault => exact ⟨rfl, next⟩
      | ok scan => exact ⟨rfl, good.keep (t := { after.add _ with misses := _ }) next parsed⟩

theorem fetchAll_eq {paths : List Path}
    (honest : ∀ path ∈ paths, ∀ content, tree.read path = .ok content → c.Honest inv f content)
    (kept : inv t.cache) (refresh : Bool) (done : List (Path × α)) :
    (fetchAll c f tree refresh done paths t).1 = readings f tree done paths ∧
      inv (fetchAll c f tree refresh done paths t).2.cache := by
  induction paths generalizing t done with
  | nil => exact ⟨rfl, kept⟩
  | cons path rest ih =>
    obtain ⟨first, later⟩ := List.forall_mem_cons.mp honest
    obtain ⟨same, next⟩ := fetch_eq first kept refresh
    rw [fetchAll, readings, ← same]
    generalize fetch c f tree refresh path t = fetched at *
    obtain ⟨result, after⟩ := fetched
    cases result with
    | error fault => exact ⟨rfl, next⟩
    | ok scan => exact ih later next ((path, scan) :: done)

theorem gather_eq (size : Bool → List α → Nat) {dirs : List Path}
    (honest : ∀ path ∈ (Discovery.files tree f.kind.accepts dirs).1, ∀ content,
      tree.read path = .ok content → c.Honest inv f content)
    (kept : inv t.cache) (refresh : Bool) :
    (gather c f tree refresh dirs size t).1 = inputs f tree dirs ∧
      inv (gather c f tree refresh dirs size t).2.cache := by
  obtain ⟨same, next⟩ := fetchAll_eq (t := t.add (.parseStarted (Format.word f.kind)
    (count (Discovery.files tree f.kind.accepts dirs).1.length))) honest kept refresh []
  simp only [gather, inputs, ← same]
  generalize fetchAll c f tree refresh [] (Discovery.files tree f.kind.accepts dirs).1 _ = fetched at *
  obtain ⟨⟨scans, fault⟩, after⟩ := fetched
  cases fault <;> exact ⟨rfl, next⟩

/-- Evaluating adds events to a trace and changes nothing else of it. -/
theorem evaluate_eq (canceled : Bool) (a : Analysis) (t : Trace σ) :
    (evaluate canceled a t).1 = evaluated canceled a ∧
      ∃ events, (evaluate canceled a t).2 = { t with events := events } := by
  have told (outcomes : List Outcome) (t : Trace σ) :
      ∃ events, outcomes.foldl (fun t o => t.add o.event) t = { t with events := events } := by
    induction outcomes generalizing t with
    | nil => exact ⟨t.events, rfl⟩
    | cons o rest ih => exact ih (t.add o.event)
  rw [evaluate, evaluated]
  cases Evaluation.run canceled a.graph a.table.frameSize a.scenarios a.entryPoints with
  | error fault => exact ⟨rfl, _, rfl⟩
  | ok evaluation =>
    obtain ⟨events, same⟩ := told evaluation.outcomes
      (t.add (.analysisStarted (count a.scenarios.length) (count a.entryPoints.length)))
    exact ⟨rfl, _, congrArg (·.add (.analysisFinished 0 none)) same⟩

theorem stages_eq {o : Options}
    (listings : ∀ path ∈ (Discovery.files tree Discovery.Kind.stackUsage.accepts o.suDirs).1,
      ∀ content, tree.read path = .ok content → c.Honest inv .stackUsage content)
    (dumps : ∀ path ∈ (Discovery.files tree Discovery.Kind.callGraph.accepts o.cgraphDirs).1,
      ∀ content, tree.read path = .ok content → c.Honest inv .callGraph content)
    (kept : inv t.cache) (canceled : Bool) :
    (stages c tree canceled o t).1 = directly tree canceled o ∧
      inv (stages c tree canceled o t).2.cache := by
  obtain ⟨same, next⟩ := gather_eq (f := .stackUsage) recordCount listings kept o.refresh
  unfold stages directly
  rw [← same]
  generalize gather c .stackUsage tree o.refresh o.suDirs recordCount t = gathered at *
  obtain ⟨read, t⟩ := gathered
  cases read with
  | error fault => exact ⟨rfl, next⟩
  | ok found =>
    by_cases absent : (tableOf found.scans).size = 0
    · simp [absent, next, bind, Except.bind, throw, throwThe, MonadExceptOf.throw]
    cases ignoredCalls tree o.ignoreFile with
    | error fault => simp [absent, next, bind, Except.bind]
    | ok ignored =>
      obtain ⟨same, last⟩ := gather_eq (f := .callGraph) (edgeCount ignored.1) dumps next o.refresh
      simp only [absent, bind, Except.bind, ↓reduceIte, ← same]
      generalize gather c .callGraph tree o.refresh o.cgraphDirs (edgeCount ignored.1) t = gathered at *
      obtain ⟨read, t⟩ := gathered
      cases read with
      | error fault => exact ⟨rfl, last⟩
      | ok others =>
        simp only
        cases assemble tree o found ignored others with
        | error fault => exact ⟨rfl, last⟩
        | ok analysis =>
          obtain ⟨result, events, same⟩ := evaluate_eq canceled analysis t
          refine ⟨result, ?_⟩
          rw [same]
          exact last

def Reads (tree : Tree) (o : Options) (kind : Discovery.Kind) (content : Bytes) : Prop :=
  ∃ path ∈ (Discovery.files tree kind.accepts (dirs o.check.1 kind)).1, tree.read path = .ok content
where
  dirs (o : Options) : Discovery.Kind → List Path
    | .stackUsage => o.suDirs
    | .callGraph => o.cgraphDirs

/-- With a cache that is honest about all that a run reads, the run finds what it finds by itself. -/
theorem execute_eq {o : Options}
    (listings : ∀ content, Reads tree o .stackUsage content → c.Honest inv .stackUsage content)
    (dumps : ∀ content, Reads tree o .callGraph content → c.Honest inv .callGraph content)
    (kept : inv t.cache) (canceled : Bool) :
    (execute c tree canceled o t).1 = direct tree canceled o ∧
      inv (execute c tree canceled o t).2.cache := by
  rw [execute, direct]
  unfold Reads at listings dumps
  generalize o.check = checked at *
  obtain ⟨o, fault⟩ := checked
  cases fault with
  | some fault => exact ⟨rfl, kept⟩
  | none =>
    exact stages_eq (fun path member content read => listings content ⟨path, member, read⟩)
      (fun path member content read => dumps content ⟨path, member, read⟩) kept canceled

theorem honest_null {scope : Bytes} {lifetime : Duration} :
    Caching.Honest ⟨.null, scope, lifetime⟩ (fun _ : σ => True) f content where
  get _ _ := trivial
  hit _ _ _ _ hit := by cases hit
  set _ _ _ _ := trivial

end Honesty

end StackBound.Run
