import StackBound.Proofs.Cache.Contents

/-! A cache directory is a map whose entries expire. What a key is answered with depends on the last
bytes stored under it and on the time; nothing that is done under other keys matters. -/
namespace StackBound.Cache.Directory

/-- A cache directory that is there and has nothing in it. Its path names the directory itself, and
so does the shortest spelling of the path. -/
def IsFresh (d : Directory) : Prop :=
  ∃ place, d.tree.find false d.root = .ok (place, .directory) ∧
    d.tree.find true d.root.clean = .ok (place, .directory) ∧
    ∀ other, Tree.Inside place other → d.tree.node? other = none

theorem ready_of_find {d : Directory} {place : Place}
    (found : d.tree.find true d.root.clean = .ok (place, .directory))
    (vacant : ∀ other, Tree.Inside place other → d.tree.node? other = none) :
    Ready d.tree d.root place := by
  have placed := Tree.place_of_find found
  have walked := Tree.walk_of_place (Path.resolved_parts d.root) placed.1
  exact ⟨⟨Tree.leads_of_walk walked, vacant⟩, placed.2⟩

theorem IsFresh.ready {d : Directory} (fresh : d.IsFresh) :
    ∃ place, d.tree.find false d.root = .ok (place, .directory) ∧ Ready d.tree d.root place := by
  obtain ⟨place, itself, found, vacant⟩ := fresh
  exact ⟨place, itself, ready_of_find found vacant⟩

section Here

variable {t : Tree} {key : Bytes}

theorem shelf_pair (key : Bytes) :
    ∃ a b, shelf key = [a, b] ∧ Bytes.IsHexDigit a ∧ Bytes.IsHexDigit b := by
  have long := Sha256.length_hex key
  have digit {b : UInt8} (inside : b ∈ Sha256.hex key) := Sha256.isHexDigit_of_mem_hex inside
  rw [shelf]
  obtain ⟨a, b, rest, whole⟩ : ∃ a b rest, Sha256.hex key = a :: b :: rest := by
    cases whole : Sha256.hex key with
    | nil => simp [whole] at long
    | cons a more =>
      cases more with
      | nil => simp [whole] at long
      | cons b rest => exact ⟨a, b, rest, rfl⟩
  exact ⟨a, b, by rw [whole]; rfl, digit (by simp [whole]), digit (by simp [whole])⟩

theorem ne_zero_of_isHexDigit {b : UInt8} (digit : Bytes.IsHexDigit b) : b ≠ 0 := by
  rintro rfl
  simp [Bytes.IsHexDigit] at digit

theorem ne_slash_of_isHexDigit {b : UInt8} (digit : Bytes.IsHexDigit b) : b ≠ Path.slash := by
  rintro rfl
  simp [Bytes.IsHexDigit, Path.slash] at digit

theorem place_shelf (here : t.current = []) (key : Bytes)
    (solid : ∀ target, t.node? [shelf key] ≠ some (.link target)) (follow : Bool) :
    t.place follow (shelf key) = .ok [shelf key] := by
  obtain ⟨a, b, pair, digit, digit'⟩ := shelf_pair key
  have usable : Tree.Usable (shelf key) := by
    refine ⟨?_, by simp [pair], by simp [pair, Tree.longestPath]⟩
    simp [pair, (ne_zero_of_isHexDigit digit).symm, (ne_zero_of_isHexDigit digit').symm]
  have whole : (shelf key).split Path.slash = [shelf key] :=
    Bytes.split_of_not_mem (isName_slot key _ (by simp [slot])).free
  have start : Tree.start t.current (shelf key) = [] := by
    rw [Tree.start, here, ite_self]
  rw [Tree.place_of_usable usable, start, whole, Tree.walk_enter (Tree.node?_root t)
    (enters_slot key _ (by simp [slot])) solid, Tree.walk_nil]
  rfl

theorem usable_here (key : Bytes) : Tree.Usable (pathOf (utf8 ".") key) := by
  have whole : pathOf (utf8 ".") key = shelf key ++ Path.slash :: leaf key := by
    rw [pathOf_eq, show Path.isRooted (utf8 ".") = false from rfl,
      show Path.parts (utf8 ".") = [] from rfl]
    simp [Path.spelled, Bytes.join, List.intercalate, slot]
  have digits {b : UInt8} (member : b ∈ Sha256.hex key) : b ≠ 0 :=
    ne_zero_of_isHexDigit (Sha256.isHexDigit_of_mem_hex member)
  have ending : (utf8 ".json").length = 5 ∧ 0 ∉ utf8 ".json" := by decide
  rw [whole]
  refine ⟨?_, by simp, by simp [shelf, leaf, ending, Tree.longestPath]⟩
  rw [Bool.eq_false_iff, Ne, List.contains_iff_mem]
  intro member
  simp only [List.mem_append, List.mem_cons, shelf, leaf] at member
  rcases member with first | slash | later | last
  · exact digits (List.mem_of_mem_take first) rfl
  · simp [Path.slash] at slash
  · exact digits (List.mem_of_mem_drop later) rfl
  · exact ending.2 last

/-- In the working directory, the directory of an entry is made in one step. -/
theorem makeDirectories_shelf (here : t.current = []) (vacant : t.node? [shelf key] = none) :
    t.makeDirectories (shelf key) = .ok (t.put [shelf key] .directory) := by
  obtain ⟨a, b, pair, digit, digit'⟩ := shelf_pair key
  have placed := place_shelf here key (by simp [vacant])
  have first : Tree.beginnings (shelf key) = [shelf key] := by
    simp [pair, Tree.beginnings, ne_slash_of_isHexDigit digit]
  have whole : Tree.withoutEnd (shelf key) = shelf key := by
    simp [pair, Tree.withoutEnd, ne_slash_of_isHexDigit digit']
  have missing (follow : Bool) : t.find follow (shelf key) = .error .missing := by
    simp only [Tree.find, placed, bind, Except.bind, vacant]
  have made : t.makeDirectory (shelf key) = .ok (t.put [shelf key] .directory) := by
    rw [Tree.makeDirectory, whole, placed]
    simp [vacant]
  simp [Tree.makeDirectories, first, missing, made]

theorem set_succeeds {d : Directory} {data content : Bytes} {lifetime : Duration} {dir : Place}
    (written : Entry.text? (Stored.entry ⟨data, d.now, lifetime⟩) = some content)
    (made : d.tree.makeDirectories (pathOf d.root key).dir = .ok t)
    (placed : t.place true (pathOf d.root key).dir = .ok dir)
    (free : t.node? (dir ++ [leaf key]) = none) : (d.set key data lifetime).1 = none := by
  rw [set_eq]
  simp [written, made, replaceFile, placed, base_pathOf, free]

/-- The first entry of an empty working directory can be stored. -/
theorem set_here (here : t.current = []) (vacant : ∀ other ≠ [], t.node? other = none) {data : Bytes}
    {now : Instant} {lifetime : Duration}
    (written : (Entry.text? (Stored.entry ⟨data, now, lifetime⟩)).isSome = true) :
    (set ⟨t, utf8 ".", now⟩ key data lifetime).1 = none := by
  obtain ⟨content, written⟩ := Option.isSome_iff_exists.mp written
  have dir : (pathOf (utf8 ".") key).dir = shelf key := by
    have nonempty : shelf key ≠ [] := (isName_slot key _ (by simp [slot])).nonempty
    rw [dir_pathOf, show Path.isRooted (utf8 ".") = false from rfl,
      show Path.parts (utf8 ".") = [] from rfl]
    simp [Path.spelled, Bytes.join, List.intercalate, nonempty]
  have still : (t.put [shelf key] .directory).current = [] := by
    rw [(Tree.grown_put t _ _).current, here]
  have there : (t.put [shelf key] .directory).node? [shelf key] = some .directory :=
    Tree.node?_put_of_free (by simp [here])
  have made := makeDirectories_shelf here (vacant [shelf key] (by simp))
  have placed : (t.put [shelf key] .directory).place true (shelf key) = .ok [shelf key] :=
    place_shelf still key (by simp [there]) true
  refine set_succeeds written (dir ▸ made) (dir ▸ placed) ?_
  rw [List.singleton_append, Tree.node?_put_of_away _ (by simp), vacant _ (by simp)]

/-- An empty working directory can be used as a cache. -/
theorem isFresh_here (here : t.current = []) (vacant : ∀ other ≠ [], t.node? other = none)
    (now : Instant) : IsFresh ⟨t, utf8 ".", now⟩ := by
  have found (follow : Bool) : t.find follow (utf8 ".") = .ok ([], .directory) := by
    refine Tree.find_of_place ?_ (Tree.node?_root t)
    rw [Tree.place_of_usable ⟨rfl, by decide, by decide⟩,
      show (utf8 ".").split Path.slash = [Path.dot] from rfl, Tree.start, here, ite_self,
      Tree.walk_stay (Tree.node?_root t) (.inr rfl), Tree.walk_nil]
  refine ⟨[], found false, found true, ?_⟩
  rintro other ⟨rest, nonempty, rfl⟩
  exact vacant _ nonempty

theorem Succeeds.concat {d : Directory} {history : List Use} {use : Use} (earlier : d.Succeeds history)
    (last : ((d.after history).perform use).1.IsSuccess) : d.Succeeds (history ++ [use]) := by
  intro before other after whole
  rcases List.eq_nil_or_concat after with rfl | ⟨rest, final, rfl⟩
  · obtain ⟨rfl, same⟩ := List.append_inj' whole rfl
    rwa [← List.singleton_inj.mp same]
  · rw [List.concat_eq_append, ← List.cons_append, ← List.append_assoc] at whole
    exact earlier before other rest (List.append_inj' whole rfl).1

theorem isSuccess_set {d : Directory} {time : Instant} {key data : Bytes} {lifetime : Duration} :
    (d.perform ⟨time, .set key data lifetime⟩).1.IsSuccess ↔
      (set { d with now := time } key data lifetime).1 = none := by
  rw [perform_set]
  rfl

theorem succeeds_pair {d : Directory} {first second : Use}
    (success : (d.perform first).1.IsSuccess)
    (success' : ((d.after [first]).perform second).1.IsSuccess) :
    d.Succeeds ([first] ++ [second]) := by
  have none : d.Succeeds [] := by
    intro before other after whole
    simp at whole
  exact (none.concat success).concat success'

/-- In an empty working directory, bytes are found until they expire. -/
theorem get_here (here : t.current = []) (vacant : ∀ other ≠ [], t.node? other = none)
    {time since now : Instant} {data : Bytes} {lifetime : Duration}
    (written : (Entry.text? (Stored.entry ⟨data, since, lifetime⟩)).isSome = true) :
    Succeeds ⟨t, utf8 ".", time⟩ ([⟨since, .set key data lifetime⟩] ++ [⟨now, .get key⟩]) ∧
      ((after ⟨t, utf8 ".", time⟩ [⟨since, .set key data lifetime⟩]).perform ⟨now, .get key⟩).1 =
        .found (if Stored.IsOver ⟨data, since, lifetime⟩ now then .miss else .hit data) := by
  obtain ⟨place, itself, ready⟩ := (isFresh_here here vacant since).ready
  have success : (set ⟨t, utf8 ".", since⟩ key data lifetime).1 = none := set_here here vacant written
  have apart : Set.InjOn Sha256.hex {key} := Set.injOn_singleton ..
  have matched := (ready.matches.set ready apart rfl success).at now
  have stored : Use.leaves key none ⟨since, .set key data lifetime⟩ = some ⟨data, since, lifetime⟩ :=
    if_pos rfl
  have found := matched.get_of_some ready stored (by rw [matched.root_eq]; exact usable_here key)
  have answered : ((after ⟨t, utf8 ".", time⟩ [⟨since, .set key data lifetime⟩]).perform
      ⟨now, .get key⟩).1 =
        .found (if Stored.IsOver ⟨data, since, lifetime⟩ now then .miss else .hit data) := by
    simp only [after, List.foldl_cons, List.foldl_nil, perform_get, perform_set, Prod.map_fst,
      Prod.map_snd, id, found]
    split <;> rfl
  refine ⟨succeeds_pair (isSuccess_set.mpr success) ?_, answered⟩
  rw [answered, Outcome.IsSuccess]
  split <;> simp

end Here

theorem vacant_bare : ∀ other ≠ [], (Tree.bare []).node? other = none := by
  intro other nonempty
  simp [Tree.bare, Tree.node?, nonempty]

section Linked

variable {t : Tree} {key : Bytes}

def linkedTree : Tree where
  nodes := ((∅ : Std.HashMap Place Node).insert [utf8 "c"] (.link (utf8 "r"))).insert
    [utf8 "r"] .directory
  current := []

/-- In a tree with such a link, what comes after the link is walked from the directory. -/
theorem walk_linked (link : t.node? [utf8 "c"] = some (.link (utf8 "r")))
    (directory : t.node? [utf8 "r"] = some .directory) {rest : List Bytes} {follow : Bool}
    (followed : ¬(rest = [] ∧ ¬ follow = true)) (links : Nat) :
    t.walk follow (links + 1) [] (utf8 "c" :: rest) = t.walk follow links [utf8 "r"] rest := by
  have enters : Tree.Enters (utf8 "c") ∧ Tree.Enters (utf8 "r") := by
    simp only [Tree.Enters]
    decide
  rw [Tree.walk_link (Tree.node?_root t) enters.1 link followed,
    show Tree.start [] (utf8 "r") = [] from rfl,
    show (utf8 "r").split Path.slash = [utf8 "r"] from rfl,
    List.singleton_append, Tree.walk_enter (Tree.node?_root t) enters.2 (by simp [directory])]
  rfl

theorem dir_linked (key : Bytes) :
    (pathOf (utf8 "c") key).dir = utf8 "c" ++ Path.slash :: shelf key := by
  rw [dir_pathOf, show Path.isRooted (utf8 "c") = false from rfl,
    show Path.parts (utf8 "c") = [utf8 "c"] from rfl]
  simp [Path.spelled, Bytes.join, List.intercalate, utf8]

theorem place_linked (here : t.current = []) (link : t.node? [utf8 "c"] = some (.link (utf8 "r")))
    (directory : t.node? [utf8 "r"] = some .directory)
    (key : Bytes) (solid : ∀ target, t.node? [utf8 "r", shelf key] ≠ some (.link target))
    (follow : Bool) :
    t.place follow (utf8 "c" ++ Path.slash :: shelf key) = .ok [utf8 "r", shelf key] := by
  obtain ⟨a, b, pair, digit, digit'⟩ := shelf_pair key
  have usable : Tree.Usable (utf8 "c" ++ Path.slash :: shelf key) := by
    rw [show utf8 "c" = [99] from rfl]
    refine ⟨?_, by simp, by simp [pair, Tree.longestPath]⟩
    simp [pair, Path.slash, (ne_zero_of_isHexDigit digit).symm,
      (ne_zero_of_isHexDigit digit').symm]
  have split : (utf8 "c" ++ Path.slash :: shelf key).split Path.slash = [utf8 "c", shelf key] := by
    have free : Path.slash ∉ shelf key := (isName_slot key _ (.head _)).free
    rw [Bytes.split_append_sep, Bytes.split_of_not_mem free]
    rfl
  have start : Tree.start t.current (utf8 "c" ++ Path.slash :: shelf key) = [] := by
    rw [Tree.start, here, ite_self]
  rw [Tree.place_of_usable usable, split, start, Tree.linkLimit,
    walk_linked link directory (by simp),
    Tree.walk_enter directory (enters_slot key _ (by simp [slot])) solid, Tree.walk_nil]
  rfl

theorem makeDirectories_linked (here : t.current = [])
    (link : t.node? [utf8 "c"] = some (.link (utf8 "r")))
    (directory : t.node? [utf8 "r"] = some .directory)
    (vacant : t.node? [utf8 "r", shelf key] = none) :
    t.makeDirectories (utf8 "c" ++ Path.slash :: shelf key) =
      .ok (t.put [utf8 "r", shelf key] .directory) := by
  obtain ⟨a, b, pair, digit, digit'⟩ := shelf_pair key
  have slash {b : UInt8} (digit : Bytes.IsHexDigit b) : b ≠ 47 := ne_slash_of_isHexDigit digit
  have starts : Tree.beginnings (utf8 "c" ++ Path.slash :: shelf key) =
      [utf8 "c" ++ [Path.slash], utf8 "c" ++ Path.slash :: shelf key] := by
    rw [show utf8 "c" = [99] from rfl]
    simp [pair, Tree.beginnings, slash digit, Path.slash]
  have lead : t.find true (utf8 "c" ++ [Path.slash]) = .ok ([utf8 "r"], .directory) := by
    refine Tree.find_of_place ?_ directory
    rw [Tree.place_of_usable ⟨rfl, by decide, by decide⟩,
      show (utf8 "c" ++ [Path.slash]).split Path.slash = [utf8 "c", []] from rfl, Tree.start, here,
      ite_self, Tree.linkLimit, walk_linked link directory (by simp),
      Tree.walk_stay directory (.inl rfl), Tree.walk_nil]
  have placed := place_linked here link directory key (by simp [vacant])
  have whole : Tree.withoutEnd (utf8 "c" ++ Path.slash :: shelf key) =
      utf8 "c" ++ Path.slash :: shelf key := by
    simp [pair, Tree.withoutEnd, slash digit', Path.slash]
  have missing (follow : Bool) : t.find follow (utf8 "c" ++ Path.slash :: shelf key) =
      .error .missing := by
    simp only [Tree.find, placed, bind, Except.bind, vacant]
  have made : t.makeDirectory (utf8 "c" ++ Path.slash :: shelf key) =
      .ok (t.put [utf8 "r", shelf key] .directory) := by
    rw [Tree.makeDirectory, whole, placed]
    simp [vacant]
  simp only [Tree.makeDirectories, starts, List.foldlM_cons, List.foldlM_nil, lead, missing, made,
    bind, Except.bind, pure, Except.pure]

theorem linkedTree_nodes : linkedTree.node? [utf8 "c"] = some (.link (utf8 "r")) ∧
    linkedTree.node? [utf8 "r"] = some .directory ∧
    ∀ other, Tree.Inside [utf8 "r"] other → linkedTree.node? other = none := by
  refine ⟨?_, ?_, ?_⟩
  · have differ : ¬ ([utf8 "r"] == [utf8 "c"]) = true := by decide
    rw [Tree.node?_of_free (by simp [linkedTree]), linkedTree, Std.HashMap.getElem?_insert,
      if_neg differ, Std.HashMap.getElem?_insert_self]
  · simp [Tree.node?, linkedTree]
  · rintro other ⟨rest, nonempty, rfl⟩
    simp [Tree.node?, linkedTree, nonempty]

theorem set_linked {data : Bytes} {now : Instant} {lifetime : Duration}
    (written : (Entry.text? (Stored.entry ⟨data, now, lifetime⟩)).isSome = true) :
    (set ⟨linkedTree, utf8 "c", now⟩ key data lifetime).1 = none := by
  obtain ⟨content, written⟩ := Option.isSome_iff_exists.mp written
  obtain ⟨link, directory, vacant⟩ := linkedTree_nodes
  have nothing (rest : List Bytes) (some : rest ≠ []) : linkedTree.node? (utf8 "r" :: rest) = none :=
    vacant _ ⟨rest, some, rfl⟩
  have made := makeDirectories_linked rfl link directory (nothing [shelf key] (by simp))
  have grown := Tree.grown_put linkedTree [utf8 "r", shelf key] .directory
  have there : (linkedTree.put [utf8 "r", shelf key] .directory).node? [utf8 "r", shelf key] =
      some .directory := Tree.node?_put_of_free (by simp [linkedTree])
  have placed := place_linked grown.current (grown.kept (by simp) link)
    (grown.kept (by simp) directory) key (by simp [there]) true
  refine set_succeeds written (dir_linked key ▸ made) (dir_linked key ▸ placed) ?_
  rw [Tree.node?_put_of_away _ (by simp)]
  exact nothing [shelf key, leaf key] (by simp)

theorem find_linked (here : t.current = []) (link : t.node? [utf8 "c"] = some (.link (utf8 "r"))) :
    t.find false (utf8 "c") = .ok ([utf8 "c"], .link (utf8 "r")) := by
  refine Tree.find_of_place ?_ link
  have enters : Tree.Enters (utf8 "c") := by
    simp only [Tree.Enters]
    decide
  rw [Tree.place_of_usable ⟨rfl, by decide, by decide⟩,
    show (utf8 "c").split Path.slash = [utf8 "c"] from rfl, Tree.start, here, ite_self, Tree.walk]
  simp [Tree.node?_root, enters.1, enters.2.1, enters.2.2, link]

theorem clear_of_link {d : Directory} {place : Place} {target : Path}
    (found : d.tree.find false d.root = .ok (place, .link target)) : d.clear = (0, d) := by
  rw [Directory.clear, found]

theorem ready_linked (now : Instant) : IsEmpty ⟨linkedTree, utf8 "c", now⟩ ∧
    Ready linkedTree (utf8 "c") [utf8 "r"] := by
  obtain ⟨link, directory, vacant⟩ := linkedTree_nodes
  have found : linkedTree.find true (Path.clean (utf8 "c")) = .ok ([utf8 "r"], .directory) := by
    refine Tree.find_of_place ?_ directory
    rw [show Path.clean (utf8 "c") = utf8 "c" from rfl,
      Tree.place_of_usable ⟨rfl, by decide, by decide⟩,
      show (utf8 "c").split Path.slash = [utf8 "c"] from rfl,
      show Tree.start linkedTree.current (utf8 "c") = [] from rfl, Tree.linkLimit,
      walk_linked link directory (by simp), Tree.walk_nil]
  exact ⟨⟨_, found, vacant⟩, ready_of_find (d := ⟨linkedTree, utf8 "c", now⟩) found vacant⟩

/-- A cache whose path is a link to its directory is not cleared. -/
theorem clear_linked (key : Bytes) {data : Bytes} {since now : Instant} {lifetime : Duration}
    (written : (Entry.text? (Stored.entry ⟨data, since, lifetime⟩)).isSome = true) :
    Succeeds ⟨linkedTree, utf8 "c", since⟩ ([⟨since, .set key data lifetime⟩] ++ [⟨now, .clear⟩]) ∧
    ((after ⟨linkedTree, utf8 "c", since⟩ [⟨since, .set key data lifetime⟩]).perform
      ⟨now, .clear⟩).1 = .cleared 0 := by
  obtain ⟨-, ready⟩ := ready_linked since
  have success : (set ⟨linkedTree, utf8 "c", since⟩ key data lifetime).1 = none := set_linked written
  have matched := (ready.matches.set ready (Set.injOn_singleton ..) rfl success).at now
  have link := matched.grown.kept (by simp [Tree.inside_iff]) linkedTree_nodes.1
  have linked := find_linked matched.grown.current link
  have idle : clear { (set ⟨linkedTree, utf8 "c", since⟩ key data lifetime).2 with now := now } =
      (0, { (set ⟨linkedTree, utf8 "c", since⟩ key data lifetime).2 with now := now }) :=
    clear_of_link ((congrArg (Tree.find _ false) matched.root_eq).trans linked)
  have cleared : ((after ⟨linkedTree, utf8 "c", since⟩ [⟨since, .set key data lifetime⟩]).perform
      ⟨now, .clear⟩).1 = .cleared 0 := by
    simp only [after, List.foldl_cons, List.foldl_nil, perform_clear, perform_set, Prod.map_fst,
      Prod.map_snd, id, idle]
  refine ⟨succeeds_pair (isSuccess_set.mpr success) ?_, cleared⟩
  rw [cleared]
  trivial

end Linked

/-- In a run of uses that succeed, at times that do not decrease and under keys with different
hashes: what a key is answered with are the latest bytes stored under it until they expire, the cache
is cleared of one file for each key that still has one, and what is done under one key makes no
difference to any other. -/
theorem expiring_map {d : Directory} {keys : Set Bytes} {history : List Use} {use : Use}
    (fresh : d.IsFresh) (apart : Set.InjOn Sha256.hex keys)
    (used : ∀ other ∈ history ++ [use], ∀ key, other.operation.key? = some key → key ∈ keys)
    (ordered : (history ++ [use]).Pairwise fun earlier later => earlier.time.nanos ≤ later.time.nanos)
    (succeeds : d.Succeeds (history ++ [use])) :
    let outcome := ((d.after history).perform use).1
    (∀ key, use.operation = .get key →
      (∀ data, outcome = .found (.hit data) ↔
        ∃ s, Latest history key s ∧ ¬ s.IsOver use.time ∧ s.data = data) ∧
      (outcome = .found .miss ∨ ∃ data, outcome = .found (.hit data))) ∧
    (use.operation = .clear →
      ∃ n : Nat, outcome = .cleared n ∧ {key | ∃ s, Remains history key s}.encard = n) ∧
    ∀ key ∈ keys, ¬ use.operation.Concerns key → ∀ now data,
      (({ d.after (history ++ [use]) with now := now }).get key).1 = .hit data ↔
        (({ d.after history with now := now }).get key).1 = .hit data := by
  intro outcome
  obtain ⟨place, itself, ready⟩ := fresh.ready
  have succeeded : outcome.IsSuccess := succeeds history use [] rfl
  have before := matches_after ready apart itself
    (fun other member => used other (List.mem_append_left _ member)) succeeds.of_append
  have later := matches_after ready apart itself used succeeds
  have past : ∀ other ∈ history, other.time.nanos ≤ use.time.nanos := fun other member =>
    (List.pairwise_append.mp ordered).2.2 other member use (List.mem_singleton_self use)
  obtain ⟨time, operation⟩ := use
  refine ⟨?_, ?_, fun key member away now data => ?_⟩
  · rintro key rfl
    have answered : outcome = .found (({ d.after history with now := time }).get key).1 := rfl
    have member : key ∈ keys := used ⟨time, .get key⟩ (by simp) key rfl
    -- Asking succeeded, so the path of the key is one that files can have.
    have usable : Tree.Usable (pathOf (d.after history).root key) := by
      by_contra unusable
      obtain ⟨fault, failed⟩ := get_of_not_usable (d := { d.after history with now := time }) unusable
      rw [answered, failed] at succeeded
      exact succeeded fault rfl
    refine ⟨fun data => ?_, ?_⟩
    · rw [answered, Outcome.found.injEq, (before.at time).hit_iff ready apart member]
      constructor
      · rintro ⟨-, s, stored, good, same⟩
        exact ⟨s, (held_eq_some_iff.mp stored).latest, good, same⟩
      · rintro ⟨s, latest, good, same⟩
        exact ⟨usable, s, held_eq_some_iff.mpr (latest.remains good past), good, same⟩
    · rw [answered] at succeeded ⊢
      cases answer : ({ d.after history with now := time }.get key).1 with
      | hit data => exact .inr ⟨data, rfl⟩
      | miss => exact .inl rfl
      | failed fault => exact absurd answer (succeeded fault)
  · rintro rfl
    have found := Tree.find_grown before.grown ready.vacant itself
    rw [← before.root_eq] at found
    have cleared := clear_of_find (d := { d.after history with now := time }) found
    have answered : outcome = .cleared (({ d.after history with now := time }).clear).1 := rfl
    refine ⟨_, answered.trans (congrArg Outcome.cleared (congrArg Prod.fst cleared)), ?_⟩
    rw [← before.files apart]
    simp only [Option.isSome_iff_exists, held_eq_some_iff]
  · rw [(later.at now).hit_iff ready apart member, (before.at now).hit_iff ready apart member]
    simp only [later.root_eq, before.root_eq, held_concat, Use.leaves_of_not_concerns away]

/-- Bytes are found at the very instant at which they expire. -/
theorem expiring_map_sample :
    let d : Directory := ⟨.bare [], utf8 ".", .zero⟩
    let history : List Use := [⟨⟨7⟩, .set (utf8 "k") (utf8 "v") 5⟩]
    let use : Use := ⟨⟨12⟩, .get (utf8 "k")⟩
    d.IsFresh ∧ d.Succeeds (history ++ [use]) ∧
      ((d.after history).perform use).1 = .found (.hit (utf8 "v")) := by
  intro d history use
  have fresh : d.IsFresh := isFresh_here rfl vacant_bare _
  have succeeds : d.Succeeds (history ++ [use]) := (get_here rfl vacant_bare (by decide +kernel)).1
  refine ⟨fresh, succeeds, ?_⟩
  have apart : Set.InjOn Sha256.hex {utf8 "k"} := Set.injOn_singleton ..
  have used : ∀ other ∈ history ++ [use], ∀ key, other.operation.key? = some key →
      key ∈ ({utf8 "k"} : Set Bytes) := by
    simp [history, use, Operation.key?]
  have ordered : (history ++ [use]).Pairwise fun earlier later =>
      earlier.time.nanos ≤ later.time.nanos := by
    simp [history, use]
  have answer := (expiring_map fresh apart used ordered succeeds).1 (utf8 "k") rfl
  exact (answer.1 (utf8 "v")).mpr
    ⟨⟨utf8 "v", ⟨7⟩, 5⟩, ⟨[], [], rfl, by simp⟩, by decide +kernel, rfl⟩

/-- What holds of no other directories and lifetimes. Bytes whose lifetime ends at the zero instant
are found after it, and a cache whose path is a link to its directory is not cleared. -/
theorem expiring_map_limits :
    (let d : Directory := ⟨.bare [], utf8 ".", .zero⟩
      let s : Stored := ⟨utf8 "v", ⟨-1⟩, 1⟩
      let history : List Use := [⟨s.since, .set (utf8 "k") s.data s.lifetime⟩]
      let use : Use := ⟨⟨1⟩, .get (utf8 "k")⟩
      d.IsFresh ∧ d.Succeeds (history ++ [use]) ∧ Latest history (utf8 "k") s ∧
        s.since.civil.year = 0 ∧ 0 < s.lifetime ∧
        (s.since.add s.lifetime).nanos < use.time.nanos ∧
        ((d.after history).perform use).1 = .found (.hit s.data)) ∧
    (let d : Directory := ⟨linkedTree, utf8 "c", .zero⟩
      let s : Stored := ⟨utf8 "v", .zero, 0⟩
      let history : List Use := [⟨s.since, .set (utf8 "k") s.data s.lifetime⟩]
      let use : Use := ⟨.zero, .clear⟩
      d.IsEmpty ∧ d.Succeeds (history ++ [use]) ∧ Remains history (utf8 "k") s ∧
        ((d.after history).perform use).1 = .cleared 0) := by
  constructor
  · intro d s history use
    have run : d.Succeeds (history ++ [use]) ∧ ((d.after history).perform use).1 =
        .found (if s.IsOver use.time then .miss else .hit s.data) :=
      get_here rfl vacant_bare (by decide +kernel)
    have good : ¬ s.IsOver use.time := by decide +kernel
    refine ⟨isFresh_here rfl vacant_bare _, run.1, ⟨[], [], rfl, by simp⟩, by decide +kernel,
      by decide, by decide, ?_⟩
    rw [run.2, if_neg good]
  · intro d s history use
    have run : d.Succeeds (history ++ [use]) ∧ ((d.after history).perform use).1 = .cleared 0 :=
      clear_linked (utf8 "k") (by decide +kernel)
    exact ⟨(ready_linked _).1, run.1, ⟨[], [], rfl, by simp⟩, run.2⟩

end StackBound.Cache.Directory
