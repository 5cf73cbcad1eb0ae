import Mathlib.Data.Set.Card
import StackBound.Proofs.Cache.Directory
import StackBound.Proofs.Cache.History

/-! A cache directory holds a file for each key with contents, and no other files. Whatever succeeds
does to the files what it does to the contents. -/
namespace StackBound.Cache.Directory

def perform (d : Directory) (use : Use) : Outcome × Directory :=
  let d := { d with now := use.time }
  match use.operation with
  | .set key data lifetime => (d.set key data lifetime).map .stored id
  | .get key => (d.get key).map .found id
  | .delete key => (d.delete key).map .deleted id
  | .clear => d.clear.map .cleared id

def after (d : Directory) (history : List Use) : Directory :=
  history.foldl (fun d use => (d.perform use).2) d

section Steps

variable (d : Directory) (time : Instant) (key data : Bytes)

theorem perform_set (lifetime : Duration) : d.perform ⟨time, .set key data lifetime⟩ =
    (set { d with now := time } key data lifetime).map .stored id := rfl

theorem perform_get : d.perform ⟨time, .get key⟩ =
    (get { d with now := time } key).map .found id := rfl

theorem perform_clear : d.perform ⟨time, .clear⟩ =
    (clear { d with now := time }).map .cleared id := rfl

end Steps

/-- A tree in which a path leads to a directory that is empty. -/
structure Ready (t : Tree) (root : Path) (place : Place) : Prop extends Vacant t root place where
  directory : t.node? place = some .directory

/-- A cache that holds a file for each key that has contents, and no other files. -/
structure Matches (keys : Set Bytes) (origin : Tree) (root : Path) (place : Place)
    (contents : Bytes → Option Stored) (d : Directory) : Prop where
  root_eq : d.root = root
  grown : Tree.Grown (Tree.Inside place) origin d.tree
  filed : ∀ key s, contents key = some s → key ∈ keys ∧
    d.tree.node? (place ++ [shelf key]) = some .directory ∧
    ∃ content, d.tree.node? (place ++ slot key) = some (.file content) ∧
      Entry.parse? content = some s.entry
  owned : ∀ other node, Tree.Inside place other → d.tree.node? other = some node →
    node = .directory ∨ ∃ content key s, node = .file content ∧ other = place ++ slot key ∧
      contents key = some s

section Uses

variable {keys : Set Bytes} {origin : Tree} {root : Path} {place : Place}
  {contents : Bytes → Option Stored} {d : Directory}

theorem inside_slot (place : Place) (key : Bytes) : Tree.Inside place (place ++ slot key) :=
  ⟨slot key, slot_ne_nil key, rfl⟩

theorem enters_slot (key : Bytes) : ∀ part ∈ slot key, Tree.Enters part := by
  intro part member
  have named := isName_slot key part member
  refine ⟨by simp [named.nonempty, named.here], named.up, ?_⟩
  simp only [slot, List.mem_cons, List.not_mem_nil, or_false] at member
  have ending : (utf8 ".json").length = 5 := rfl
  rcases member with rfl | rfl <;> simp [shelf, leaf, ending, Tree.longestName]

theorem slot_inj (apart : Set.InjOn Sha256.hex keys) {key other : Bytes} (used : key ∈ keys)
    (used' : other ∈ keys) (same : place ++ slot key = place ++ slot other) : key = other :=
  apart used used' (hex_of_slot (List.append_cancel_left same))

theorem Ready.matches (ready : Ready d.tree d.root place) :
    Matches keys d.tree d.root place (fun _ => none) d where
  root_eq := rfl
  grown := .refl d.tree
  filed _ _ := nofun
  owned other node inside there := by simp [ready.vacant other inside] at there

theorem Matches.holds (held : Matches keys origin root place contents d) :
    Holds (fun _ _ => True) origin root place d where
  root_eq := held.root_eq
  grown := held.grown
  solid other target inside link := by
    rcases held.owned other _ inside link with same | ⟨content, key, s, same, -⟩ <;> cases same
  entries _ _ _ _ _ := trivial

/-- The working directory is not in the cache. -/
theorem Matches.free (held : Matches keys origin root place contents d)
    (ready : Ready origin root place) {other : Place} (inside : Tree.Inside place other) :
    ¬ other <+: d.tree.current := by
  rw [held.grown.current]
  rintro ⟨more, whole⟩
  obtain ⟨rest, some, rfl⟩ := inside
  have missing := ready.vacant origin.current ⟨rest ++ more, by simp [some], by simp [← whole]⟩
  simp [Tree.node?_current] at missing

theorem Matches.directory (held : Matches keys origin root place contents d)
    (ready : Ready origin root place) : d.tree.node? place = some .directory := by
  have away : ¬ Tree.Inside place place := fun ⟨rest, nonempty, same⟩ =>
    nonempty (List.self_eq_append_right.mp same)
  exact held.grown.kept away ready.directory

/-- The file of one key is not below that of another. -/
theorem not_prefix_slot (apart : Set.InjOn Sha256.hex keys) {key other : Bytes} (used : key ∈ keys)
    (used' : other ∈ keys) (differ : other ≠ key) : ¬ place ++ slot key <+: place ++ slot other := by
  intro below
  have same := below.eq_of_length (by simp [slot])
  exact differ (slot_inj apart used used' same).symm

theorem not_prefix_shelf (place : Place) (key other : Bytes) :
    ¬ place ++ slot key <+: place ++ [shelf other] := by
  intro below
  have longer := below.length_le
  simp [slot] at longer

/-- A path that can be used leads to the file of its key. -/
theorem Matches.place_slot (held : Matches keys origin root place contents d)
    (ready : Ready origin root place) {key : Bytes} {s : Stored} (stored : contents key = some s)
    (usable : Tree.Usable (pathOf d.root key)) (follow : Bool) :
    d.tree.place follow (pathOf d.root key) = .ok (place ++ slot key) := by
  obtain ⟨-, shelved, content, file, -⟩ := held.filed key s stored
  have start : d.tree.origin root.isRooted = origin.origin root.isRooted := by
    rw [Tree.origin, held.grown.current, Tree.origin]
  obtain ⟨left, same⟩ := (ready.leads.grown held.grown ready.vacant).walk_append
  rw [held.root_eq, pathOf_eq] at usable ⊢
  rw [Tree.place_spelled (Path.resolved_append (Path.resolved_parts root) _ (isName_slot key)) usable,
    start, same follow _ (slot_ne_nil key)]
  rw [slot, Tree.walk_enter (held.directory ready) (enters_slot key _ (by simp [slot])) (by simp [shelved]),
    Tree.walk_enter shelved (enters_slot key _ (by simp [slot])) ?_, Tree.walk_nil, List.append_assoc,
    List.singleton_append]
  intro target link
  rw [List.append_assoc, List.singleton_append] at link
  simp [slot, link] at file

/-- What the directory is asked for is answered from its contents. -/
theorem Matches.read (held : Matches keys origin root place contents d)
    (ready : Ready origin root place) (apart : Set.InjOn Sha256.hex keys) {key : Bytes}
    (used : key ∈ keys) {content : Bytes} (read : d.tree.read (pathOf d.root key) = .ok content) :
    ∃ s, contents key = some s ∧ Entry.parse? content = some s.entry := by
  obtain ⟨found, placed, file⟩ := Tree.place_of_read read
  rw [held.root_eq, pathOf_eq] at placed
  obtain rfl :=
    held.holds.place_eq ready.toVacant (slot_ne_nil key) (isName_slot key) placed
  rcases held.owned _ _ (inside_slot place key) file with same | ⟨_, other, s, same, where_, stored⟩
  · cases same
  · cases same
    obtain ⟨used', -, content', file', parsed⟩ := held.filed other s stored
    obtain rfl := slot_inj apart used used' where_
    rw [file, Option.some.injEq, Node.file.injEq] at file'
    exact ⟨s, stored, file' ▸ parsed⟩

theorem Matches.find_slot (held : Matches keys origin root place contents d)
    (ready : Ready origin root place) {key : Bytes} {s : Stored} (stored : contents key = some s)
    (usable : Tree.Usable (pathOf d.root key)) :
    ∃ content, Entry.parse? content = some s.entry ∧ ∀ follow,
      d.tree.find follow (pathOf d.root key) = .ok (place ++ slot key, .file content) := by
  obtain ⟨-, -, content, file, parsed⟩ := held.filed key s stored
  exact ⟨content, parsed, fun follow =>
    Tree.find_of_place (held.place_slot ready stored usable follow) file⟩

/-- A path that cannot be used is refused whatever the directory holds. -/
theorem refused_of_not_usable {root : Path} {key : Bytes} (unusable : ¬ Tree.Usable (pathOf root key)) :
    ∃ refusal, refusal ≠ .missing ∧
      ∀ (t : Tree) (follow : Bool), t.find follow (pathOf root key) = .error refusal := by
  have nonempty : pathOf root key ≠ [] := by
    rw [pathOf_eq]
    exact Path.spelled_ne_nil _ _
  obtain ⟨refusal, other, refused⟩ := Tree.place_of_not_usable nonempty unusable
  exact ⟨refusal, other, fun t follow => Tree.find_of_refused (refused t follow)⟩

theorem get_of_not_usable {key : Bytes} (unusable : ¬ Tree.Usable (pathOf d.root key)) :
    ∃ fault, d.get key = (.failed fault, d) := by
  obtain ⟨refusal, other, refused⟩ := refused_of_not_usable unusable
  refine ⟨PathError.fault ⟨utf8 "open", pathOf d.root key, refusal⟩, ?_⟩
  simp [Directory.get, Tree.read, refused, PathError.isMissing, other]

/-- What is held under a key is found until it expires, and then it is taken away. -/
theorem Matches.get_of_some (held : Matches keys origin root place contents d)
    (ready : Ready origin root place) {key : Bytes} {s : Stored} (stored : contents key = some s)
    (usable : Tree.Usable (pathOf d.root key)) :
    d.get key = if s.IsOver d.now then (.miss, { d with tree := d.tree.remove (place ++ slot key) })
      else (.hit s.data, d) := by
  obtain ⟨content, parsed, found⟩ := held.find_slot ready stored usable
  have read : d.tree.read (pathOf d.root key) = .ok content := by
    rw [Tree.read, found]
  have taken : d.drop (pathOf d.root key) = { d with tree := d.tree.remove (place ++ slot key) } := by
    rw [drop, Tree.unlink, found]
  simp only [Directory.get, read, parsed, s.isExpired_entry]
  rw [taken]
  rfl

theorem Matches.get_of_none (held : Matches keys origin root place contents d)
    (ready : Ready origin root place) (apart : Set.InjOn Sha256.hex keys) {key : Bytes}
    (used : key ∈ keys) (nothing : contents key = none) :
    d.get key = (.miss, d) ∨ ∃ fault, d.get key = (.failed fault, d) := by
  cases read : d.tree.read (pathOf d.root key) with
  | error e =>
    simp only [Directory.get, read]
    split
    · exact .inl rfl
    · exact .inr ⟨_, rfl⟩
  | ok content =>
    obtain ⟨s, stored, -⟩ := held.read ready apart used read
    simp [nothing] at stored

/-- Taking away the file of a key leaves the other keys alone. -/
theorem Matches.remove (held : Matches keys origin root place contents d)
    (ready : Ready origin root place) (apart : Set.InjOn Sha256.hex keys) {key : Bytes}
    (used : key ∈ keys) {less : Bytes → Option Stored} (gone : less key = none)
    (left : ∀ other, other ≠ key → less other = contents other) :
    Matches keys origin root place less { d with tree := d.tree.remove (place ++ slot key) } where
  root_eq := held.root_eq
  grown := by
    refine held.grown.trans ((Tree.grown_remove d.tree (place ++ slot key)).mono ?_)
    rintro other ⟨rest, rfl⟩
    exact ⟨slot key ++ rest, by simp [slot], by simp⟩
  filed other s stored := by
    have differ : other ≠ key := by
      rintro rfl
      simp [gone] at stored
    rw [left other differ] at stored
    obtain ⟨used', shelved, content, file, parsed⟩ := held.filed other s stored
    have kept {away : Place} (outside : ¬ place ++ slot key <+: away) :
        (d.tree.remove (place ++ slot key)).node? away = d.tree.node? away :=
      (Tree.node?_remove ..).resolve_right fun below => outside below.1
    exact ⟨used', (kept (not_prefix_shelf place key other)).trans shelved, content,
      (kept (not_prefix_slot apart used used' differ)).trans file, parsed⟩
  owned other node inside there := by
    rcases Tree.node?_remove d.tree (place ++ slot key) other with same | ⟨-, missing⟩
    · rcases held.owned other node inside (same ▸ there) with
        made | ⟨content, other', s, rfl, rfl, stored⟩
      · exact .inl made
      · refine .inr ⟨content, other', s, rfl, rfl, ?_⟩
        rw [left, stored]
        rintro rfl
        have missing := Tree.node?_remove_self (held.free ready (inside_slot place other'))
        simp [missing] at there
    · simp [missing] at there

/-- Where the file of one key is written, whatever else is there is a directory or was there before. -/
theorem Matches.owned_put (held : Matches keys origin root place contents d) {t : Tree}
    {key content : Bytes} {s : Stored} (total : Tree.Grown (· = place ++ slot key) d.tree t)
    (written : t.node? (place ++ slot key) = some (.file content))
    {more : Bytes → Option Stored} (stored : more key = some s)
    (left : ∀ other, other ≠ key → more other = contents other) {other : Place} {node : Node}
    (inside : Tree.Inside place other) (there : t.node? other = some node) :
    node = .directory ∨ ∃ content key s, node = .file content ∧ other = place ++ slot key ∧
      more key = some s := by
  by_cases same : other = place ++ slot key
  · rw [same, written, Option.some.injEq] at there
    exact .inr ⟨content, key, s, there.symm, same, stored⟩
  · rcases total.elsewhere other same with kept | ⟨-, made⟩
    · rcases held.owned other node inside (kept ▸ there) with
        made | ⟨content', key', s', rfl, rfl, stored'⟩
      · exact .inl made
      · refine .inr ⟨content', key', s', rfl, rfl, ?_⟩
        rw [left, stored']
        rintro rfl
        exact same rfl
    · rw [made, Option.some.injEq] at there
      exact .inl there.symm

/-- Whatever is above a file was made with it, so it is a directory if it is no file of another key. -/
theorem shelved_put {t : Tree} {key content : Bytes}
    (owned : ∀ node,
      (t.put (place ++ slot key) (.file content)).node? (place ++ [shelf key]) = some node →
        node = .directory ∨ ∃ other, place ++ [shelf key] = place ++ slot other) :
    (t.put (place ++ slot key) (.file content)).node? (place ++ [shelf key]) = some .directory := by
  have short : place.length + 1 < (place ++ slot key).length := by simp [slot]
  have above := Tree.isSome_put t _ (.file content) short
  rw [show (place ++ slot key).take (place.length + 1) = place ++ [shelf key] by
    simp [slot, List.take_append]] at above
  obtain ⟨node, there⟩ := Option.isSome_iff_exists.mp above
  rcases owned node there with rfl | ⟨other, same⟩
  · exact there
  · simp [slot] at same

/-- Writing the file of a key leaves the other keys alone. -/
theorem Matches.put (held : Matches keys origin root place contents d)
    (ready : Ready origin root place) (apart : Set.InjOn Sha256.hex keys) {key : Bytes}
    (used : key ∈ keys) {t : Tree} (wider : Tree.Grown (fun _ => False) d.tree t) {s : Stored}
    {content : Bytes} (parsed : Entry.parse? content = some s.entry)
    {more : Bytes → Option Stored} (stored : more key = some s)
    (left : ∀ other, other ≠ key → more other = contents other) :
    Matches keys origin root place more
      { d with tree := t.put (place ++ slot key) (.file content) } := by
  have free : ¬ place ++ slot key <+: t.current := by
    rw [wider.current]
    exact held.free ready (inside_slot place key)
  have written : (t.put (place ++ slot key) (.file content)).node? (place ++ slot key) =
      some (.file content) := Tree.node?_put_of_free free
  have total : Tree.Grown (· = place ++ slot key) d.tree
      (t.put (place ++ slot key) (.file content)) :=
    (wider.mono fun _ => False.elim).trans (Tree.grown_put t _ _)
  have shelf_ne (other : Bytes) : place ++ [shelf other] ≠ place ++ slot key := by
    simp [slot]
  refine ⟨held.root_eq, held.grown.trans (total.mono ?_), fun other s' stored' => ?_,
    fun other node inside there => held.owned_put total written stored left inside there⟩
  · rintro other rfl
    exact inside_slot place key
  · by_cases same : other = key
    · subst same
      rw [stored, Option.some.injEq] at stored'
      subst stored'
      refine ⟨used, shelved_put fun node there => ?_, content, written, parsed⟩
      rcases held.owned_put total written stored left ⟨[shelf other], by simp, rfl⟩ there with
        made | ⟨_, above, _, -, same, -⟩
      · exact .inl made
      · exact .inr ⟨above, same⟩
    · rw [left other same] at stored'
      obtain ⟨used', shelved, content', file, parsed'⟩ := held.filed other s' stored'
      refine ⟨used', total.kept (shelf_ne other) shelved, content', total.kept ?_ file, parsed'⟩
      exact fun equal => same (slot_inj apart used' used equal)

theorem Matches.clear (held : Matches keys origin root place contents d)
    (ready : Ready origin root place) :
    Matches keys origin root place (fun _ => none) { d with tree := d.tree.removeBelow place } where
  root_eq := held.root_eq
  grown := held.grown.trans (Tree.grown_removeBelow d.tree place)
  filed _ _ := nofun
  owned other node inside there := by
    simp [Tree.node?_removeBelow inside (held.free ready inside)] at there

theorem encard_mem {α : Type} {l : List α} (nodup : l.Nodup) : {a | a ∈ l}.encard = l.length := by
  classical
  rw [← List.coe_toFinset, Set.encard_coe_eq_coe_finsetCard, List.toFinset_card_of_nodup nodup]

/-- There are as many files as keys with contents. -/
theorem Matches.files (held : Matches keys origin root place contents d)
    (apart : Set.InjOn Sha256.hex keys) :
    {key | (contents key).isSome = true}.encard =
      (d.tree.below place).countP (·.2 ≠ .directory) := by
  have injective : Set.InjOn slot {key | (contents key).isSome = true} := by
    intro key some other some' same
    obtain ⟨s, stored⟩ := Option.isSome_iff_exists.mp some
    obtain ⟨s', stored'⟩ := Option.isSome_iff_exists.mp some'
    exact apart (held.filed key s stored).1 (held.filed other s' stored').1 (hex_of_slot same)
  have nodup : (((d.tree.below place).filter (·.2 ≠ .directory)).map Prod.fst).Nodup :=
    (Tree.nodup_below d.tree place).sublist (List.filter_sublist.map _)
  rw [← injective.encard_image, List.countP_eq_length_filter, ← List.length_map Prod.fst,
    ← encard_mem nodup]
  congr 1
  ext names
  simp only [Set.mem_image, Set.mem_ofPred_eq, List.mem_map, List.mem_filter, Prod.exists,
    exists_and_right, exists_eq_right, Tree.mem_below, decide_eq_true_eq]
  constructor
  · rintro ⟨key, some, rfl⟩
    obtain ⟨s, stored⟩ := Option.isSome_iff_exists.mp some
    obtain ⟨-, -, content, file, -⟩ := held.filed key s stored
    exact ⟨_, ⟨slot_ne_nil key, file⟩, by simp⟩
  · rintro ⟨node, ⟨some, there⟩, file⟩
    have inside : Tree.Inside place (place ++ names) := ⟨names, some, rfl⟩
    rcases held.owned _ node inside there with made | ⟨content, key, s, -, same, stored⟩
    · exact absurd made file
    · exact ⟨key, by rw [stored]; rfl, (List.append_cancel_left same).symm⟩

theorem Matches.at (held : Matches keys origin root place contents d) (time : Instant) :
    Matches keys origin root place contents { d with now := time } :=
  ⟨held.root_eq, held.grown, held.filed, held.owned⟩

theorem Matches.get (held : Matches keys origin root place contents d)
    (ready : Ready origin root place) (apart : Set.InjOn Sha256.hex keys) {key : Bytes}
    (used : key ∈ keys) (success : ∀ fault, (d.get key).1 ≠ .failed fault) :
    Matches keys origin root place
      (fun other => Use.leaves other (contents other) ⟨d.now, .get key⟩) (d.get key).2 := by
  cases stored : contents key with
  | none =>
    have left : Use.leaves key (contents key) ⟨d.now, .get key⟩ = contents key := by
      simp [Use.leaves, stored]
    rw [Use.leaves_eq_self ⟨d.now, .get key⟩ contents (fun other same => Eq.symm same) left]
    rcases held.get_of_none ready apart used stored with found | ⟨fault, found⟩ <;> rw [found] <;>
      exact held
  | some s =>
    have usable : Tree.Usable (pathOf d.root key) := by
      by_contra unusable
      obtain ⟨fault, failed⟩ := get_of_not_usable unusable
      exact success fault (by rw [failed])
    rw [held.get_of_some ready stored usable]
    split
    next ended =>
      refine held.remove ready apart used ?_ fun other differ => ?_
      · simp [Use.leaves, stored, ended]
      · simp [Use.leaves, Ne.symm differ]
    next good =>
      have left : Use.leaves key (contents key) ⟨d.now, .get key⟩ = contents key := by
        simp [Use.leaves, stored, good]
      rw [Use.leaves_eq_self ⟨d.now, .get key⟩ contents (fun other same => Eq.symm same) left]
      exact held

theorem Matches.delete (held : Matches keys origin root place contents d)
    (ready : Ready origin root place) (apart : Set.InjOn Sha256.hex keys) {key : Bytes}
    (used : key ∈ keys) (success : (d.delete key).1 = none) {time : Instant} :
    Matches keys origin root place
      (fun other => Use.leaves other (contents other) ⟨time, .delete key⟩) (d.delete key).2 := by
  cases taken : d.tree.unlink (pathOf d.root key) with
  | ok t =>
    obtain ⟨found, placed, rfl⟩ := Tree.eq_of_unlink taken
    rw [held.root_eq, pathOf_eq] at placed
    obtain rfl := held.holds.place_eq ready.toVacant (slot_ne_nil key) (isName_slot key) placed
    simp only [Directory.delete, taken]
    refine held.remove ready apart used ?_ fun other differ => ?_
    · simp [Use.leaves]
    · simp [Use.leaves, Ne.symm differ]
  | error e =>
    have missing : e.refusal = .missing := by
      simpa [Directory.delete, taken, PathError.isMissing] using success
    have nothing : contents key = none := by
      by_contra some
      obtain ⟨s, stored⟩ := Option.ne_none_iff_exists'.mp some
      by_cases usable : Tree.Usable (pathOf d.root key)
      · obtain ⟨content, -, found⟩ := held.find_slot ready stored usable
        simp [Tree.unlink, found] at taken
      · obtain ⟨refusal, other, refused⟩ := refused_of_not_usable usable
        simp only [Tree.unlink, refused, Except.error.injEq] at taken
        subst taken
        exact other missing
    have left : Use.leaves key (contents key) ⟨time, .delete key⟩ = contents key := by
      simp [Use.leaves, nothing]
    rw [Use.leaves_eq_self ⟨time, .delete key⟩ contents (fun other same => Eq.symm same) left]
    simp only [Directory.delete, taken]
    exact held

theorem replaceFile_of_success {t : Tree} {path : Path} {content : Bytes}
    (success : (replaceFile t path content).1 = none) :
    ∃ dir, t.place true path.dir = .ok dir ∧
      replaceFile t path content = (none, t.put (dir ++ [path.base]) (.file content)) := by
  rw [replaceFile] at success ⊢
  split at success
  · cases success
  next dir placed =>
    dsimp only at success
    split at success
    · cases success
    next free => exact ⟨dir, placed, if_neg free⟩

theorem set_eq (d : Directory) (key data : Bytes) (lifetime : Duration) :
    d.set key data lifetime = match Entry.text? (Stored.entry ⟨data, d.now, lifetime⟩) with
      | none => (some (.plain (utf8 "year outside of range")), d)
      | some content =>
        match d.tree.makeDirectories (pathOf d.root key).dir with
        | .error e => (some e.fault, d)
        | .ok t => (replaceFile t (pathOf d.root key) content).map id fun tree =>
            { d with tree := tree } := by
  have expires : (if 0 < lifetime then d.now.add lifetime else .zero) =
      Stored.expires ⟨data, d.now, lifetime⟩ := rfl
  unfold Directory.set
  rw [expires]
  dsimp only [Stored.entry]
  generalize Stored.expires ⟨data, d.now, lifetime⟩ = expires
  cases Entry.text? ⟨data, expires⟩ with
  | none => rfl
  | some content => cases d.tree.makeDirectories (pathOf d.root key).dir <;> rfl

/-- Storing that succeeds makes the directories it needs and writes one file. -/
theorem set_of_success {key data : Bytes} {lifetime : Duration}
    (success : (d.set key data lifetime).1 = none) :
    ∃ content t dir, Entry.text? (Stored.entry ⟨data, d.now, lifetime⟩) = some content ∧
      d.tree.makeDirectories (pathOf d.root key).dir = .ok t ∧
      t.place true (pathOf d.root key).dir = .ok dir ∧
      (d.set key data lifetime).2 =
        { d with tree := t.put (dir ++ [(pathOf d.root key).base]) (.file content) } := by
  rw [set_eq] at success ⊢
  cases written : Entry.text? (Stored.entry ⟨data, d.now, lifetime⟩) with
  | none => simp [written] at success
  | some content =>
    rw [written] at success
    cases made : d.tree.makeDirectories (pathOf d.root key).dir with
    | error e => simp [made] at success
    | ok t =>
      rw [made] at success
      obtain ⟨dir, placed, replaced⟩ := replaceFile_of_success success
      exact ⟨content, t, dir, rfl, rfl, placed, by simp only [replaced, Prod.map_apply]⟩

theorem Matches.set (held : Matches keys origin root place contents d)
    (ready : Ready origin root place) (apart : Set.InjOn Sha256.hex keys) {key data : Bytes}
    (used : key ∈ keys) {lifetime : Duration} (success : (d.set key data lifetime).1 = none) :
    Matches keys origin root place
      (fun other => Use.leaves other (contents other) ⟨d.now, .set key data lifetime⟩)
      (d.set key data lifetime).2 := by
  obtain ⟨content, t, dir, written, made, placed, result⟩ := set_of_success success
  have wider := Tree.grown_makeDirectories made
  have lasting : Holds (fun _ _ => True) origin root place { d with tree := t } :=
    held.holds.change wider (fun _ => False.elim) (fun _ _ => False.elim) (fun _ _ _ => False.elim)
  have shelved : ∀ name ∈ [shelf key], Path.IsName name := fun name member =>
    isName_slot key name (by simp_all [slot])
  rw [held.root_eq, dir_pathOf] at placed
  obtain rfl := lasting.place_eq ready.toVacant (List.cons_ne_nil _ _) shelved placed
  have file : place ++ [shelf key] ++ [leaf key] = place ++ slot key := by simp [slot]
  rw [result, base_pathOf, file]
  refine held.put ready apart used wider (Entry.parse?_of_text? written) ?_ fun other differ => ?_
  · simp [Use.leaves]
  · simp [Use.leaves, Ne.symm differ]

theorem clear_of_find (itself : d.tree.find false d.root = .ok (place, .directory)) :
    d.clear = ((d.tree.below place).countP (·.2 ≠ .directory),
      { d with tree := d.tree.removeBelow place }) := by
  rw [Directory.clear, itself]

/-- Each use that succeeds does to the directory what it does to its contents. -/
theorem Matches.perform (held : Matches keys origin root place contents d)
    (ready : Ready origin root place) (apart : Set.InjOn Sha256.hex keys)
    (itself : origin.find false root = .ok (place, .directory)) {use : Use}
    (used : ∀ key, use.operation.key? = some key → key ∈ keys)
    (success : (d.perform use).1.IsSuccess) :
    Matches keys origin root place (fun key => Use.leaves key (contents key) use)
      (d.perform use).2 := by
  obtain ⟨time, operation⟩ := use
  have held := held.at time
  cases operation with
  | set key data lifetime => exact held.set ready apart (used key rfl) success
  | get key => exact held.get ready apart (used key rfl) success
  | delete key => exact held.delete ready apart (used key rfl) success
  | clear =>
    have found := Tree.find_grown held.grown ready.vacant itself
    rw [← held.root_eq] at found
    rw [Directory.perform, clear_of_find found]
    exact held.clear ready

theorem after_concat (history : List Use) (use : Use) :
    d.after (history ++ [use]) = ((d.after history).perform use).2 := by
  rw [after, List.foldl_append]
  rfl

/-- All that is done in a run succeeds. -/
def Succeeds (d : Directory) (history : List Use) : Prop :=
  ∀ before use after, history = before ++ use :: after →
    ((d.after before).perform use).1.IsSuccess

theorem Succeeds.of_append {before after : List Use} (succeeds : d.Succeeds (before ++ after)) :
    d.Succeeds before := by
  rintro earlier use later rfl
  exact succeeds earlier use (later ++ after) (by simp)

/-- A run of uses that succeed leaves what they would leave in a map. -/
theorem matches_after (ready : Ready d.tree d.root place) (apart : Set.InjOn Sha256.hex keys)
    (itself : d.tree.find false d.root = .ok (place, .directory)) {history : List Use}
    (used : ∀ use ∈ history, ∀ key, use.operation.key? = some key → key ∈ keys)
    (succeeds : d.Succeeds history) :
    Matches keys d.tree d.root place (Cache.held history) (d.after history) := by
  -- By induction on the history from its end, as each use starts from what all earlier ones left.
  induction history using List.reverseRecOn with
  | nil => exact ready.matches
  | append_singleton earlier use ih =>
    have matched := ih (fun use member => used use (by simp [member])) succeeds.of_append
    have next := matched.perform ready apart itself (used use (by simp)) (succeeds earlier use [] rfl)
    rw [after_concat]
    rw [show Cache.held (earlier ++ [use]) = _ from funext fun _ => held_concat]
    exact next

theorem Matches.hit_iff (held : Matches keys origin root place contents d)
    (ready : Ready origin root place) (apart : Set.InjOn Sha256.hex keys) {key : Bytes}
    (used : key ∈ keys) {data : Bytes} :
    (d.get key).1 = .hit data ↔ Tree.Usable (pathOf d.root key) ∧
      ∃ s, contents key = some s ∧ ¬ s.IsOver d.now ∧ s.data = data := by
  by_cases usable : Tree.Usable (pathOf d.root key)
  · cases stored : contents key with
    | none =>
      rcases held.get_of_none ready apart used stored with found | ⟨fault, found⟩ <;> simp [found]
    | some s =>
      rw [held.get_of_some ready stored usable]
      by_cases ended : s.IsOver d.now <;> simp [ended, usable]
  · obtain ⟨fault, failed⟩ := get_of_not_usable usable
    simp [failed, usable]

end Uses

end StackBound.Cache.Directory
