import StackBound.Proofs.Cache.Entry
import StackBound.Proofs.Cache.Key
import StackBound.Proofs.Tree

/-! What a cache directory answers. If all that is ever stored under keys with one hash is right for
each of them, then whatever is found under a key is right for it, through any number of requests and
at any time. The directory may be reached through links, and it has to be empty at first. -/
namespace StackBound.Cache.Directory

section Slots

/-- The name of the directory that holds an entry. -/
def shelf (key : Bytes) : Bytes := (Sha256.hex key).take 2

def leaf (key : Bytes) : Bytes := (Sha256.hex key).drop 2 ++ utf8 ".json"

def slot (key : Bytes) : List Bytes := [shelf key, leaf key]

theorem slot_ne_nil (key : Bytes) : slot key ≠ [] := by
  simp [slot]

theorem hex_of_slot {key other : Bytes} (same : slot key = slot other) :
    Sha256.hex key = Sha256.hex other := by
  simp only [slot, shelf, leaf, List.cons.injEq, and_true, List.append_left_inj] at same
  rw [← List.take_append_drop 2 (Sha256.hex key), same.1, same.2, List.take_append_drop]

/-- A text that starts with a digit of a hash and has no slash names something. -/
theorem isName_of_digit {text : Bytes} {first : UInt8} (starts : text.head? = some first)
    (digit : Bytes.IsHexDigit first) (free : Path.slash ∉ text) : Path.IsName text := by
  have other {text' : Bytes} (outside : ∀ b ∈ text'.head?, ¬ Bytes.IsHexDigit b) : text ≠ text' := by
    rintro rfl
    exact outside first starts digit
  exact ⟨other (by simp), other (by simp [Path.dot, Bytes.IsHexDigit]),
    other (by simp [Path.dotDot, Bytes.IsHexDigit]), free⟩

theorem slash_not_mem_hex (key : Bytes) : Path.slash ∉ Sha256.hex key := by
  intro member
  exact absurd (Sha256.isHexDigit_of_mem_hex member) (by simp [Path.slash, Bytes.IsHexDigit])

theorem head?_slot {key name : Bytes} (member : name ∈ slot key) :
    ∃ first, name.head? = some first ∧ Bytes.IsHexDigit first := by
  have digit {b : UInt8} (inside : b ∈ Sha256.hex key) := Sha256.isHexDigit_of_mem_hex inside
  have long := Sha256.length_hex key
  simp only [slot, shelf, leaf, List.mem_cons, List.not_mem_nil, or_false] at member
  generalize Sha256.hex key = hash at *
  match hash, long with
  | a :: b :: c :: rest, _ =>
    rcases member with rfl | rfl
    · exact ⟨a, rfl, digit (by simp)⟩
    · exact ⟨c, rfl, digit (by simp)⟩

theorem isName_slot (key : Bytes) : ∀ name ∈ slot key, Path.IsName name := by
  intro name member
  obtain ⟨first, starts, digit⟩ := head?_slot member
  refine isName_of_digit starts digit fun slash => slash_not_mem_hex key ?_
  simp only [slot, shelf, leaf, List.mem_cons, List.not_mem_nil, or_false] at member
  rcases member with rfl | rfl
  · exact List.mem_of_mem_take slash
  · rcases List.mem_append.mp slash with inside | ending
    · exact List.mem_of_mem_drop inside
    · exact absurd ending (by decide)

/-- A name for a file in progress is no name of an entry. -/
theorem temporary_not_slot (key : Bytes) (n : Nat) : temporary.name n ∉ slot key := by
  intro member
  obtain ⟨first, starts, digit⟩ := head?_slot member
  have point : (temporary.name n).head? = some 46 := rfl
  rw [point, Option.some.injEq] at starts
  exact absurd (starts ▸ digit) (by simp [Bytes.IsHexDigit])

theorem pathOf_eq (root : Path) (key : Bytes) :
    pathOf root key = Path.spelled root.isRooted (root.parts ++ slot key) :=
  Path.join_eq_spelled root (slot_ne_nil key) (isName_slot key)

theorem resolved_shelf (root : Path) (key : Bytes) :
    Path.Resolved root.isRooted (root.parts ++ [shelf key]).reverse :=
  Path.resolved_append (Path.resolved_parts root) _ (by simpa using isName_slot key _ (.head _))

theorem dir_pathOf (root : Path) (key : Bytes) :
    (pathOf root key).dir = Path.spelled root.isRooted (root.parts ++ [shelf key]) := by
  have file := isName_slot key (leaf key) (by simp [slot])
  rw [pathOf_eq, slot, List.append_cons]
  exact Path.dir_spelled (resolved_shelf root key) (by simp) file

theorem base_pathOf (root : Path) (key : Bytes) : (pathOf root key).base = leaf key := by
  have file := isName_slot key (leaf key) (by simp [slot])
  rw [pathOf_eq, slot, List.append_cons]
  exact Path.base_spelled (resolved_shelf root key) (by simp) file

end Slots

/-- A tree in which a path leads to an empty directory. -/
structure Vacant (t : Tree) (root : Path) (place : Place) : Prop where
  leads : Tree.Leads t Tree.linkLimit (t.origin root.isRooted) root.parts place
  vacant : ∀ other, Tree.Inside place other → t.node? other = none

def IsEmpty (d : Directory) : Prop :=
  ∃ place, d.tree.find true d.root.clean = .ok (place, .directory) ∧
    ∀ other, Tree.Inside place other → d.tree.node? other = none

theorem IsEmpty.vacant {d : Directory} (empty : d.IsEmpty) : ∃ place, Vacant d.tree d.root place := by
  obtain ⟨place, found, vacant⟩ := empty
  have walked := Tree.walk_of_place (Path.resolved_parts d.root) (Tree.place_of_find found).1
  exact ⟨place, Tree.leads_of_walk walked, vacant⟩

/-- A cache that was empty at first and holds nothing but right answers since. -/
structure Holds (right : Bytes → Bytes → Prop) (origin : Tree) (root : Path) (place : Place)
    (d : Directory) : Prop where
  root_eq : d.root = root
  grown : Tree.Grown (Tree.Inside place) origin d.tree
  solid : ∀ other target, Tree.Inside place other → d.tree.node? other ≠ some (.link target)
  entries : ∀ key content entry, d.tree.node? (place ++ slot key) = some (.file content) →
    Entry.parse? content = some entry → right key entry.data

section Requests

variable {right : Bytes → Bytes → Prop} {origin : Tree} {root : Path} {place : Place} {d : Directory}

theorem Vacant.holds {d : Directory} (vacant : Vacant d.tree d.root place) :
    Holds right d.tree d.root place d where
  root_eq := rfl
  grown := .refl d.tree
  solid other target inside := by simp [vacant.vacant other inside]
  entries key content entry stored := by
    simp [vacant.vacant (place ++ slot key) ⟨slot key, slot_ne_nil key, rfl⟩] at stored

/-- Below the directory, names lead where they say. -/
theorem Holds.place_eq (holds : Holds right origin root place d) (vacant : Vacant origin root place)
    {names : List Bytes} (some : names ≠ []) (named : ∀ name ∈ names, Path.IsName name)
    {follow : Bool} {found : Place}
    (placed : d.tree.place follow (Path.spelled root.isRooted (root.parts ++ names)) = .ok found) :
    found = place ++ names := by
  have start : d.tree.origin root.isRooted = origin.origin root.isRooted := by
    rw [Tree.origin, holds.grown.current, Tree.origin]
  -- The way to the directory may go through links, but from there on there are none.
  have leads := vacant.leads.grown holds.grown vacant.vacant
  obtain ⟨left, same⟩ := leads.walk_append
  have resolved := Path.resolved_append (Path.resolved_parts root) names named
  have walked := Tree.walk_of_place resolved placed
  rw [start, same follow names some] at walked
  exact Tree.walk_names named holds.solid walked

/-- A change is harmless if it stays inside the directory, makes no link, and writes only what is
right. -/
theorem Holds.change (holds : Holds right origin root place d) {touched : Place → Prop} {t : Tree}
    (grown : Tree.Grown touched d.tree t) (inside : ∀ other, touched other → Tree.Inside place other)
    (solid : ∀ other target, touched other → t.node? other ≠ some (.link target))
    (entries : ∀ key content entry, touched (place ++ slot key) →
      t.node? (place ++ slot key) = some (.file content) → Entry.parse? content = some entry →
      right key entry.data) :
    Holds right origin root place { d with tree := t } where
  root_eq := holds.root_eq
  grown := holds.grown.trans (grown.mono inside)
  solid other target below link := by
    by_cases near : touched other
    · exact solid other target near link
    rcases grown.elsewhere other near with same | ⟨-, made⟩
    · exact holds.solid other target below (same ▸ link)
    · simp [made] at link
  entries key content entry stored read := by
    by_cases near : touched (place ++ slot key)
    · exact entries key content entry near stored read
    rcases grown.elsewhere _ near with same | ⟨-, made⟩
    · exact holds.entries key content entry (same ▸ stored) read
    · simp [made] at stored

theorem Holds.drop (holds : Holds right origin root place d) (vacant : Vacant origin root place)
    (key : Bytes) : Holds right origin root place (d.drop (pathOf d.root key)) := by
  rw [Directory.drop]
  split
  next t taken =>
    obtain ⟨found, placed, rfl⟩ := Tree.eq_of_unlink taken
    rw [holds.root_eq, pathOf_eq] at placed
    obtain rfl := holds.place_eq vacant (slot_ne_nil key) (isName_slot key) placed
    have inside (other : Place) (below : place ++ slot key <+: other) : Tree.Inside place other := by
      obtain ⟨rest, rfl⟩ := below
      exact ⟨slot key ++ rest, by simp [slot], by simp⟩
    refine holds.change (Tree.grown_remove ..) inside (fun other target below link => ?_)
      (fun key' content entry below stored read => ?_)
    · rcases Tree.node?_remove d.tree (place ++ slot key) other with same | ⟨-, gone⟩
      · exact holds.solid other target (inside other below) (same ▸ link)
      · simp [gone] at link
    · rcases Tree.node?_remove d.tree (place ++ slot key) (place ++ slot key') with same | ⟨-, gone⟩
      · exact holds.entries key' content entry (same ▸ stored) read
      · simp [gone] at stored
  next => exact holds

/-- What is found is right, and looking for it changes nothing about that. -/
theorem Holds.get (holds : Holds right origin root place d) (vacant : Vacant origin root place)
    (key : Bytes) :
    Holds right origin root place (d.get key).2 ∧
      ∀ data, (d.get key).1 = .hit data → right key data := by
  rw [Directory.get]
  split
  · refine ⟨holds, fun data hit => ?_⟩
    simp only at hit
    split at hit <;> cases hit
  next content read =>
    obtain ⟨found, placed, stored⟩ := Tree.place_of_read read
    rw [holds.root_eq, pathOf_eq] at placed
    obtain rfl := holds.place_eq vacant (slot_ne_nil key) (isName_slot key) placed
    split
    · exact ⟨holds.drop vacant key, nofun⟩
    next entry parsed =>
      split
      · exact ⟨holds.drop vacant key, nofun⟩
      · refine ⟨holds, fun data hit => ?_⟩
        cases hit
        exact holds.entries key content entry stored parsed

theorem Holds.put (holds : Holds right origin root place d) {names : List Bytes} (some : names ≠ [])
    {content : Bytes} (entries : ∀ key entry, slot key = names →
      Entry.parse? content = .some entry → right key entry.data) :
    Holds right origin root place { d with tree := d.tree.put (place ++ names) (.file content) } := by
  have written := Tree.node?_put d.tree (place ++ names) (.file content)
  refine holds.change (Tree.grown_put ..) ?_ ?_ ?_
  · rintro other rfl
    exact ⟨names, some, rfl⟩
  · rintro other target rfl link
    rw [link] at written
    simp at written
  · intro key content' entry same stored read
    rw [same] at stored
    rw [stored] at written
    simp only [Option.some.injEq, Node.file.injEq, reduceCtorEq, or_false] at written
    subst written
    exact entries key entry (List.append_cancel_left same) read

theorem Holds.replaceFile (holds : Holds right origin root place d)
    (vacant : Vacant origin root place) {key content : Bytes}
    (safe : ∀ other entry, slot other = slot key → Entry.parse? content = some entry →
      right other entry.data) :
    Holds right origin root place
      { d with tree := (replaceFile d.tree (pathOf root key) content).2 } := by
  have shelved : ∀ name ∈ [shelf key], Path.IsName name := fun name member =>
    isName_slot key name (by simp_all [slot])
  rw [Directory.replaceFile, dir_pathOf, base_pathOf]
  split
  · exact holds
  next dir placed =>
    obtain rfl := holds.place_eq vacant (by simp) shelved placed
    have filed : place ++ [shelf key] ++ [leaf key] = place ++ slot key := by simp [slot]
    simp only [filed]
    split
    · -- A directory in the place of the file leaves the temporary file behind, which is no entry.
      obtain ⟨n, unfinished⟩ : ∃ n, temporary d.tree (place ++ [shelf key]) =
          place ++ [shelf key, temporary.name n] := ⟨_, List.append_assoc ..⟩
      rw [unfinished]
      refine holds.put (by simp) fun other entry same _ => ?_
      exact absurd (by simp [same]) (temporary_not_slot other n)
    · exact holds.put (slot_ne_nil key) safe

/-- What is stored may be found under every key with the same hash, so it has to be right for all. -/
theorem Holds.set (holds : Holds right origin root place d) (vacant : Vacant origin root place)
    {key data : Bytes} (safe : ∀ other, Sha256.hex other = Sha256.hex key → right other data)
    (lifetime : Duration) : Holds right origin root place (d.set key data lifetime).2 := by
  unfold Directory.set
  generalize (if 0 < lifetime then d.now.add lifetime else .zero) = expires
  dsimp only
  split
  · exact holds
  next content written =>
    split
    · exact holds
    next t made =>
      have wider : Holds right origin root place { d with tree := t } :=
        holds.change (Tree.grown_makeDirectories made) (fun _ => False.elim) (fun _ _ => False.elim)
          (fun _ _ _ => False.elim)
      rw [holds.root_eq] at wider ⊢
      refine wider.replaceFile vacant fun other entry same parsed => ?_
      rw [Entry.data_of_parse? written parsed]
      exact safe other (hex_of_slot same)

end Requests

end StackBound.Cache.Directory
