import StackBound.Proofs.Path
import StackBound.Tree

/-! Walking a tree that changes. Making directories, writing a file and taking one away leave alone
what is not concerned, and so a path that led to an empty directory still leads there, whatever
becomes of the inside of that directory. -/
namespace StackBound.Tree

section Steps

variable {t : Tree} {follow : Bool} {links : Nat} {here : Place} {part : Bytes} {rest : List Bytes}

/-- A component that is neither empty nor dots, and short enough to be the name of something. -/
def Enters (part : Bytes) : Prop :=
  ¬(part = [] ∨ part = Path.dot) ∧ ¬ part = Path.dotDot ∧ ¬ longestName < part.length

theorem walk_nil : t.walk follow links here [] = .ok here := by
  rw [walk]

theorem walk_stay (directory : t.node? here = some .directory) (stay : part = [] ∨ part = Path.dot) :
    t.walk follow links here (part :: rest) = t.walk follow links here rest := by
  rw [walk]
  simp only [directory, stay, ↓reduceIte]

theorem walk_lead (directory : t.node? here = some .directory) {lead : List Bytes}
    (stay : ∀ part ∈ lead, part = [] ∨ part = Path.dot) :
    t.walk follow links here (lead ++ rest) = t.walk follow links here rest := by
  induction lead with
  | nil => rfl
  | cons part more ih =>
    obtain ⟨first, later⟩ := List.forall_mem_cons.mp stay
    rw [List.cons_append, walk_stay directory first, ih later]

theorem walk_up (directory : t.node? here = some .directory) :
    t.walk follow links here (Path.dotDot :: rest) = t.walk follow links here.dropLast rest := by
  rw [walk]
  simp [directory, Path.dotDot, Path.dot]

theorem walk_enter (directory : t.node? here = some .directory) (enters : Enters part)
    (solid : ∀ target, t.node? (here ++ [part]) ≠ some (.link target)) :
    t.walk follow links here (part :: rest) = t.walk follow links (here ++ [part]) rest := by
  obtain ⟨named, notUp, short⟩ := enters
  rw [walk]
  simp only [directory, named, notUp, short, ↓reduceIte]

theorem walk_link (directory : t.node? here = some .directory) (enters : Enters part)
    {target : Path} (link : t.node? (here ++ [part]) = some (.link target))
    (followed : ¬(rest = [] ∧ ¬ follow = true)) :
    t.walk follow (links + 1) here (part :: rest) =
      t.walk follow links (start here target) (target.split Path.slash ++ rest) := by
  obtain ⟨named, notUp, short⟩ := enters
  rw [walk]
  simp only [directory, named, notUp, short, ↓reduceIte, link, followed]

end Steps

def Inside (place other : Place) : Prop := ∃ rest, rest ≠ [] ∧ other = place ++ rest

/-- Away from the places that were touched, a tree is what it was, but for directories made where
nothing was. -/
structure Grown (touched : Place → Prop) (before after : Tree) : Prop where
  current : after.current = before.current
  elsewhere : ∀ place, ¬ touched place → after.node? place = before.node? place ∨
    before.node? place = none ∧ after.node? place = some .directory

namespace Grown

variable {touched : Place → Prop} {t t' t'' : Tree}

theorem refl (t : Tree) : Grown touched t t := ⟨rfl, fun _ _ => .inl rfl⟩

theorem trans (first : Grown touched t t') (second : Grown touched t' t'') : Grown touched t t'' := by
  refine ⟨second.current.trans first.current, fun place away => ?_⟩
  rcases first.elsewhere place away with same | ⟨missing, made⟩
  · rw [← same]
    exact second.elsewhere place away
  · rcases second.elsewhere place away with same | ⟨gone, -⟩
    · exact .inr ⟨missing, same.trans made⟩
    · simp [gone] at made

theorem kept (grown : Grown touched t t') {place : Place} {node : Node} (away : ¬ touched place)
    (there : t.node? place = some node) : t'.node? place = some node := by
  rcases grown.elsewhere place away with same | ⟨missing, -⟩
  · rw [same, there]
  · simp [there] at missing

theorem isSome (grown : Grown touched t t') {place : Place} (away : ¬ touched place)
    (there : (t.node? place).isSome = true) : (t'.node? place).isSome = true := by
  rcases grown.elsewhere place away with same | ⟨-, made⟩
  · rw [same, there]
  · rw [made]
    rfl

theorem mono {more : Place → Prop} (grown : Grown touched t t')
    (covered : ∀ place, touched place → more place) : Grown more t t' :=
  ⟨grown.current, fun place away => grown.elsewhere place fun within => away (covered place within)⟩

end Grown

theorem not_inside_of_walk {t : Tree} {place here : Place} {follow : Bool} {links : Nat}
    {pending : List Bytes} (vacant : ∀ other, Inside place other → t.node? other = none)
    (walked : t.walk follow links here pending = .ok place) : ¬ Inside place here := by
  intro inside
  cases pending with
  | nil =>
    rw [walk_nil] at walked
    cases walked
    obtain ⟨rest, some, same⟩ := inside
    exact some (List.self_eq_append_right.mp same)
  | cons part rest =>
    rw [walk, vacant here inside] at walked
    cases walked

/-- A walk that ends at an empty directory goes there in a changed tree too, if only the inside of the
directory was changed and directories were added elsewhere. -/
theorem walk_grown {t t' : Tree} {place here : Place} {follow : Bool} {links : Nat}
    {pending : List Bytes} (grown : Grown (Inside place) t t')
    (vacant : ∀ other, Inside place other → t.node? other = none)
    (solid : follow = true ∨ ∀ target, t.node? place ≠ some (.link target))
    (walked : t.walk follow links here pending = .ok place) :
    t'.walk follow links here pending = .ok place := by
  have same {other : Place} {node : Node} (there : t.node? other = some node) :
      t'.node? other = some node :=
    grown.kept (fun inside => by simp [vacant other inside] at there) there
  fun_induction walk t follow links here pending with
  | case1 => exact walked ▸ walk_nil
  | case5 links here part rest there stays ih => rw [walk_stay (same there) stays, ih walked]
  | case6 links here rest there _ ih => rw [walk_up (same there), ih walked]
  | case8 links here part rest there named notUp short target link last =>
    cases walked
    rcases solid with rfl | solid
    · exact absurd rfl last.2
    · exact absurd link (solid target)
  | case10 here part rest there named notUp short target link followed links ih =>
    rw [walk_link (same there) ⟨named, notUp, short⟩ (same link) followed, ih walked]
  | case11 links here part rest there named notUp short enters ih =>
    refine (walk_enter (same there) ⟨named, notUp, short⟩ fun target link => ?_).trans (ih walked)
    -- Nothing was inside the directory, so a walk that got past this place did not go there.
    rcases grown.elsewhere _ (not_inside_of_walk vacant walked) with kept | ⟨-, made⟩
    · exact enters target (kept ▸ link)
    · simp [made] at link
  | _ => cases walked

/-- Walking components from a place and following every link, one ends at another place. -/
inductive Leads (t : Tree) : Nat → Place → List Bytes → Place → Prop
  | arrive {links : Nat} {here : Place} : Leads t links here [] here
  | stay {links : Nat} {here place : Place} {part : Bytes} {rest : List Bytes}
      (directory : t.node? here = some .directory) (stays : part = [] ∨ part = Path.dot)
      (onward : Leads t links here rest place) : Leads t links here (part :: rest) place
  | up {links : Nat} {here place : Place} {rest : List Bytes}
      (directory : t.node? here = some .directory)
      (onward : Leads t links here.dropLast rest place) : Leads t links here (Path.dotDot :: rest) place
  | enter {links : Nat} {here place : Place} {part : Bytes} {rest : List Bytes}
      (directory : t.node? here = some .directory) (enters : Enters part)
      (solid : ∀ target, t.node? (here ++ [part]) ≠ some (.link target))
      (onward : Leads t links (here ++ [part]) rest place) : Leads t links here (part :: rest) place
  | link {links : Nat} {here place : Place} {part : Bytes} {rest : List Bytes} {target : Path}
      (directory : t.node? here = some .directory) (enters : Enters part)
      (linked : t.node? (here ++ [part]) = some (.link target))
      (onward : Leads t links (start here target) (target.split Path.slash ++ rest) place) :
      Leads t (links + 1) here (part :: rest) place

theorem leads_of_walk {t : Tree} {links : Nat} {here place : Place} {pending : List Bytes}
    (walked : t.walk true links here pending = .ok place) : Leads t links here pending place := by
  fun_induction walk t true links here pending with
  | case1 => cases walked; exact .arrive
  | case5 links here part rest directory stays ih => exact .stay directory stays (ih walked)
  | case6 links here rest directory _ ih => exact .up directory (ih walked)
  | case8 links here part rest directory named notUp short target link last =>
    exact absurd rfl last.2
  | case10 here part rest directory named notUp short target link _ links ih =>
    exact .link directory ⟨named, notUp, short⟩ link (ih walked)
  | case11 links here part rest directory named notUp short solid ih =>
    exact .enter directory ⟨named, notUp, short⟩ solid (ih walked)
  | _ => cases walked

namespace Leads

variable {t : Tree} {links : Nat} {here place : Place} {pending : List Bytes}

/-- What is walked after some components is walked from where they lead. -/
theorem walk_append (leads : Leads t links here pending place) :
    ∃ left, ∀ follow more, more ≠ [] →
      t.walk follow links here (pending ++ more) = t.walk follow left place more := by
  induction leads with
  | @arrive links here => exact ⟨links, fun _ _ _ => rfl⟩
  | stay directory stays _ ih =>
    obtain ⟨left, same⟩ := ih
    refine ⟨left, fun follow more some => ?_⟩
    rw [List.cons_append, walk_stay directory stays, same follow more some]
  | up directory _ ih =>
    obtain ⟨left, same⟩ := ih
    refine ⟨left, fun follow more some => ?_⟩
    rw [List.cons_append, walk_up directory, same follow more some]
  | enter directory enters solid _ ih =>
    obtain ⟨left, same⟩ := ih
    refine ⟨left, fun follow more some => ?_⟩
    rw [List.cons_append, walk_enter directory enters solid, same follow more some]
  | link directory enters linked _ ih =>
    obtain ⟨left, same⟩ := ih
    refine ⟨left, fun follow more some => ?_⟩
    rw [List.cons_append, walk_link directory enters linked (by simp [some]), ← List.append_assoc,
      same follow more some]

theorem walk_eq (leads : Leads t links here pending place) :
    t.walk true links here pending = .ok place := by
  induction leads with
  | arrive => exact walk_nil
  | stay directory stays _ ih => rw [walk_stay directory stays, ih]
  | up directory _ ih => rw [walk_up directory, ih]
  | enter directory enters solid _ ih => rw [walk_enter directory enters solid, ih]
  | link directory enters linked _ ih => rw [walk_link directory enters linked (by simp), ih]

/-- A way to an empty directory stays the way there while only the inside of the directory changes
and directories are added elsewhere. -/
theorem grown {t' : Tree} (grown : Grown (Inside place) t t')
    (vacant : ∀ other, Inside place other → t.node? other = none)
    (leads : Leads t links here pending place) : Leads t' links here pending place :=
  leads_of_walk (walk_grown grown vacant (.inl rfl) leads.walk_eq)

end Leads

section Changes

variable {t : Tree} {place : Place}

theorem node?_root (t : Tree) : t.node? [] = some .directory := by
  simp [node?]

theorem node?_current (t : Tree) : t.node? t.current = some .directory := by
  simp [node?]

theorem node?_of_leads (leads : place <+: t.current) : t.node? place = some .directory := by
  rw [node?, if_pos (List.isPrefixOf_iff_prefix.mpr leads)]

theorem node?_of_free (free : ¬ place <+: t.current) : t.node? place = t.nodes[place]? := by
  rw [← List.isPrefixOf_iff_prefix] at free
  rw [node?, if_neg free]

theorem grown_insert (t : Tree) (place : Place) (node : Node) :
    Grown (· = place) t { t with nodes := t.nodes.insert place node } := by
  refine ⟨rfl, fun other away => .inl ?_⟩
  simp [node?, Std.HashMap.getElem?_insert, Ne.symm away]

theorem node?_insert (t : Tree) (place : Place) (node : Node) :
    node? { t with nodes := t.nodes.insert place node } place = some node ∨
      node? { t with nodes := t.nodes.insert place node } place = some .directory := by
  unfold node?
  split
  · exact .inr rfl
  · exact .inl (by simp)

/-- A directory may be made wherever nothing is. -/
theorem grown_insert_directory (missing : t.node? place = none) :
    Grown (fun _ => False) t { t with nodes := t.nodes.insert place .directory } := by
  refine ⟨rfl, fun other _ => ?_⟩
  by_cases same : other = place
  · subst same
    have made := node?_insert t other .directory
    rw [or_self] at made
    exact .inr ⟨missing, made⟩
  · exact (grown_insert t place .directory).elsewhere other same

def makeMissing (t : Tree) (place : Place) : Tree :=
  if (t.node? place).isNone then { t with nodes := t.nodes.insert place .directory } else t

theorem grown_makeMissing (t : Tree) (place : Place) :
    Grown (fun _ => False) t (t.makeMissing place) := by
  rw [makeMissing]
  split
  next missing => exact grown_insert_directory (Option.isNone_iff_eq_none.mp missing)
  next => exact .refl t

theorem isSome_makeMissing (t : Tree) (place : Place) :
    ((t.makeMissing place).node? place).isSome = true := by
  rw [makeMissing]
  split
  next =>
    have made := node?_insert t place .directory
    rw [or_self] at made
    rw [made]
    rfl
  next there => simpa [Option.isSome_iff_ne_none] using there

theorem makeParents_eq (t : Tree) (place : Place) :
    t.makeParents place =
      (List.range place.length).foldl (fun t n => t.makeMissing (place.take n)) t := rfl

theorem grown_foldl_makeMissing (lengths : List Nat) (t : Tree) (place : Place) :
    Grown (fun _ => False) t (lengths.foldl (fun t n => t.makeMissing (place.take n)) t) := by
  induction lengths generalizing t with
  | nil => exact .refl t
  | cons n more ih => exact (grown_makeMissing t (place.take n)).trans (ih _)

theorem grown_makeParents (t : Tree) (place : Place) :
    Grown (fun _ => False) t (t.makeParents place) :=
  grown_foldl_makeMissing _ t place

/-- What leads to a place is there when the place is made. -/
theorem isSome_makeParents {n : Nat} (shorter : n < place.length) :
    ((t.makeParents place).node? (place.take n)).isSome = true := by
  obtain ⟨before, after, split⟩ := List.append_of_mem (List.mem_range.mpr shorter)
  rw [makeParents_eq, split, List.foldl_append, List.foldl_cons]
  exact (grown_foldl_makeMissing after _ place).isSome id (isSome_makeMissing ..)

/-- Nothing happens where a place does not lead through. -/
theorem node?_makeParents {other : Place} (away : ¬ other <+: place) :
    (t.makeParents place).node? other = t.node? other := by
  rw [makeParents_eq]
  generalize List.range place.length = lengths
  induction lengths generalizing t with
  | nil => rfl
  | cons n more ih =>
    rw [List.foldl_cons, ih, makeMissing]
    split
    next =>
      have differ : place.take n ≠ other := fun same => away (same ▸ List.take_prefix n place)
      simp [node?, Std.HashMap.getElem?_insert, differ]
    next => rfl

theorem node?_put_of_away {other : Place} (node : Node) (away : ¬ other <+: place) :
    (t.put place node).node? other = t.node? other := by
  rw [put]
  split
  · exact node?_makeParents away
  · have differ : place ≠ other := fun same => away (same ▸ List.prefix_rfl)
    refine Eq.trans ?_ (node?_makeParents away)
    simp [node?, Std.HashMap.getElem?_insert, differ]

theorem grown_put (t : Tree) (place : Place) (node : Node) :
    Grown (· = place) t (t.put place node) := by
  have parents : Grown (· = place) t (t.makeParents place) :=
    (grown_makeParents t place).mono (by simp)
  rw [put]
  split
  · exact parents
  · exact parents.trans (grown_insert ..)

theorem node?_put (t : Tree) (place : Place) (node : Node) :
    (t.put place node).node? place = some node ∨ (t.put place node).node? place = some .directory := by
  rw [put]
  split
  next working => exact .inr (by simp only [node?, working, ↓reduceIte])
  next => exact node?_insert ..

theorem isSome_put (t : Tree) (place : Place) (node : Node) {n : Nat} (shorter : n < place.length) :
    ((t.put place node).node? (place.take n)).isSome = true := by
  have made : ((t.makeParents place).node? (place.take n)).isSome = true :=
    isSome_makeParents shorter
  rw [put]
  split
  · exact made
  · refine (grown_insert ..).isSome (fun same => ?_) made
    have short := List.length_take_of_le (Nat.le_of_lt shorter)
    rw [same] at short
    omega

theorem node?_put_of_free {node : Node} (free : ¬ place <+: t.current) :
    (t.put place node).node? place = some node := by
  have still : ¬ place <+: (t.makeParents place).current := by
    rw [(grown_makeParents t place).current]
    exact free
  rw [← List.isPrefixOf_iff_prefix] at still
  simp only [put, if_neg still, node?, Std.HashMap.getElem?_insert_self]

theorem grown_put_directory (missing : t.node? place = none) :
    Grown (fun _ => False) t (t.put place .directory) := by
  have grown := grown_put t place .directory
  refine ⟨grown.current, fun other _ => ?_⟩
  by_cases same : other = place
  · subst same
    have made := node?_put t other .directory
    rw [or_self] at made
    exact .inr ⟨missing, made⟩
  · exact grown.elsewhere other same

theorem grown_makeDirectory {path : Path} {t' : Tree} (made : t.makeDirectory path = .ok t') :
    Grown (fun _ => False) t t' := by
  rw [makeDirectory] at made
  split at made
  · cases made
  · split at made
    · cases made
    next missing =>
      cases made
      exact grown_put_directory (by simpa using missing)

/-- Making directories does nothing else. -/
theorem grown_makeDirectories {path : Path} {t' : Tree} (made : t.makeDirectories path = .ok t') :
    Grown (fun _ => False) t t' := by
  rw [makeDirectories] at made
  generalize beginnings path = starts at made
  induction starts generalizing t with
  | nil => cases made; exact .refl _
  | cons start more ih =>
    rw [List.foldlM_cons] at made
    split at made
    · exact ih made
    · cases made
    split at made
    · exact ih made
    · cases step : t.makeDirectory start with
      | error e => simp [step, bind, Except.bind] at made
      | ok next =>
        rw [step] at made
        exact (grown_makeDirectory step).trans (ih made)

theorem node?_filter (t : Tree) (keep : Place → Bool) (other : Place) :
    node? { t with nodes := t.nodes.filter fun other _ => keep other } other =
      if keep other = true ∨ other <+: t.current then t.node? other else none := by
  by_cases working : other <+: t.current
  · rw [if_pos (.inr working), node?, node?, if_pos (List.isPrefixOf_iff_prefix.mpr working),
      if_pos (List.isPrefixOf_iff_prefix.mpr working)]
  · have free := mt List.isPrefixOf_iff_prefix.mp working
    rw [node?, node?, if_neg free, if_neg free, Std.HashMap.getElem?_filter']
    cases keep other <;> cases t.nodes[other]? <;> simp [working]

theorem node?_remove (t : Tree) (place other : Place) :
    (t.remove place).node? other = t.node? other ∨
      place <+: other ∧ (t.remove place).node? other = none := by
  rw [remove, node?_filter t fun other => !place.isPrefixOf other]
  split
  next => exact .inl rfl
  next gone =>
    rw [not_or, Bool.not_eq_true', Bool.not_eq_false, List.isPrefixOf_iff_prefix] at gone
    exact .inr ⟨gone.1, rfl⟩

theorem grown_remove (t : Tree) (place : Place) : Grown (place <+: ·) t (t.remove place) := by
  refine ⟨rfl, fun other away => .inl ?_⟩
  rcases node?_remove t place other with same | ⟨below, -⟩
  · exact same
  · exact absurd below away


/-- What does not hold the working directory can be taken away. -/
theorem node?_remove_self (free : ¬ place <+: t.current) : (t.remove place).node? place = none := by
  rw [remove, node?_filter t fun other => !place.isPrefixOf other, if_neg]
  simpa using free

theorem inside_iff {other : Place} :
    Inside place other ↔ place.isPrefixOf other = true ∧ place.length < other.length := by
  rw [List.isPrefixOf_iff_prefix]
  constructor
  · rintro ⟨rest, some, rfl⟩
    exact ⟨List.prefix_append .., by simpa [List.length_pos_iff] using some⟩
  · rintro ⟨⟨rest, rfl⟩, longer⟩
    refine ⟨rest, ?_, rfl⟩
    rintro rfl
    simp at longer

theorem grown_removeBelow (t : Tree) (place : Place) :
    Grown (Inside place) t (t.removeBelow place) := by
  refine ⟨rfl, fun other away => .inl ?_⟩
  rw [inside_iff] at away
  rw [removeBelow, node?_filter t fun other =>
    !(place.isPrefixOf other && decide (place.length < other.length)), if_pos]
  rw [Bool.not_eq_true', Bool.eq_false_iff, Ne, Bool.and_eq_true, decide_eq_true_eq]
  exact .inl away

theorem node?_removeBelow {other : Place} (inside : Inside place other)
    (free : ¬ other <+: t.current) : (t.removeBelow place).node? other = none := by
  rw [inside_iff] at inside
  rw [removeBelow, node?_filter t fun other =>
    !(place.isPrefixOf other && decide (place.length < other.length)), if_neg]
  simp [free, inside.2, List.isPrefixOf_iff_prefix.mp inside.1]

theorem mem_entries {node : Node} :
    (place, node) ∈ t.entries ↔ place ≠ [] ∧ t.node? place = some node := by
  simp only [entries, List.mem_append, List.mem_filter, Std.HashMap.mem_toList_iff_getElem?_eq_some,
    Bool.not_eq_true', List.mem_map, List.mem_range, Prod.mk.injEq]
  by_cases leads : place <+: t.current
  · have within := leads.length_le
    rw [node?_of_leads leads, List.isPrefixOf_iff_prefix.mpr leads, Option.some.injEq]
    constructor
    · rintro (⟨-, ⟨⟩⟩ | ⟨n, shorter, rfl, rfl⟩)
      exact ⟨by simpa using List.ne_nil_of_length_pos (Nat.zero_lt_of_lt shorter), rfl⟩
    · rintro ⟨some, rfl⟩
      have positive := List.length_pos_iff.mpr some
      refine .inr ⟨place.length - 1, by omega, ?_, rfl⟩
      rw [Nat.sub_add_cancel positive]
      exact (List.prefix_iff_eq_take.mp leads).symm
  · have apart : place.isPrefixOf t.current = false := by
      rwa [← Bool.not_eq_true, List.isPrefixOf_iff_prefix]
    rw [node?_of_free leads]
    constructor
    · rintro (⟨there, -⟩ | ⟨n, -, rfl, -⟩)
      · refine ⟨?_, there⟩
        rintro rfl
        exact leads (List.nil_prefix ..)
      · exact absurd (List.take_prefix ..) leads
    · exact fun ⟨_, there⟩ => .inl ⟨there, apart⟩

theorem nodup_entries (t : Tree) : (t.entries.map Prod.fst).Nodup := by
  have kept : (t.nodes.toList.map Prod.fst).Nodup := by
    rw [List.nodup_iff_pairwise_ne, List.pairwise_map]
    exact t.nodes.distinct_keys_toList.imp fun {a b} differ same => by simp [same] at differ
  rw [entries, List.map_append, List.map_map, List.nodup_append]
  refine ⟨kept.sublist (List.filter_sublist.map _), ?_, ?_⟩
  · rw [List.nodup_iff_pairwise_ne, List.pairwise_map]
    refine List.nodup_range.imp_of_mem fun {m n} first second differ same => differ ?_
    have lengths := congrArg List.length same
    rw [List.mem_range] at first second
    simp only [Function.comp_apply, List.length_take] at lengths
    omega
  · rintro other member way leads rfl
    obtain ⟨entry, inside, rfl⟩ := List.mem_map.mp member
    obtain ⟨n, -, same⟩ := List.mem_map.mp leads
    have away := (List.mem_filter.mp inside).2
    rw [← same, Bool.not_eq_true', ← Bool.not_eq_true, List.isPrefixOf_iff_prefix] at away
    exact away (List.take_prefix ..)

theorem mem_below {names : Place} {node : Node} :
    (names, node) ∈ t.below place ↔ names ≠ [] ∧ t.node? (place ++ names) = some node := by
  simp only [below, List.mem_mergeSort, List.mem_filterMap, Prod.exists, mem_entries]
  constructor
  · rintro ⟨other, found, ⟨-, there⟩, taken⟩
    rw [Option.ite_none_right_eq_some, ← inside_iff] at taken
    obtain ⟨⟨rest, some, rfl⟩, same⟩ := taken
    rw [List.drop_left] at same
    cases same
    exact ⟨some, there⟩
  · rintro ⟨some, there⟩
    have inside : Inside place (place ++ names) := ⟨names, some, rfl⟩
    exact ⟨place ++ names, node, ⟨by simp [some], there⟩,
      by rw [if_pos (inside_iff.mp inside), List.drop_left]⟩

theorem nodup_below (t : Tree) (place : Place) : ((t.below place).map Prod.fst).Nodup := by
  have places := t.nodup_entries
  rw [List.nodup_iff_pairwise_ne, List.pairwise_map] at places
  rw [below, ((List.mergeSort_perm ..).map Prod.fst).nodup_iff, List.nodup_iff_pairwise_ne,
    List.pairwise_map, List.pairwise_filterMap]
  refine places.imp fun {a b} differ x takenA y takenB same => differ ?_
  simp only [Option.ite_none_right_eq_some, Option.some.injEq, List.isPrefixOf_iff_prefix]
    at takenA takenB
  obtain ⟨⟨⟨rest, whole⟩, -⟩, rfl⟩ := takenA
  obtain ⟨⟨⟨rest', whole'⟩, -⟩, rfl⟩ := takenB
  rw [← whole, ← whole', List.drop_left, List.drop_left] at same
  rw [← whole, ← whole', show rest = rest' from same]

/-- What is below a place stands in the order of the walk. -/
theorem pairwise_below (t : Tree) (place : Place) :
    (t.below place).Pairwise fun a b => a.1 < b.1 := by
  have trans (a b c : Place × Node) (ab : decide (a.1 ≤ b.1) = true) (bc : decide (b.1 ≤ c.1) = true) :
      decide (a.1 ≤ c.1) = true := by
    simp only [decide_eq_true_eq] at *
    exact List.le_trans ab bc
  have total (a b : Place × Node) : (decide (a.1 ≤ b.1) || decide (b.1 ≤ a.1)) = true := by
    simpa only [Bool.or_eq_true, decide_eq_true_eq] using List.le_total a.1 b.1
  have differ := t.nodup_below place
  rw [List.nodup_iff_pairwise_ne, List.pairwise_map] at differ
  refine ((List.pairwise_mergeSort trans total _).and differ).imp fun {a b} ⟨least, differ⟩ => ?_
  exact (List.le_iff_lt_or_eq.mp (of_decide_eq_true least)).resolve_right differ

theorem mem_children {name : Bytes} {node : Node} :
    (name, node) ∈ t.children place ↔ t.node? (place ++ [name]) = some node := by
  rw [children, List.mem_filterMap]
  constructor
  · rintro ⟨⟨names, other⟩, member, single⟩
    split at single
    next only =>
      cases single
      obtain rfl : names = [name] := only
      exact (mem_below.mp member).2
    · cases single
  · exact fun there => ⟨([name], node), mem_below.mpr ⟨by simp, there⟩, rfl⟩

theorem pairwise_children (t : Tree) (place : Place) :
    (t.children place).Pairwise fun a b => a.1 < b.1 := by
  rw [children, List.pairwise_filterMap]
  refine (t.pairwise_below place).imp fun {a b} order x takenA y takenB => ?_
  split at takenA
  next name only =>
    split at takenB
    next name' only' =>
      cases takenA
      cases takenB
      rw [only, only', List.cons_lt_cons_iff] at order
      exact order.resolve_right fun ⟨_, below⟩ => List.not_lt_nil _ below
    · cases takenB
  · cases takenA

theorem place_of_find {path : Path} {node : Node} {follow : Bool}
    (found : t.find follow path = .ok (place, node)) :
    t.place follow path = .ok place ∧ t.node? place = some node := by
  rw [find] at found
  cases placed : t.place follow path with
  | error refusal => simp [placed, bind, Except.bind] at found
  | ok other =>
    cases there : t.node? other with
    | none => simp [placed, there, bind, Except.bind] at found
    | some other =>
      simp only [placed, there, bind, Except.bind, pure, Except.pure, Except.ok.injEq,
        Prod.mk.injEq] at found
      obtain ⟨rfl, rfl⟩ := found
      exact ⟨rfl, there⟩

theorem find_of_place {path : Path} {node : Node} {follow : Bool}
    (placed : t.place follow path = .ok place) (there : t.node? place = some node) :
    t.find follow path = .ok (place, node) := by
  simp only [find, placed, bind, Except.bind, there, pure, Except.pure]

theorem find_of_refused {path : Path} {refusal : Refusal} {follow : Bool}
    (refused : t.place follow path = .error refusal) : t.find follow path = .error refusal := by
  rw [find, refused]
  rfl

theorem place_of_read {path : Path} {content : Bytes} (read : t.read path = .ok content) :
    ∃ place, t.place true path = .ok place ∧ t.node? place = some (.file content) := by
  rw [Tree.read] at read
  split at read
  · cases read
  next place _ found =>
    cases read
    exact ⟨place, place_of_find found⟩
  · cases read

/-- Taking something away takes away its place and what is below it. -/
theorem eq_of_unlink {path : Path} {t' : Tree} (taken : t.unlink path = .ok t') :
    ∃ place, t.place false path = .ok place ∧ t' = t.remove place := by
  rw [unlink] at taken
  split at taken
  · cases taken
  next place found =>
    split at taken
    · cases taken
      exact ⟨place, (place_of_find found).1, rfl⟩
    · cases taken
  next place _ _ found =>
    cases taken
    exact ⟨place, (place_of_find found).1, rfl⟩

end Changes

section Paths

variable {t : Tree} {follow : Bool} {place : Place} {rooted : Bool} {parts : List Bytes}

def origin (t : Tree) (rooted : Bool) : Place := if rooted then [] else t.current

/-- A path that no tree refuses before it is walked. -/
def Usable (path : Path) : Prop := path.contains 0 = false ∧ path ≠ [] ∧ path.length ≤ longestPath

theorem place_of_usable {path : Path} (usable : Usable path) :
    t.place follow path = t.walk follow linkLimit (start t.current path) (path.split Path.slash) := by
  obtain ⟨clean, some, short⟩ := usable
  rw [Tree.place, if_neg (by simp only [clean, Bool.false_eq_true, not_false_eq_true]), if_neg some,
    if_neg (Nat.not_lt.mpr short)]

/-- A path that is a name leads to what has that name in the working directory. -/
theorem place_of_name {name : Bytes}
    (single : t.place follow name = t.walk follow linkLimit t.current [name]) (enters : Enters name)
    (solid : ∀ target, t.node? (t.current ++ [name]) ≠ some (.link target)) :
    t.place follow name = .ok (t.current ++ [name]) := by
  rw [single, walk_enter (node?_current t) enters solid, walk_nil]

/-- A path that cannot be used is refused by every tree, and for something else than that nothing is
there. -/
theorem place_of_not_usable {path : Path} (some : path ≠ []) (unusable : ¬ Usable path) :
    ∃ refusal, refusal ≠ .missing ∧
      ∀ (t : Tree) (follow : Bool), t.place follow path = .error refusal := by
  by_cases zero : path.contains 0 = true
  · exact ⟨.invalid, by decide, fun t follow => by rw [Tree.place, if_pos zero]⟩
  · have long : longestPath < path.length := by
      rw [Usable, not_and, not_and] at unusable
      exact Nat.not_le.mp (unusable (Bool.eq_false_iff.mpr zero) some)
    exact ⟨.nameTooLong, by decide, fun t follow => by
      rw [Tree.place, if_neg zero, if_neg some, if_pos long]⟩

theorem usable_of_place {path : Path} (placed : t.place follow path = .ok place) : Usable path := by
  refine Classical.byContradiction fun unusable => ?_
  by_cases empty : path = []
  · subst empty
    simp [Tree.place] at placed
  · obtain ⟨refusal, -, refused⟩ := place_of_not_usable empty unusable
    simp [refused] at placed

/-- A path that names an empty directory still names it when only the inside of the directory was
changed and directories were added elsewhere. -/
theorem find_grown {t' : Tree} {path : Path} (grown : Grown (Inside place) t t')
    (vacant : ∀ other, Inside place other → t.node? other = none)
    (found : t.find follow path = .ok (place, .directory)) :
    t'.find follow path = .ok (place, .directory) := by
  obtain ⟨placed, directory⟩ := place_of_find found
  have usable := usable_of_place placed
  have away : ¬ Inside place place := fun ⟨rest, nonempty, same⟩ =>
    nonempty (List.self_eq_append_right.mp same)
  refine find_of_place ?_ (grown.kept away directory)
  rw [place_of_usable usable] at placed ⊢
  rw [grown.current]
  exact walk_grown grown vacant (.inr (by simp [directory])) placed

theorem place_spelled (resolved : Path.Resolved rooted parts.reverse)
    (usable : Usable (Path.spelled rooted parts)) :
    t.place follow (Path.spelled rooted parts) = t.walk follow linkLimit (t.origin rooted) parts := by
  have directory : t.node? (t.origin rooted) = some .directory := by
    cases rooted with
    | true => exact node?_root t
    | false => exact node?_current t
  obtain ⟨lead, stay, split⟩ := Path.split_spelled resolved
  have begins : start t.current (Path.spelled rooted parts) = t.origin rooted := by
    rw [start, Path.isRooted_spelled resolved, origin]
  rw [place_of_usable usable, begins, split, walk_lead directory stay]

theorem walk_of_place (resolved : Path.Resolved rooted parts.reverse)
    (found : t.place follow (Path.spelled rooted parts) = .ok place) :
    t.walk follow linkLimit (t.origin rooted) parts = .ok place := by
  rw [← place_spelled resolved (usable_of_place found), found]

theorem walk_names {names : List Bytes} (named : ∀ part ∈ names, Path.IsName part) {links : Nat}
    {here : Place} (solid : ∀ other target, Inside here other → t.node? other ≠ some (.link target))
    (walked : t.walk follow links here names = .ok place) : place = here ++ names := by
  induction names generalizing here with
  | nil =>
    rw [walk_nil] at walked
    cases walked
    simp
  | cons part more ih =>
    obtain ⟨first, later⟩ := List.forall_mem_cons.mp named
    have deeper {other : Place} (inside : Inside (here ++ [part]) other) : Inside here other := by
      obtain ⟨rest, -, rfl⟩ := inside
      exact ⟨part :: rest, by simp, by simp⟩
    have next : ∀ target, t.node? (here ++ [part]) ≠ some (.link target) := fun target =>
      solid _ target ⟨[part], by simp, rfl⟩
    have onward : t.walk follow links (here ++ [part]) more = .ok place := by
      have named : ¬(part = [] ∨ part = Path.dot) := by simp [first.nonempty, first.here]
      rw [walk] at walked
      split at walked
      any_goals cases walked
      rw [if_neg named, if_neg first.up] at walked
      split at walked
      · cases walked
      split at walked
      next target link => exact absurd link (next target)
      next => exact walked
    rw [ih later (fun other target inside => solid other target (deeper inside)) onward]
    simp

end Paths

end StackBound.Tree
