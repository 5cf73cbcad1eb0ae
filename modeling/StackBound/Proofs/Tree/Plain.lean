import StackBound.Proofs.Tree

/-! Trees without links. There the components of a path alone say where it leads, and so resolving a
path, or putting names at its end, does to the path what it does to the place. -/
namespace StackBound.Tree

/-- A name that a path can hold. -/
structure Fits (name : Bytes) : Prop extends Path.IsName name where
  short : name.length ≤ longestName
  whole : 0 ∉ name

/-- A tree without links. Whatever is there stands in a directory and has a name. -/
structure Plain (t : Tree) : Prop where
  solid : ∀ place target, t.node? place ≠ some (.link target)
  parent : ∀ place name, (t.node? (place ++ [name])).isSome = true → t.node? place = some .directory
  named : ∀ place name, (t.node? (place ++ [name])).isSome = true → Fits name

/-- Where a component leads that is not a link. -/
def move (here : Place) (part : Bytes) : Place :=
  if part = [] ∨ part = Path.dot then here
  else if part = Path.dotDot then here.dropLast
  else here ++ [part]

theorem move_name {part : Bytes} (named : Path.IsName part) (here : Place) :
    move here part = here ++ [part] := by
  simp [move, named.nonempty, named.here, named.up]

theorem move_up (here : Place) : move here Path.dotDot = here.dropLast := by
  simp [move, Path.dotDot, Path.dot]

theorem foldl_move_names {names : List Bytes} (named : ∀ part ∈ names, Path.IsName part)
    (here : Place) : names.foldl move here = here ++ names := by
  induction names generalizing here with
  | nil => simp
  | cons part more ih =>
    obtain ⟨first, later⟩ := List.forall_mem_cons.mp named
    rw [List.foldl_cons, move_name first, ih later]
    simp

/-- Resolving a component changes where the components lead as taking the component does. -/
theorem foldl_move_walk {rooted : Bool} {done : List Bytes} {here : Place}
    (resolved : Path.Resolved rooted done) (top : rooted = true → here = []) (part : Bytes) :
    (Path.walk rooted done part).reverse.foldl move here = move (done.reverse.foldl move here) part := by
  have pushed (part : Bytes) : (part :: done).reverse.foldl move here =
      move (done.reverse.foldl move here) part := by simp
  unfold Path.walk
  split
  next stay => rw [move, if_pos stay]
  · split
    next isUp =>
      subst isUp
      cases resolved with
      | nil =>
        cases rooted with
        | true => simp [top rfl, move_up]
        | false => exact pushed _
      | @name done part before named =>
        simp [named.up, move_up, move_name named]
      | up => simp
    next => exact pushed part

/-- A path and its components lead to the same place. -/
theorem foldl_move_parts (t : Tree) (path : Path) :
    path.parts.foldl move (t.origin path.isRooted) =
      (path.split Path.slash).foldl move (t.origin path.isRooted) := by
  have top : path.isRooted = true → t.origin path.isRooted = [] := fun rooted => by
    rw [origin, if_pos rooted]
  suffices kept : ∀ pending done : List Bytes, (∀ part ∈ pending, Path.slash ∉ part) →
      Path.Resolved path.isRooted done →
      (pending.foldl (Path.walk path.isRooted) done).reverse.foldl move (t.origin path.isRooted) =
        pending.foldl move (done.reverse.foldl move (t.origin path.isRooted)) from
    kept _ [] (fun _ member => Bytes.not_mem_of_mem_split member) .nil
  intro pending
  induction pending with
  | nil => exact fun _ _ _ => rfl
  | cons part more ih =>
    intro done free resolved
    obtain ⟨first, later⟩ := List.forall_mem_cons.mp free
    rw [List.foldl_cons, List.foldl_cons, ih _ later (resolved.step first),
      foldl_move_walk resolved top part]

namespace Plain

variable {t : Tree} {follow : Bool} {links : Nat} {here place : Place} {names pending : List Bytes}

/-- What leads to something is a directory. -/
theorem directory (plain : t.Plain) (nonempty : names ≠ [])
    (there : (t.node? (place ++ names)).isSome = true) : t.node? place = some .directory := by
  induction names generalizing place with
  | nil => contradiction
  | cons name rest ih =>
    refine plain.parent place name ?_
    by_cases last : rest = []
    · rwa [last] at there
    · rw [List.append_cons place name rest] at there
      rw [ih last there]
      rfl

theorem isSome_of_append (plain : t.Plain) (there : (t.node? (place ++ names)).isSome = true) :
    (t.node? place).isSome = true := by
  by_cases none : names = []
  · rwa [none, List.append_nil] at there
  · rw [plain.directory none there]
    rfl

theorem fits (plain : t.Plain) (there : (t.node? (place ++ names)).isSome = true) :
    ∀ name ∈ names, Fits name := by
  induction names generalizing place with
  | nil => simp
  | cons name rest ih =>
    rw [List.append_cons place name rest] at there
    exact List.forall_mem_cons.mpr ⟨plain.named place name (plain.isSome_of_append there), ih there⟩

theorem isName (plain : t.Plain) (there : (t.node? (place ++ names)).isSome = true) :
    ∀ name ∈ names, Path.IsName name := fun name member => (plain.fits there name member).toIsName

theorem enters (plain : t.Plain) {part : Bytes} (there : (t.node? (here ++ [part])).isSome = true) :
    Enters part := by
  have named := plain.named here part there
  exact ⟨by simp [named.nonempty, named.here], named.up, Nat.not_lt.mpr named.short⟩

theorem eq_of_walk (plain : t.Plain) (walked : t.walk follow links here pending = .ok place) :
    place = pending.foldl move here := by
  fun_induction walk t follow links here pending with
  | case1 =>
    cases walked
    rfl
  | case5 links here part rest _ stays ih => rw [List.foldl_cons, move, if_pos stays, ih walked]
  | case6 links here rest _ _ ih => rw [List.foldl_cons, move_up, ih walked]
  | case11 links here part rest _ named notUp _ _ ih =>
    rw [List.foldl_cons, move, if_neg named, if_neg notUp, ih walked]
  | case8 | case10 => exact absurd ‹_› (plain.solid _ _)
  | _ => cases walked

/-- With no links, following them makes no difference. -/
theorem walk_follow (plain : t.Plain) :
    t.walk follow links here pending = t.walk true links here pending := by
  fun_induction walk t follow links here pending with
  | case1 => rw [walk_nil]
  | case5 links here part rest there stays ih => rw [walk_stay there stays, ih]
  | case6 links here rest there _ ih => rw [walk_up there, ih]
  | case11 links here part rest there named notUp short _ ih =>
    rw [walk_enter there ⟨named, notUp, short⟩ (plain.solid _), ih]
  | case8 | case9 | case10 => exact absurd ‹_› (plain.solid _ _)
  | _ => rw [walk]; simp_all

theorem walk_down (plain : t.Plain) (there : (t.node? (here ++ names)).isSome = true) :
    t.walk follow links here names = .ok (here ++ names) := by
  induction names generalizing here with
  | nil => rw [walk_nil, List.append_nil]
  | cons part more ih =>
    have standing := plain.directory (by simp) there
    rw [List.append_cons here part more] at there ⊢
    rw [walk_enter standing (plain.enters (plain.isSome_of_append there)) (plain.solid _), ih there]

end Plain

/-- The way up from the working directory, or from what leads there, leads through directories. -/
theorem walk_ups {t : Tree} {follow : Bool} {links : Nat} {here : Place} {ups rest : List Bytes}
    (up : ∀ part ∈ ups, part = Path.dotDot) (leads : here <+: t.current) :
    t.walk follow links here (ups ++ rest) = t.walk follow links (ups.foldl move here) rest := by
  induction ups generalizing here with
  | nil => rfl
  | cons part more ih =>
    obtain ⟨rfl, later⟩ := List.forall_mem_cons.mp up
    rw [List.cons_append, walk_up (node?_of_leads leads), ih later ((List.dropLast_prefix here).trans leads),
      List.foldl_cons, move_up]

theorem origin_prefix (t : Tree) (rooted : Bool) : t.origin rooted <+: t.current := by
  cases rooted with
  | true => exact List.nil_prefix ..
  | false => exact List.prefix_rfl

namespace Plain

variable {t : Tree} {follow : Bool} {links : Nat} {place : Place} {names parts : List Bytes}
  {rooted : Bool} {path : Path}

theorem walk_parts (plain : t.Plain) (resolved : Path.Resolved rooted parts.reverse)
    (there : (t.node? (parts.foldl move (t.origin rooted))).isSome = true) :
    t.walk follow links (t.origin rooted) parts = .ok (parts.foldl move (t.origin rooted)) := by
  obtain ⟨names, ups, split, named, up⟩ := resolved.exists_names
  have whole : parts = ups.reverse ++ names.reverse := by
    rw [← List.reverse_append, ← split, List.reverse_reverse]
  subst whole
  rw [List.foldl_append, foldl_move_names (by simpa using named)] at there ⊢
  rw [walk_ups (by simpa using up) (t.origin_prefix rooted), plain.walk_down there]

theorem eq_of_place (plain : t.Plain) (placed : t.place follow path = .ok place) :
    place = path.parts.foldl move (t.origin path.isRooted) := by
  have usable := usable_of_place placed
  rw [place_of_usable usable] at placed
  rw [foldl_move_parts]
  exact plain.eq_of_walk placed

theorem find_follow (plain : t.Plain) : t.find follow path = t.find true path := by
  have same : t.place follow path = t.place true path := by
    rw [Tree.place, plain.walk_follow, Tree.place]
  rw [find, same, find]

/-- Names put at the end of a path that leads to a directory lead to what the directory holds under
them, unless the path gets too long. -/
theorem find_join (plain : t.Plain) (found : t.find follow path = .ok (place, .directory))
    (nonempty : names ≠ []) {node : Node} (there : t.node? (place ++ names) = some node) :
    t.find true (Path.join (path :: names)) =
      if longestPath < (Path.join (path :: names)).length then .error .nameTooLong
      else .ok (place ++ names, node) := by
  have placed := (place_of_find found).1
  have standing : (t.node? (place ++ names)).isSome = true := by rw [there]; rfl
  have named := plain.isName standing
  have resolved := Path.resolved_append (Path.resolved_parts path) names named
  have leads : (path.parts ++ names).foldl move (t.origin path.isRooted) = place ++ names := by
    rw [List.foldl_append, ← plain.eq_of_place placed, foldl_move_names named]
  have zero : (Path.join (path :: names)).contains 0 = false := by
    rw [← Bool.not_eq_true, List.contains_iff_mem, Path.join_eq_spelled path nonempty named]
    intro member
    obtain slash | dot | ⟨part, among, inside⟩ := Path.of_mem_spelled member
    · cases slash
    · simp [Path.dot] at dot
    · rcases List.mem_append.mp among with old | new
      · have held : 0 ∈ path := by
          rw [← Bytes.join_split path]
          exact Bytes.mem_join_of_mem (Path.mem_split_of_mem_parts old) inside
        have free := (usable_of_place placed).1
        simp [held] at free
      · exact (plain.fits standing part new).whole inside
  have shown : Path.join (path :: names) ≠ [] := by
    rw [Path.join_eq_spelled path nonempty named]
    exact Path.spelled_ne_nil _ _
  split
  next long =>
    refine find_of_refused ?_
    rw [Tree.place, if_neg (Bool.not_eq_true _ ▸ zero), if_neg shown, if_pos long]
  next short =>
    have usable : Usable (Path.join (path :: names)) := ⟨zero, shown, Nat.not_lt.mp short⟩
    refine find_of_place ?_ there
    rw [Path.join_eq_spelled path nonempty named] at usable ⊢
    rw [place_spelled resolved usable, plain.walk_parts resolved (by rw [leads]; exact standing), leads]

/-- Putting a file or a directory into a directory leaves the tree as it should be, unless a file takes
the place of a directory. -/
theorem insert (plain : t.Plain) (place : Place) {name : Bytes} (fits : Fits name) (node : Node)
    (parent : t.node? place = some .directory) (solid : ∀ target, node ≠ .link target)
    (kept : node = .directory ∨ t.node? (place ++ [name]) ≠ some .directory) :
    Plain { t with nodes := t.nodes.insert (place ++ [name]) node } := by
  have self := node?_insert t (place ++ [name]) node
  have apart {other : Place} (differ : other ≠ place ++ [name]) :
      node? { t with nodes := t.nodes.insert (place ++ [name]) node } other = t.node? other := by
    simp [node?, Std.HashMap.getElem?_insert, Ne.symm differ]
  refine ⟨fun other target link => ?_, fun other last there => ?_, fun other last there => ?_⟩
  · by_cases same : other = place ++ [name]
    · subst same
      rcases self with node | made
      · exact solid target (Option.some.inj (node.symm.trans link))
      · simp [made] at link
    · exact plain.solid other target (apart same ▸ link)
  · by_cases same : other ++ [last] = place ++ [name]
    · obtain ⟨rfl, -⟩ := List.append_inj' same rfl
      rwa [apart (by simp)]
    · rw [apart same] at there
      have directory := plain.parent other last there
      by_cases under : other = place ++ [name]
      · subst under
        rcases self with node | made
        · rw [node, kept.resolve_right (fun away => away directory)]
        · exact made
      · rw [apart under, directory]
  · by_cases same : other ++ [last] = place ++ [name]
    · obtain ⟨-, only⟩ := List.append_inj' same rfl
      cases only
      exact fits
    · exact plain.named other last (apart same ▸ there)

end Plain

theorem plain_bare {current : Place} (fits : ∀ name ∈ current, Fits name) : (bare current).Plain := by
  have leads {place : Place} (there : ((bare current).node? place).isSome = true) : place <+: current := by
    rw [node?] at there
    split at there
    next working => exact List.isPrefixOf_iff_prefix.mp working
    · simp [bare] at there
  refine ⟨fun place target link => ?_, fun place name there => ?_, fun place name there => ?_⟩
  · rw [node?_of_leads (leads (Option.isSome_of_eq_some link))] at link
    cases link
  · exact node?_of_leads ((List.prefix_append place [name]).trans (leads there))
  · exact fits name ((leads there).subset (by simp))

end StackBound.Tree
