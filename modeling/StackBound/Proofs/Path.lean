import StackBound.Path
import StackBound.Proofs.Text.Run

/-! The components of a path. The shortest spelling of a path has the components of the path, and
names put at the end of a path are its last components. -/
namespace StackBound

namespace Bytes

variable {sep : UInt8}

theorem split_nil : split sep [] = [[]] := rfl

theorem split_cons (b : UInt8) (text : Bytes) :
    split sep (b :: text) =
      if b = sep then [] :: split sep text
      else match split sep text with
        | [] => [[b]]
        | part :: more => (b :: part) :: more := rfl

theorem split_ne_nil (sep : UInt8) (text : Bytes) : split sep text ≠ [] := by
  cases text with
  | nil => simp [split_nil]
  | cons b rest =>
    rw [split_cons]
    split
    · simp
    · split <;> simp

theorem split_append_sep (before after : Bytes) :
    split sep (before ++ sep :: after) = split sep before ++ split sep after := by
  induction before with
  | nil => simp [split_cons, split_nil]
  | cons b rest ih =>
    obtain ⟨part, more, parts⟩ := List.exists_cons_of_ne_nil (split_ne_nil sep rest)
    rw [List.cons_append, split_cons, split_cons, ih, parts]
    by_cases same : b = sep <;> simp [same]

theorem split_of_not_mem {text : Bytes} (free : sep ∉ text) : split sep text = [text] := by
  induction text with
  | nil => rfl
  | cons b rest ih =>
    rw [List.mem_cons, not_or] at free
    rw [split_cons, ih free.2, if_neg (Ne.symm free.1)]

theorem not_mem_of_mem_split {part text : Bytes} (member : part ∈ split sep text) : sep ∉ part := by
  induction text generalizing part with
  | nil =>
    rw [split_nil, List.mem_singleton] at member
    simp [member]
  | cons b rest ih =>
    obtain ⟨first, more, parts⟩ := List.exists_cons_of_ne_nil (split_ne_nil sep rest)
    rw [parts] at ih
    rw [split_cons, parts] at member
    by_cases same : b = sep
    · rw [if_pos same, List.mem_cons] at member
      rcases member with rfl | inside
      · simp
      · exact ih inside
    · rw [if_neg same] at member
      rcases List.mem_cons.mp member with rfl | inside
      · simpa [Ne.symm same] using ih (List.mem_cons_self ..)
      · exact ih (List.mem_cons_of_mem _ inside)

theorem join_cons (part : Bytes) {more : List Bytes} (more_ne : more ≠ []) :
    join [sep] (part :: more) = part ++ sep :: join [sep] more := by
  obtain ⟨next, rest, rfl⟩ := List.exists_cons_of_ne_nil more_ne
  simp [join, List.intercalate]

theorem join_snoc {parts : List Bytes} (parts_ne : parts ≠ []) (last : Bytes) :
    join [sep] (parts ++ [last]) = join [sep] parts ++ sep :: last := by
  induction parts with
  | nil => contradiction
  | cons part more ih =>
    cases more with
    | nil => simp [join, List.intercalate]
    | cons next rest =>
      rw [List.cons_append, join_cons part (by simp), ih (by simp), join_cons part (by simp)]
      simp

theorem split_join {parts : List Bytes} (parts_ne : parts ≠ []) (free : ∀ part ∈ parts, sep ∉ part) :
    split sep (join [sep] parts) = parts := by
  induction parts with
  | nil => contradiction
  | cons part more ih =>
    obtain ⟨first, later⟩ := List.forall_mem_cons.mp free
    cases more with
    | nil => simpa [join, List.intercalate] using split_of_not_mem first
    | cons next rest =>
      rw [join_cons part (by simp), split_append_sep, split_of_not_mem first, ih (by simp) later]
      rfl

theorem join_split (text : Bytes) : join [sep] (split sep text) = text := by
  induction text with
  | nil => simp [split_nil, join, List.intercalate]
  | cons b rest ih =>
    obtain ⟨part, more, parts⟩ := List.exists_cons_of_ne_nil (split_ne_nil sep rest)
    rw [split_cons]
    split
    next same => rw [join_cons _ (split_ne_nil sep rest), ih, same, List.nil_append]
    next =>
      rw [parts] at ih ⊢
      cases more with
      | nil => simpa [join, List.intercalate] using ih
      | cons next more =>
        rw [join_cons _ (by simp)] at ih ⊢
        rw [List.cons_append, ih]

/-- The parts of a text are those that make it with the separator in between and do not hold it. -/
theorem split_eq_iff {text : Bytes} {parts : List Bytes} :
    split sep text = parts ↔ parts ≠ [] ∧ text = join [sep] parts ∧ ∀ part ∈ parts, sep ∉ part := by
  constructor
  · rintro rfl
    exact ⟨split_ne_nil sep text, (join_split text).symm, fun part => not_mem_of_mem_split⟩
  · rintro ⟨some, rfl, free⟩
    exact split_join some free

theorem mem_join_of_mem {parts : List Bytes} {part : Bytes} (member : part ∈ parts) {b : UInt8}
    (inside : b ∈ part) : b ∈ join [sep] parts := by
  induction parts with
  | nil => simp at member
  | cons first more ih =>
    cases more with
    | nil =>
      obtain rfl := List.mem_singleton.mp member
      simpa [join, List.intercalate] using inside
    | cons next rest =>
      rw [join_cons first (by simp), List.mem_append, List.mem_cons]
      rcases List.mem_cons.mp member with rfl | later
      · exact .inl inside
      · exact .inr (.inr (ih later))

theorem of_mem_join {parts : List Bytes} {b : UInt8} (member : b ∈ join [sep] parts) :
    b = sep ∨ ∃ part ∈ parts, b ∈ part := by
  induction parts with
  | nil => simp [join, List.intercalate] at member
  | cons first more ih =>
    cases more with
    | nil => exact .inr ⟨first, by simp, by simpa [join, List.intercalate] using member⟩
    | cons next rest =>
      rw [join_cons first (by simp), List.mem_append, List.mem_cons] at member
      rcases member with inside | rfl | later
      · exact .inr ⟨first, by simp, inside⟩
      · exact .inl rfl
      · obtain same | ⟨part, among, inside⟩ := ih later
        · exact .inl same
        · exact .inr ⟨part, List.mem_cons_of_mem _ among, inside⟩

def weight : List Bytes → Nat
  | [] => 0
  | part :: more => part.length + 1 + weight more

@[simp] theorem weight_nil : weight [] = 0 := rfl

@[simp] theorem weight_cons (part : Bytes) (more : List Bytes) :
    weight (part :: more) = part.length + 1 + weight more := rfl

theorem weight_concat (parts : List Bytes) (last : Bytes) :
    weight (parts ++ [last]) = weight parts + (last.length + 1) := by
  induction parts with
  | nil => simp
  | cons part more ih =>
    rw [List.cons_append, weight_cons, ih, weight_cons]
    omega

theorem weight_reverse (parts : List Bytes) : weight parts.reverse = weight parts := by
  induction parts with
  | nil => rfl
  | cons part more ih =>
    rw [List.reverse_cons, weight_concat, ih, weight_cons]
    omega

theorem length_join {parts : List Bytes} (parts_ne : parts ≠ []) :
    (join [sep] parts).length + 1 = weight parts := by
  induction parts with
  | nil => contradiction
  | cons part more ih =>
    cases more with
    | nil => simp [join, List.intercalate]
    | cons next rest =>
      rw [join_cons part (by simp), weight_cons, ← ih (by simp), List.length_append, List.length_cons]
      omega

theorem weight_split (text : Bytes) : weight (split sep text) = text.length + 1 := by
  rw [← length_join (split_ne_nil sep text), join_split]

end Bytes

namespace Path

/-- A component that leads from a directory to what it holds under this name. -/
structure IsName (part : Bytes) : Prop where
  nonempty : part ≠ []
  here : part ≠ dot
  up : part ≠ dotDot
  free : slash ∉ part

/-- Components, last first, of which nothing is left to be resolved. -/
inductive Resolved (rooted : Bool) : List Bytes → Prop
  | nil : Resolved rooted []
  | name {done : List Bytes} {part : Bytes} (before : Resolved rooted done) (named : IsName part) :
      Resolved rooted (part :: done)
  | up {done : List Bytes} (relative : rooted = false) (before : Resolved rooted done)
      (ups : ∀ last ∈ done.head?, last = dotDot) : Resolved rooted (dotDot :: done)

theorem walk_name {part : Bytes} (named : IsName part) (rooted : Bool) (done : List Bytes) :
    walk rooted done part = part :: done := by
  simp [walk, named.nonempty, named.here, named.up]

theorem walk_stay {part : Bytes} (stay : part = [] ∨ part = dot) (rooted : Bool) (done : List Bytes) :
    walk rooted done part = done := by
  simp [walk, stay]

theorem Resolved.step {rooted : Bool} {done : List Bytes} (resolved : Resolved rooted done)
    {part : Bytes} (free : slash ∉ part) : Resolved rooted (walk rooted done part) := by
  unfold walk
  split
  · exact resolved
  next some =>
    rw [not_or] at some
    split
    next isUp =>
      -- Going up takes a name back, but stays where there is none to take.
      cases resolved with
      | nil =>
        cases rooted with
        | true => exact .nil
        | false => exact .up rfl .nil (by simp)
      | name before named => simpa [named.up] using before
      | up relative before ups => exact .up relative (.up relative before ups) (by simp)
    next notUp => exact .name resolved ⟨some.1, some.2, notUp, free⟩

theorem Resolved.foldl_walk {rooted : Bool} {done : List Bytes} (resolved : Resolved rooted done) :
    done.reverse.foldl (walk rooted) [] = done := by
  induction resolved with
  | nil => rfl
  | name before named ih => rw [List.reverse_cons, List.foldl_append, ih]; exact walk_name named ..
  | @up done relative before ups ih =>
    rw [List.reverse_cons, List.foldl_append, ih]
    cases done with
    | nil => simp [walk, relative, dotDot, dot]
    | cons last more => simp [walk, ups last rfl, dotDot, dot]

theorem Resolved.part {rooted : Bool} {done : List Bytes} (resolved : Resolved rooted done) :
    ∀ part ∈ done, part ≠ [] ∧ slash ∉ part := by
  induction resolved with
  | nil => simp
  | name before named ih => exact List.forall_mem_cons.mpr ⟨⟨named.nonempty, named.free⟩, ih⟩
  | up relative before ups ih => exact List.forall_mem_cons.mpr ⟨by decide, ih⟩

/-- What cannot be resolved leads up, and first of all. -/
theorem Resolved.exists_names {rooted : Bool} {done : List Bytes} (resolved : Resolved rooted done) :
    ∃ names ups, done = names ++ ups ∧ (∀ part ∈ names, IsName part) ∧
      ∀ part ∈ ups, part = dotDot := by
  induction resolved with
  | nil => exact ⟨[], [], by simp⟩
  | @name done part _ named ih =>
    obtain ⟨names, ups, rfl, later, up⟩ := ih
    exact ⟨part :: names, ups, rfl, List.forall_mem_cons.mpr ⟨named, later⟩, up⟩
  | up _ _ last ih =>
    obtain ⟨names, ups, rfl, named, up⟩ := ih
    cases names with
    | nil => exact ⟨[], dotDot :: ups, rfl, by simp, List.forall_mem_cons.mpr ⟨rfl, up⟩⟩
    | cons name names => exact absurd (last name rfl) (named name (by simp)).up

theorem resolved_parts (path : Path) : Resolved path.isRooted path.parts.reverse := by
  suffices kept : ∀ (parts done : List Bytes), (∀ part ∈ parts, slash ∉ part) →
      Resolved path.isRooted done → Resolved path.isRooted (parts.foldl (walk path.isRooted) done) by
    rw [parts, List.reverse_reverse]
    exact kept _ _ (fun _ member => Bytes.not_mem_of_mem_split member) .nil
  intro parts
  induction parts with
  | nil => exact fun _ _ resolved => resolved
  | cons part more ih =>
    intro done free resolved
    obtain ⟨first, later⟩ := List.forall_mem_cons.mp free
    exact ih _ later (resolved.step first)

/-- No component is made up. -/
theorem mem_split_of_mem_parts {path : Path} {part : Bytes} (member : part ∈ path.parts) :
    part ∈ path.split slash := by
  suffices kept : ∀ pending done : List Bytes,
      ∀ part ∈ pending.foldl (walk path.isRooted) done, part ∈ done ∨ part ∈ pending by
    simpa using kept _ _ part (List.mem_reverse.mp member)
  intro pending
  induction pending with
  | nil => exact fun _ _ inside => .inl inside
  | cons next more ih =>
    intro done part inside
    rcases ih _ part inside with walked | later
    · have either : part ∈ done ∨ part = next := by
        unfold walk at walked
        split at walked
        · exact .inl walked
        · split at walked
          next isUp => split at walked <;> split at walked <;> grind
          · exact (List.mem_cons.mp walked).symm
      rw [List.mem_cons, ← or_assoc]
      exact .inl either
    · exact .inr (List.mem_cons_of_mem _ later)

theorem weight_walk_le (rooted : Bool) (done : List Bytes) (part : Bytes) :
    Bytes.weight (walk rooted done part) ≤ Bytes.weight done + (part.length + 1) := by
  unfold walk
  split
  · omega
  · split
    next isUp =>
      subst isUp
      split
      · split <;> simp
      · split
        · rw [Bytes.weight_cons]
          omega
        · rw [Bytes.weight_cons]
          omega
    · rw [Bytes.weight_cons]
      omega

theorem weight_foldl_walk_le (rooted : Bool) (pending done : List Bytes) :
    Bytes.weight (pending.foldl (walk rooted) done) ≤ Bytes.weight done + Bytes.weight pending := by
  induction pending generalizing done with
  | nil => simp
  | cons part more ih =>
    have first := weight_walk_le rooted done part
    have later := ih (walk rooted done part)
    rw [List.foldl_cons, Bytes.weight_cons]
    omega

/-- The shortest spelling is not longer than any other. -/
theorem length_clean_le {path : Path} (some : path ≠ []) : path.clean.length ≤ path.length := by
  have positive := List.length_pos_iff.mpr some
  have shorter : (Bytes.join [slash] path.parts).length ≤ Bytes.weight path.parts - 1 := by
    by_cases none : path.parts = []
    · simp [none, Bytes.join, List.intercalate]
    · rw [← Bytes.length_join none]
      exact Nat.le_refl _
  rw [clean]
  cases rooted : path.isRooted with
  | false =>
    have lighter := weight_foldl_walk_le path.isRooted (path.split slash) []
    rw [← Bytes.weight_reverse, ← parts, Bytes.weight_nil, Nat.zero_add, Bytes.weight_split] at lighter
    simp only [Bool.false_eq_true, ↓reduceIte]
    split
    · exact positive
    · omega
  | true =>
    -- The component before the leading slash is empty and weighs one.
    obtain ⟨b, rest, rfl⟩ := List.exists_cons_of_ne_nil some
    obtain rfl : b = slash := by simpa [isRooted] using rooted
    have walked : Bytes.weight (parts (slash :: rest)) ≤ rest.length + 1 := by
      have later := weight_foldl_walk_le true (Bytes.split slash rest) []
      rw [Bytes.weight_split, Bytes.weight_nil, Nat.zero_add] at later
      rw [parts, rooted, Bytes.split_cons, if_pos rfl, List.foldl_cons, walk_stay (.inl rfl),
        Bytes.weight_reverse]
      exact later
    simp only [↓reduceIte, List.length_cons]
    omega

section Spelling

variable {rooted : Bool} {parts : List Bytes}

def spelled (rooted : Bool) (parts : List Bytes) : Path :=
  let joined := Bytes.join [slash] parts
  if rooted then slash :: joined
  else if joined = [] then dot else joined

theorem clean_eq_spelled (path : Path) : path.clean = spelled path.isRooted path.parts := rfl

theorem join_ne_nil (resolved : Resolved rooted parts.reverse) (some : parts ≠ []) :
    Bytes.join [slash] parts ≠ [] := by
  obtain ⟨part, more, rfl⟩ := List.exists_cons_of_ne_nil some
  have nonempty := (resolved.part part (by simp)).1
  cases more with
  | nil => simpa [Bytes.join, List.intercalate] using nonempty
  | cons next rest => simp [Bytes.join_cons]

theorem spelled_of_ne_nil (resolved : Resolved rooted parts.reverse) (some : parts ≠ []) :
    spelled rooted parts = (if rooted then [slash] else []) ++ Bytes.join [slash] parts := by
  cases rooted <;> simp [spelled, join_ne_nil resolved some]

/-- A spelling falls into its components and, before them, some that stay in place. -/
theorem split_spelled (resolved : Resolved rooted parts.reverse) :
    ∃ lead, (∀ part ∈ lead, part = [] ∨ part = dot) ∧
      (spelled rooted parts).split slash = lead ++ parts := by
  by_cases some : parts = []
  · subst some
    cases rooted with
    | true => exact ⟨[[], []], by simp, by decide⟩
    | false => exact ⟨[dot], by simp, by decide⟩
  · have free : ∀ part ∈ parts, slash ∉ part := fun part member =>
      (resolved.part part (List.mem_reverse.mpr member)).2
    have split := Bytes.split_join some free
    rw [spelled_of_ne_nil resolved some]
    cases rooted with
    | true => exact ⟨[[]], by simp, by simp [Bytes.split_cons, split]⟩
    | false => exact ⟨[], by simp, by simpa using split⟩

theorem isRooted_spelled (resolved : Resolved rooted parts.reverse) :
    (spelled rooted parts).isRooted = rooted := by
  cases rooted with
  | true => rfl
  | false =>
    by_cases some : parts = []
    · subst some
      rfl
    · rw [spelled_of_ne_nil resolved some]
      obtain ⟨part, more, rfl⟩ := List.exists_cons_of_ne_nil some
      obtain ⟨nonempty, free⟩ := resolved.part part (by simp)
      obtain ⟨b, rest, rfl⟩ := List.exists_cons_of_ne_nil nonempty
      have other : b ≠ slash := by
        rintro rfl
        simp at free
      cases more with
      | nil => simpa [isRooted, Bytes.join, List.intercalate] using other
      | cons next others => simpa [isRooted, Bytes.join_cons] using other

theorem foldl_walk_lead {lead : List Bytes} (stay : ∀ part ∈ lead, part = [] ∨ part = dot)
    (done : List Bytes) : lead.foldl (walk rooted) done = done := by
  induction lead with
  | nil => rfl
  | cons part more ih =>
    obtain ⟨first, later⟩ := List.forall_mem_cons.mp stay
    rw [List.foldl_cons, walk_stay first, ih later]

theorem foldl_walk_names {names : List Bytes} (named : ∀ part ∈ names, IsName part)
    (done : List Bytes) : names.foldl (walk rooted) done = names.reverse ++ done := by
  induction names generalizing done with
  | nil => rfl
  | cons part more ih =>
    obtain ⟨first, later⟩ := List.forall_mem_cons.mp named
    rw [List.foldl_cons, walk_name first, ih later]
    simp

theorem foldl_walk_spelled (resolved : Resolved rooted parts.reverse) :
    ((spelled rooted parts).split slash).foldl (walk rooted) [] = parts.reverse := by
  obtain ⟨lead, stay, split⟩ := split_spelled resolved
  have walked := resolved.foldl_walk
  rw [List.reverse_reverse] at walked
  rw [split, List.foldl_append, foldl_walk_lead stay, walked]

theorem resolved_append (resolved : Resolved rooted parts.reverse) (names : List Bytes)
    (named : ∀ part ∈ names, IsName part) : Resolved rooted (parts ++ names).reverse := by
  induction names generalizing parts with
  | nil => simpa using resolved
  | cons part more ih =>
    obtain ⟨first, later⟩ := List.forall_mem_cons.mp named
    have longer : Resolved rooted (parts ++ [part]).reverse := by simpa using .name resolved first
    simpa using ih longer later

theorem spelled_snoc (resolved : Resolved rooted parts.reverse) (some : parts ≠ []) {last : Bytes}
    (named : IsName last) : spelled rooted (parts ++ [last]) = spelled rooted parts ++ slash :: last := by
  have longer := resolved_append resolved [last] (by simpa using named)
  rw [spelled_of_ne_nil longer (by simp), spelled_of_ne_nil resolved some, Bytes.join_snoc some]
  simp

theorem spelled_ne_nil (rooted : Bool) (parts : List Bytes) : spelled rooted parts ≠ [] := by
  cases rooted with
  | true => simp [spelled]
  | false =>
    by_cases empty : Bytes.join [slash] parts = [] <;> simp [spelled, empty, dot]

theorem isRooted_append {path : Path} (some : path ≠ []) (more : Bytes) :
    isRooted (path ++ more) = path.isRooted := by
  obtain ⟨b, rest, rfl⟩ := List.exists_cons_of_ne_nil some
  rfl

/-- The directory of a path that ends in a name. -/
theorem dir_spelled (resolved : Resolved rooted parts.reverse) (some : parts ≠ []) {last : Bytes}
    (named : IsName last) : dir (spelled rooted (parts ++ [last])) = spelled rooted parts := by
  have upTo : ((spelled rooted (parts ++ [last])).reverse.dropWhile (· != slash)).reverse =
      spelled rooted parts ++ [slash] := by
    have free : slash ∉ last.reverse := fun member => named.free (List.mem_reverse.mp member)
    rw [spelled_snoc resolved some named, List.reverse_append, List.reverse_cons, List.append_assoc,
      List.singleton_append, (Bytes.run_of_not_mem free _).takeWhile_eq.2]
    simp
  have sameRoot : isRooted (spelled rooted parts ++ [slash]) = rooted := by
    rw [isRooted_append (spelled_ne_nil _ _), isRooted_spelled resolved]
  have sameParts : Path.parts (spelled rooted parts ++ [slash]) = parts := by
    rw [Path.parts, sameRoot, Bytes.split_append_sep, List.foldl_append, foldl_walk_spelled resolved,
      Bytes.split_nil, List.foldl_cons, List.foldl_nil, walk_stay (.inl rfl), List.reverse_reverse]
  rw [dir, upTo, clean_eq_spelled, sameRoot, sameParts]

theorem base_spelled (resolved : Resolved rooted parts.reverse) (some : parts ≠ []) {last : Bytes}
    (named : IsName last) : base (spelled rooted (parts ++ [last])) = last := by
  obtain ⟨b, before, ends⟩ := List.exists_cons_of_ne_nil (List.reverse_ne_nil_iff.mpr named.nonempty)
  have free : slash ∉ last.reverse := fun member => named.free (List.mem_reverse.mp member)
  have kept : (last.reverse ++ slash :: (spelled rooted parts).reverse).dropWhile (· == slash) =
      last.reverse ++ slash :: (spelled rooted parts).reverse := by
    have other : b ≠ slash := ne_of_mem_of_not_mem (by simp [ends]) free
    rw [ends]
    simp [other]
  have taken : (last.reverse ++ slash :: (spelled rooted parts).reverse).takeWhile (· != slash) =
      last.reverse := (Bytes.run_of_not_mem free _).takeWhile_eq.1
  have whole : (spelled rooted parts ++ slash :: last).reverse =
      last.reverse ++ slash :: (spelled rooted parts).reverse := by simp
  rw [spelled_snoc resolved some named, base, if_neg (by simp)]
  simp only [whole, kept, taken, List.reverse_reverse]
  split
  · exact absurd rfl named.nonempty
  · rfl

/-- A path with names put at its end is spelled by its components and the names. -/
theorem join_eq_spelled (root : Path) {names : List Bytes} (some : names ≠ [])
    (named : ∀ part ∈ names, IsName part) :
    join (root :: names) = spelled root.isRooted (root.parts ++ names) := by
  have given : names.filter (· ≠ []) = names := by
    rw [List.filter_eq_self]
    intro part member
    simpa using (named part member).nonempty
  have split : (Bytes.join [slash] names).split slash = names :=
    Bytes.split_join some fun part member => (named part member).free
  by_cases empty : root = []
  · subst empty
    have resolved : Resolved false ([] ++ names).reverse := resolved_append .nil names named
    rw [List.nil_append] at resolved
    have relative : isRooted (Bytes.join [slash] names) = false := by
      simpa [spelled_of_ne_nil resolved some] using isRooted_spelled resolved
    have kept : Path.parts (Bytes.join [slash] names) = names := by
      rw [Path.parts, relative, split, foldl_walk_names named]
      simp
    have shown : join ([] :: names) = clean (Bytes.join [slash] names) := by
      obtain ⟨part, more, rfl⟩ := List.exists_cons_of_ne_nil some
      rw [join, List.filter_cons_of_neg (by simp), given]
    rw [shown, clean_eq_spelled, relative, kept]
    rfl
  · have sameRoot : isRooted (root ++ slash :: Bytes.join [slash] names) = root.isRooted :=
      isRooted_append empty _
    have kept : Path.parts (root ++ slash :: Bytes.join [slash] names) = root.parts ++ names := by
      rw [Path.parts, sameRoot, Bytes.split_append_sep, split, List.foldl_append,
        foldl_walk_names named, List.reverse_append, List.reverse_reverse, Path.parts]
    rw [join, List.filter_cons_of_pos (by simpa using empty), given]
    simp only
    rw [Bytes.join_cons root some, clean_eq_spelled, sameRoot, kept]

theorem parts_spelled (resolved : Resolved rooted parts.reverse) :
    Path.parts (spelled rooted parts) = parts := by
  rw [Path.parts, isRooted_spelled resolved, foldl_walk_spelled resolved, List.reverse_reverse]

theorem clean_spelled (resolved : Resolved rooted parts.reverse) :
    clean (spelled rooted parts) = spelled rooted parts := by
  rw [clean_eq_spelled, isRooted_spelled resolved, parts_spelled resolved]

theorem join_clean (path : Path) {names : List Bytes} (named : ∀ part ∈ names, IsName part) :
    join (path.clean :: names) = spelled path.isRooted (path.parts ++ names) := by
  have resolved := resolved_parts path
  rw [clean_eq_spelled]
  by_cases none : names = []
  · subst none
    have shown := clean_spelled resolved
    have given : [spelled path.isRooted path.parts].filter (· ≠ []) =
        [spelled path.isRooted path.parts] := by simp [spelled_ne_nil]
    rw [List.append_nil, join, given]
    simpa [Bytes.join, List.intercalate] using shown
  · rw [join_eq_spelled _ none named, isRooted_spelled resolved, parts_spelled resolved]

/-- A path whose shortest spelling is that of another with names put at its end. -/
theorem parts_of_clean_eq {path other : Path} {names : List Bytes}
    (named : ∀ part ∈ names, IsName part) (same : path.clean = join (other.clean :: names)) :
    path.isRooted = other.isRooted ∧ path.parts = other.parts ++ names := by
  have longer := resolved_append (resolved_parts other) names named
  rw [join_clean other named, clean_eq_spelled] at same
  constructor
  · rw [← isRooted_spelled (resolved_parts path), same, isRooted_spelled longer]
  · rw [← parts_spelled (resolved_parts path), same, parts_spelled longer]

theorem join_of_parts {path other : Path} {names more : List Bytes}
    (named : ∀ part ∈ names, IsName part) (rooted : path.isRooted = other.isRooted)
    (longer : path.parts = other.parts ++ names) (some : more ≠ []) (later : ∀ part ∈ more, IsName part) :
    join (path :: more) = join (other :: (names ++ more)) := by
  have all : ∀ part ∈ names ++ more, IsName part := List.forall_mem_append.mpr ⟨named, later⟩
  rw [join_eq_spelled path some later, rooted, longer, join_eq_spelled other (by simp [some]) all,
    List.append_assoc]

/-- A path is told by the names at its end. -/
theorem join_inj {path : Path} {names names' : List Bytes} (some : names ≠ []) (some' : names' ≠ [])
    (named : ∀ part ∈ names, IsName part) (named' : ∀ part ∈ names', IsName part)
    (same : join (path :: names) = join (path :: names')) : names = names' := by
  have resolved := resolved_append (resolved_parts path) names named
  have resolved' := resolved_append (resolved_parts path) names' named'
  rw [join_eq_spelled path some named, join_eq_spelled path some' named'] at same
  have parts := congrArg Path.parts same
  rw [parts_spelled resolved, parts_spelled resolved'] at parts
  exact List.append_cancel_left parts

theorem join_join (path : Path) {name : Bytes} (named : IsName name) {names : List Bytes}
    (some : names ≠ []) (later : ∀ part ∈ names, IsName part) :
    join (join [path, name] :: names) = join (path :: name :: names) := by
  have first : ∀ part ∈ [name], IsName part := by simpa using named
  have resolved := resolved_append (resolved_parts path) [name] first
  rw [join_eq_spelled path (by simp) first, join_eq_spelled _ some later, isRooted_spelled resolved,
    parts_spelled resolved, join_eq_spelled path (by simp) (List.forall_mem_cons.mpr ⟨named, later⟩)]
  simp

theorem length_spelled_le (resolved : Resolved rooted parts.reverse) {names : List Bytes}
    (named : ∀ part ∈ names, IsName part) :
    (spelled rooted parts).length ≤ (spelled rooted (parts ++ names)).length := by
  induction names generalizing parts with
  | nil => simp
  | cons part more ih =>
    obtain ⟨first, later⟩ := List.forall_mem_cons.mp named
    have longer : Resolved rooted (parts ++ [part]).reverse := by simpa using .name resolved first
    have onward := ih longer later
    have here : (spelled rooted parts).length ≤ (spelled rooted (parts ++ [part])).length := by
      by_cases none : parts = []
      · subst none
        have nonempty := List.length_pos_iff.mpr first.nonempty
        rw [spelled_of_ne_nil longer (by simp)]
        cases rooted with
        | true => simp [spelled, Bytes.join, List.intercalate]
        | false =>
          simp [spelled, Bytes.join, List.intercalate, dot]
          omega
      · rw [spelled_snoc resolved none first]
        simp
    simpa using Nat.le_trans here onward

/-- A spelling holds the bytes of its components, slashes and dots. -/
theorem of_mem_spelled {b : UInt8} (member : b ∈ spelled rooted parts) :
    b = slash ∨ b ∈ dot ∨ ∃ part ∈ parts, b ∈ part := by
  have joined (inside : b ∈ Bytes.join [slash] parts) :
      b = slash ∨ b ∈ dot ∨ ∃ part ∈ parts, b ∈ part :=
    (Bytes.of_mem_join inside).imp id .inr
  rw [spelled] at member
  split at member
  · rcases List.mem_cons.mp member with same | inside
    · exact .inl same
    · exact joined inside
  · split at member
    · exact .inr (.inl member)
    · exact joined member

end Spelling

end Path
end StackBound
