import Mathlib.Data.List.Forall2
import StackBound.Proofs.CallGraph.DumpLine

/-! The blocks of a dump. A definition line starts a block and the next definition line ends it; of the
lines in between only the first list of calls counts. Nothing is carried over from one block to the
next, so a dump that starts with a definition can be put behind any other. -/
namespace StackBound.CallGraph.Dump

/-- A definition line and the lines up to the next one. -/
structure Block where
  head : Bytes
  definition : Definition
  body : List Bytes

namespace Block

def lines (b : Block) : List Bytes := b.head :: b.body

/-- What a block lists for the name that it defines: nothing, or what the first of its lists says. -/
inductive Lists (b : Block) : List CallList → Prop
  | nothing (silent : ∀ line ∈ b.body, ¬ IsListing line) : Lists b []
  | first {before after : List Bytes} {line : Bytes} {refs : List Bytes}
      (whole : b.body = before ++ line :: after) (silent : ∀ line ∈ before, ¬ IsListing line)
      (refers : Refers line refs) : Lists b [⟨b.definition.name, refs⟩]

def found (b : Block) : Option CallList := (b.body.findSome? calls?).map (⟨b.definition.name, ·⟩)

theorem lists_iff {b : Block} (free : ∀ line ∈ b.body, 10 ∉ line) {lists : List CallList} :
    b.Lists lists ↔ lists = b.found.toList := by
  have refers {line : Bytes} (member : line ∈ b.body) {refs : List Bytes} :
      calls? line = some refs ↔ Refers line refs := calls?_eq_some_iff (free line member)
  have silent {line : Bytes} (member : line ∈ b.body) : calls? line = none ↔ ¬ IsListing line :=
    calls?_eq_none_iff (free line member)
  constructor
  · rintro (none | @⟨before, after, line, refs, whole, none, listed⟩)
    · have nothing : b.body.findSome? calls? = .none :=
        List.findSome?_eq_none_iff.mpr fun line member => (silent member).mpr (none line member)
      rw [found, nothing]
      rfl
    · have first : b.body.findSome? calls? = some refs := by
        refine List.findSome?_eq_some_iff.mpr ⟨before, line, after, whole, ?_, fun other member => ?_⟩
        · exact (refers (by simp [whole])).mpr listed
        · exact (silent (by simp [whole, member])).mpr (none other member)
      rw [found, first]
      rfl
  · rintro rfl
    rw [found]
    cases first : b.body.findSome? calls? with
    | none =>
      have none := List.findSome?_eq_none_iff.mp first
      exact .nothing fun line member => (silent member).mp (none line member)
    | some refs =>
      obtain ⟨before, line, after, whole, listed, none⟩ := List.findSome?_eq_some_iff.mp first
      exact .first whole (fun other member => (silent (by simp [whole, member])).mp (none other member))
        ((refers (by simp [whole])).mp listed)

theorem forall₂_lists_iff {blocks : List Block} (free : ∀ b ∈ blocks, ∀ line ∈ b.body, 10 ∉ line)
    {lists : List (List CallList)} :
    List.Forall₂ Lists blocks lists ↔ lists = blocks.map fun b => b.found.toList := by
  induction blocks generalizing lists with
  | nil => simp
  | cons b rest ih =>
    obtain ⟨first, later⟩ := List.forall_mem_cons.mp free
    rw [List.forall₂_cons_left_iff, List.map_cons]
    simp only [lists_iff first, ih later]
    constructor
    · rintro ⟨_, _, rfl, rfl, rfl⟩
      rfl
    · rintro rfl
      exact ⟨_, _, rfl, rfl, rfl⟩

end Block

/-- Lines cut into those before the first definition and the blocks after them. -/
structure Cut (lines preamble : List Bytes) (blocks : List Block) : Prop where
  whole : lines = preamble ++ blocks.flatMap Block.lines
  before : ∀ line ∈ preamble, ∀ p : Opening, ¬ p.Spells line
  opens : ∀ b ∈ blocks, ∃ p : Opening, p.Spells b.head ∧ p.definition = b.definition
  within : ∀ b ∈ blocks, ∀ line ∈ b.body, ∀ p : Opening, ¬ p.Spells line

variable {line : Bytes} {lines preamble more : List Bytes} {blocks : List Block}

namespace Cut

theorem nil : Cut [] [] [] := ⟨rfl, by simp, by simp, by simp⟩

theorem cons_inner (cut : Cut lines preamble blocks) (inner : ∀ p : Opening, ¬ p.Spells line) :
    Cut (line :: lines) (line :: preamble) blocks where
  whole := by rw [cut.whole, List.cons_append]
  before := List.forall_mem_cons.mpr ⟨inner, cut.before⟩
  opens := cut.opens
  within := cut.within

/-- What stood before the first definition becomes the body of a block. -/
theorem cons_opening {p : Opening} (cut : Cut lines preamble blocks) (spells : p.Spells line) :
    Cut (line :: lines) [] (⟨line, p.definition, preamble⟩ :: blocks) where
  whole := by rw [cut.whole, List.flatMap_cons, Block.lines]; rfl
  before := by simp
  opens := List.forall_mem_cons.mpr ⟨⟨p, spells, rfl⟩, cut.opens⟩
  within := List.forall_mem_cons.mpr ⟨cut.before, cut.within⟩

theorem exists_cut (lines : List Bytes) : ∃ preamble blocks, Cut lines preamble blocks := by
  induction lines with
  | nil => exact ⟨[], [], nil⟩
  | cons line rest ih =>
    obtain ⟨preamble, blocks, cut⟩ := ih
    by_cases inner : ∀ p : Opening, ¬ p.Spells line
    · exact ⟨_, _, cut.cons_inner inner⟩
    · simp only [not_forall, not_not] at inner
      obtain ⟨p, spells⟩ := inner
      exact ⟨_, _, cut.cons_opening spells⟩

/-- The first line belongs to the preamble, or it starts a block. -/
theorem cons_cases (cut : Cut (line :: lines) preamble blocks) :
    (∃ rest, preamble = line :: rest ∧ (∀ p : Opening, ¬ p.Spells line) ∧ Cut lines rest blocks) ∨
    ∃ (p : Opening) (body : List Bytes) (rest : List Block), preamble = [] ∧
      blocks = ⟨line, p.definition, body⟩ :: rest ∧ p.Spells line ∧ Cut lines body rest := by
  obtain ⟨whole, before, opens, within⟩ := cut
  cases preamble with
  | cons first rest =>
    obtain ⟨rfl, onward⟩ := List.cons.inj whole
    obtain ⟨inner, before⟩ := List.forall_mem_cons.mp before
    exact .inl ⟨rest, rfl, inner, onward, before, opens, within⟩
  | nil =>
    cases blocks with
    | nil => cases whole
    | cons b rest =>
      obtain ⟨⟨p, spells, defined⟩, opens⟩ := List.forall_mem_cons.mp opens
      obtain ⟨inner, within⟩ := List.forall_mem_cons.mp within
      obtain ⟨rfl, onward⟩ := List.cons.inj whole
      refine .inr ⟨p, b.body, rest, rfl, ?_, spells, onward, inner, opens, within⟩
      rw [defined]

theorem unique {preamble' : List Bytes} {blocks' : List Block} (cut : Cut lines preamble blocks)
    (cut' : Cut lines preamble' blocks') : preamble = preamble' ∧ blocks = blocks' := by
  induction lines generalizing preamble blocks preamble' blocks' with
  | nil =>
    have none {preamble : List Bytes} {blocks : List Block} (cut : Cut [] preamble blocks) :
        preamble = [] ∧ blocks = [] := by
      obtain ⟨rfl, rest⟩ := List.append_eq_nil_iff.mp cut.whole.symm
      cases blocks with
      | nil => exact ⟨rfl, rfl⟩
      | cons b more => cases rest
    obtain ⟨rfl, rfl⟩ := none cut
    obtain ⟨rfl, rfl⟩ := none cut'
    exact ⟨rfl, rfl⟩
  | cons line lines ih =>
    rcases cut.cons_cases with ⟨rest, rfl, inner, onward⟩ | ⟨p, body, rest, rfl, rfl, spells, onward⟩ <;>
      rcases cut'.cons_cases with
        ⟨rest', rfl, inner', onward'⟩ | ⟨p', body', rest', rfl, rfl, spells', onward'⟩
    · obtain ⟨rfl, rfl⟩ := ih onward onward'
      exact ⟨rfl, rfl⟩
    · exact absurd spells' (inner p')
    · exact absurd spells (inner' p)
    · obtain ⟨rfl, rfl⟩ := ih onward onward'
      obtain rfl := spells.unique spells'
      exact ⟨rfl, rfl⟩

/-- Two cuts make a cut of both, if the second has no lines before its first definition. -/
theorem append {blocks' : List Block} (cut : Cut lines preamble blocks)
    (cut' : Cut more [] blocks') : Cut (lines ++ more) preamble (blocks ++ blocks') where
  whole := by
    rw [cut.whole, cut'.whole, List.flatMap_append, List.nil_append, List.append_assoc]
  before := cut.before
  opens := List.forall_mem_append.mpr ⟨cut.opens, cut'.opens⟩
  within := List.forall_mem_append.mpr ⟨cut.within, cut'.within⟩

/-- A cut begins with a block where the lines begin with a definition. -/
theorem preamble_eq_nil (cut : Cut lines preamble blocks)
    (opens : ∃ line ∈ lines.head?, ∃ p : Opening, p.Spells line) : preamble = [] := by
  obtain ⟨line, first, p, spells⟩ := opens
  obtain ⟨rest, rfl⟩ := List.head?_eq_some_iff.mp first
  rcases cut.cons_cases with ⟨_, -, inner, -⟩ | ⟨_, _, _, rfl, -⟩
  · exact absurd spells (inner p)
  · rfl

end Cut

namespace Scan

variable {s : Scan}

theorem step_of_none {line : Bytes} (inner : definition? line = none) (idle : s.current = none) :
    s.step line = s := by
  simp only [step, inner, idle]

/-- Before a definition nothing is found. -/
theorem foldl_of_idle (inner : ∀ line ∈ lines, definition? line = none) (idle : s.current = none) :
    lines.foldl step s = s := by
  induction lines with
  | nil => rfl
  | cons line rest ih =>
    obtain ⟨first, later⟩ := List.forall_mem_cons.mp inner
    rw [List.foldl_cons, step_of_none first idle, ih later]

/-- Behind a definition the first list of calls is found, and nothing else. -/
theorem foldl_of_waiting {caller : Name} (inner : ∀ line ∈ lines, definition? line = none)
    (waiting : s.current = some caller) :
    (lines.foldl step s).definitions = s.definitions ∧
      (lines.foldl step s).calls =
        ((lines.findSome? calls?).map (CallList.mk caller)).toList ++ s.calls := by
  induction lines with
  | nil => exact ⟨rfl, rfl⟩
  | cons line rest ih =>
    obtain ⟨first, later⟩ := List.forall_mem_cons.mp inner
    rw [List.foldl_cons, List.findSome?_cons]
    cases listed : calls? line with
    | none =>
      have same : s.step line = s := by simp only [step, first, waiting, listed]
      rw [same]
      exact ih later
    | some refs =>
      have taken : s.step line = ⟨s.definitions, ⟨caller, refs⟩ :: s.calls, none⟩ := by
        simp only [step, first, waiting, listed]
      rw [taken, foldl_of_idle later rfl]
      exact ⟨rfl, rfl⟩

theorem foldl_block {b : Block} (opens : definition? b.head = some b.definition)
    (within : ∀ line ∈ b.body, definition? line = none) (s : Scan) :
    (b.lines.foldl step s).definitions = b.definition :: s.definitions ∧
      (b.lines.foldl step s).calls = b.found.toList ++ s.calls := by
  have opened : s.step b.head = ⟨b.definition :: s.definitions, s.calls, some b.definition.name⟩ :=
    defines_iff.mpr opens s
  rw [Block.lines, List.foldl_cons, opened]
  exact foldl_of_waiting within rfl

theorem foldl_blocks (opens : ∀ b ∈ blocks, definition? b.head = some b.definition)
    (within : ∀ b ∈ blocks, ∀ line ∈ b.body, definition? line = none) (s : Scan) :
    ((blocks.flatMap Block.lines).foldl step s).definitions =
        (blocks.map (·.definition)).reverse ++ s.definitions ∧
      ((blocks.flatMap Block.lines).foldl step s).calls =
        (blocks.filterMap Block.found).reverse ++ s.calls := by
  induction blocks generalizing s with
  | nil => exact ⟨rfl, rfl⟩
  | cons b rest ih =>
    obtain ⟨first, later⟩ := List.forall_mem_cons.mp opens
    obtain ⟨inner, inners⟩ := List.forall_mem_cons.mp within
    obtain ⟨definitions, calls⟩ := foldl_block first inner s
    obtain ⟨others, lists⟩ := ih later inners (b.lines.foldl step s)
    rw [List.flatMap_cons, List.foldl_append, others, lists, definitions, calls]
    refine ⟨by simp, ?_⟩
    cases found : b.found <;> simp [found]

end Scan

section Free

variable (free : ∀ line ∈ lines, 10 ∉ line) {lists : List (List CallList)}
include free

theorem Cut.free_block (cut : Cut lines preamble blocks) : ∀ b ∈ blocks, ∀ line ∈ b.lines, 10 ∉ line :=
  fun _ among line member =>
    free line (cut.whole ▸ List.mem_append_right _ (List.mem_flatMap_of_mem among member))

theorem Cut.lists_iff (cut : Cut lines preamble blocks) :
    List.Forall₂ Block.Lists blocks lists ↔ lists = blocks.map fun b => b.found.toList :=
  Block.forall₂_lists_iff fun b among line member =>
    cut.free_block free b among line (List.mem_cons_of_mem _ member)

/-- The definitions of a dump are those of its blocks, and so are its lists. -/
theorem Cut.ofLines_eq (cut : Cut lines preamble blocks) (listed : List.Forall₂ Block.Lists blocks lists) :
    ofLines lines = ⟨blocks.map (·.definition), lists.flatten⟩ := by
  have opens (b : Block) (among : b ∈ blocks) : definition? b.head = some b.definition := by
    have whole := cut.free_block free b among _ List.mem_cons_self
    exact (definition?_eq_some_iff whole).mpr (cut.opens b among)
  have within (b : Block) (among : b ∈ blocks) (line : Bytes) (member : line ∈ b.body) :
      definition? line = none :=
    (definition?_eq_none_iff (cut.free_block free b among line (List.mem_cons_of_mem _ member))).mpr
      (cut.within b among line member)
  have idle (line : Bytes) (member : line ∈ preamble) : definition? line = none :=
    (definition?_eq_none_iff (free line (cut.whole ▸ List.mem_append_left _ member))).mpr
      (cut.before line member)
  obtain ⟨definitions, calls⟩ := Scan.foldl_blocks opens within ⟨[], [], none⟩
  obtain rfl := (cut.lists_iff free).mp listed
  rw [ofLines, cut.whole, List.foldl_append, Scan.foldl_of_idle idle rfl, definitions, calls,
    List.filterMap_eq_flatMap_toList, List.flatMap_def]
  simp

end Free

variable {content : Bytes}

theorem parse_of_short (short : ∀ line ∈ Lines.raw content, line.length < lineLimit) :
    parse content = .ok (ofLines ((Lines.raw content).map Lines.withoutReturn)) := by
  rw [parse, Lines.ofContent_of_short short]
  rfl

theorem parse_of_long (long : ∃ line ∈ Lines.raw content, lineLimit ≤ line.length) :
    parse content = .error (.during (utf8 "read") .lineTooLong) := by
  rw [parse, if_pos (Lines.tooLong_iff.mpr long)]

theorem free_lines (content : Bytes) :
    ∀ line ∈ (Lines.raw content).map Lines.withoutReturn, 10 ∉ line := by
  simp only [List.mem_map]
  rintro _ ⟨line, member, rfl⟩
  exact Lines.free_withoutReturn ((Lines.spelled_raw content).free line member)

/-- What is read are the definitions and the lists of the blocks. -/
theorem parse_of_cut (short : ∀ line ∈ Lines.raw content, line.length < lineLimit)
    (cut : Cut ((Lines.raw content).map Lines.withoutReturn) preamble blocks)
    {lists : List (List CallList)} (listed : List.Forall₂ Block.Lists blocks lists) :
    parse content = .ok ⟨blocks.map (·.definition), lists.flatten⟩ := by
  rw [parse_of_short short, cut.ofLines_eq (free_lines content) listed]

/-- A dump that starts with a definition has blocks of its own behind another one. -/
theorem parse_append {next : Bytes} (ended : content.getLast? = some Lines.newline)
    (opens : ∃ line ∈ ((Lines.raw next).map Lines.withoutReturn).head?,
      ∃ p : Opening, p.Spells line) :
    parse (content ++ next) = do
      let first ← parse content
      let second ← parse next
      return ⟨first.definitions ++ second.definitions, first.calls ++ second.calls⟩ := by
  have both : Lines.raw (content ++ next) = Lines.raw content ++ Lines.raw next :=
    Lines.raw_append ended next
  by_cases long : ∃ line ∈ Lines.raw content, lineLimit ≤ line.length
  · obtain ⟨line, member, tooLong⟩ := long
    rw [parse_of_long ⟨line, member, tooLong⟩,
      parse_of_long ⟨line, both ▸ List.mem_append_left _ member, tooLong⟩]
    rfl
  have short : ∀ line ∈ Lines.raw content, line.length < lineLimit := fun line member =>
    Nat.lt_of_not_le fun tooLong => long ⟨line, member, tooLong⟩
  by_cases long' : ∃ line ∈ Lines.raw next, lineLimit ≤ line.length
  · obtain ⟨line, member, tooLong⟩ := long'
    rw [parse_of_short short, parse_of_long ⟨line, member, tooLong⟩,
      parse_of_long ⟨line, both ▸ List.mem_append_right _ member, tooLong⟩]
    rfl
  have short' : ∀ line ∈ Lines.raw next, line.length < lineLimit := fun line member =>
    Nat.lt_of_not_le fun tooLong => long' ⟨line, member, tooLong⟩
  obtain ⟨preamble, blocks, cut⟩ := Cut.exists_cut ((Lines.raw content).map Lines.withoutReturn)
  obtain ⟨preamble', blocks', cut'⟩ := Cut.exists_cut ((Lines.raw next).map Lines.withoutReturn)
  obtain rfl := cut'.preamble_eq_nil opens
  have listed := (cut.lists_iff (free_lines content)).mpr rfl
  have listed' := (cut'.lists_iff (free_lines next)).mpr rfl
  have joined : Cut ((Lines.raw (content ++ next)).map Lines.withoutReturn) preamble
      (blocks ++ blocks') := by
    rw [both, List.map_append]
    exact cut.append cut'
  rw [parse_of_cut short cut listed, parse_of_cut short' cut' listed',
    parse_of_cut (both ▸ List.forall_mem_append.mpr ⟨short, short'⟩) joined
      (List.rel_append listed listed'), List.map_append, List.flatten_append]
  rfl

/-- Reading finds the blocks of a dump. They are cut in the only possible way, each gives one definition,
and each with a list of calls gives the first one; a line that is too long leaves nothing. So a dump
that starts with a definition can be put behind any other that ends its last line. -/
theorem parse_exact (content : Bytes) :
    let lines := (Lines.raw content).map Lines.withoutReturn
    (∀ raw, Lines.raw content = raw ↔ Lines.Spelled content raw) ∧
    ((∀ line ∈ Lines.raw content, line.length < 4194304) →
      ∃ preamble blocks lists, Cut lines preamble blocks ∧ List.Forall₂ Block.Lists blocks lists ∧
        (∀ preamble' blocks' lists', Cut lines preamble' blocks' →
          List.Forall₂ Block.Lists blocks' lists' →
          preamble = preamble' ∧ blocks = blocks' ∧ lists = lists') ∧
        parse content = .ok ⟨blocks.map (·.definition), lists.flatten⟩) ∧
    ((∃ line ∈ Lines.raw content, 4194304 ≤ line.length) →
      parse content = .error (.during (utf8 "read") .lineTooLong)) ∧
    ∀ next : Bytes, content.getLast? = some Lines.newline →
      (∃ line ∈ ((Lines.raw next).map Lines.withoutReturn).head?,
        ∃ p : Opening, p.Spells line) →
      parse (content ++ next) = do
        let first ← parse content
        let second ← parse next
        return ⟨first.definitions ++ second.definitions, first.calls ++ second.calls⟩ := by
  intro lines
  have free : ∀ line ∈ lines, 10 ∉ line := free_lines content
  obtain ⟨preamble, blocks, cut⟩ := Cut.exists_cut lines
  have listed := (cut.lists_iff free).mpr rfl
  refine ⟨fun _ => Lines.raw_eq_iff, fun short => ⟨preamble, blocks, _, cut, listed, ?_,
    parse_of_cut short cut listed⟩, parse_of_long, fun _ => parse_append⟩
  intro preamble' blocks' lists' cut' listed'
  obtain ⟨rfl, rfl⟩ := cut.unique cut'
  exact ⟨rfl, rfl, ((cut.lists_iff free).mp listed').symm⟩

/-- A dump with calls before any definition, behind it one with a definition that has no list and one
that has two. -/
theorem parse_exact_two :
    let content := utf8 "  Calls: tick/1\nmain/0 (main)\n  Calls: tick/1\n"
    let next := utf8 "tick/1 (tick)\nidle/2 (idle)\n  Calls: tick/1 main/0\n  Calls: idle/2"
    content.getLast? = some Lines.newline ∧
      (∃ line ∈ ((Lines.raw next).map Lines.withoutReturn).head?, ∃ p : Opening, p.Spells line) ∧
      parse (content ++ next) = .ok
        ⟨[⟨utf8 "main/0", utf8 "main"⟩, ⟨utf8 "tick/1", utf8 "tick"⟩,
          ⟨utf8 "idle/2", utf8 "idle"⟩],
          [⟨utf8 "main", [utf8 "tick/1"]⟩, ⟨utf8 "idle", [utf8 "tick/1", utf8 "main/0"]⟩]⟩ := by
  intro content next
  have ended : content.getLast? = some Lines.newline := by decide +kernel
  have opens : ∃ line ∈ ((Lines.raw next).map Lines.withoutReturn).head?,
      ∃ p : Opening, p.Spells line := by
    have spaces : ∀ b ∈ utf8 " ", b = 9 ∨ b = 12 ∨ b = 13 ∨ b = 32 := by decide +kernel
    refine ⟨utf8 "tick/1 (tick)", by decide +kernel,
      ⟨utf8 "tick", utf8 "1", utf8 " ", utf8 "tick", []⟩, ?_, ⟨?_, ?_⟩, ⟨?_, ?_⟩, ⟨?_, spaces⟩, ⟨?_, ?_⟩⟩
    all_goals decide +kernel
  have first : parse content =
      .ok ⟨[⟨utf8 "main/0", utf8 "main"⟩], [⟨utf8 "main", [utf8 "tick/1"]⟩]⟩ := by rfl
  have second : parse next = .ok ⟨[⟨utf8 "tick/1", utf8 "tick"⟩, ⟨utf8 "idle/2", utf8 "idle"⟩],
      [⟨utf8 "idle", [utf8 "tick/1", utf8 "main/0"]⟩]⟩ := by rfl
  refine ⟨ended, opens, ?_⟩
  rw [(parse_exact content).2.2.2 next ended opens, first, second]
  rfl

end StackBound.CallGraph.Dump
