import StackBound.Json.Value
import StackBound.Proofs.Json.Token

/-! Values read back from their texts. A value is plain when its strings are well-formed, its numbers
are integers, and it does not stand too deep; the text of a plain value is that value, on one line or
on many. -/
namespace StackBound.Json

/-- A value of well-formed strings and integers that is no deeper than so many arrays and objects
inside each other. -/
inductive Plain : Nat → Json → Prop
  | null {depth : Nat} : Plain depth .null
  | bool {depth : Nat} (value : Bool) : Plain depth (.bool value)
  | number {depth : Nat} (n : Int) : Plain depth (.number (Bytes.ofInt n))
  | string {depth : Nat} {text : Bytes} (encoded : text.IsUtf8) : Plain depth (.string text)
  | array {depth : Nat} {items : List Json} (each : ∀ item ∈ items, Plain depth item) :
      Plain (depth + 1) (.array items)
  | object {depth : Nat} {members : List Member} (keys : ∀ member ∈ members, member.1.IsUtf8)
      (values : ∀ member ∈ members, Plain depth member.2) : Plain (depth + 1) (.object members)

theorem Plain.int {depth : Nat} (n : Int64) : Plain depth (.int n) := .number n.toInt

theorem Plain.texts {depth : Nat} {l : List Bytes} (each : ∀ text ∈ l, text.IsUtf8) :
    Plain (depth + 1) (.texts l) := by
  refine .array fun item member => ?_
  obtain ⟨text, inside, rfl⟩ := List.mem_map.mp member
  exact .string (each text inside)

theorem plain_member {depth : Nat} (key : String) {value : Json} (plain : Plain depth value) :
    (member key value).1.IsUtf8 ∧ Plain depth (member key value).2 :=
  ⟨Bytes.isUtf8_utf8 key, plain⟩

theorem plain_object {depth : Nat} {members : List Member}
    (each : ∀ member ∈ members, member.1.IsUtf8 ∧ Plain depth member.2) :
    Plain (depth + 1) (.object members) :=
  .object (fun member inside => (each member inside).1) fun member inside => (each member inside).2

theorem mem_optional {absent : Bool} {key : String} {value : Json} {m : Member} :
    m ∈ optional absent key value ↔ absent = false ∧ m = member key value := by
  cases absent <;> simp [optional]

@[simp] theorem all_optional (absent : Bool) (key : String) (value : Json) (p : Member → Bool) :
    (optional absent key value).all p = (absent || p (member key value)) := by
  cases absent <;> simp [optional]

theorem plain_optional {depth : Nat} (absent : Bool) (key : String) {value : Json}
    (plain : Plain depth value) :
    ∀ m ∈ optional absent key value, m.1.IsUtf8 ∧ Plain depth m.2 := by
  intro m inside
  obtain ⟨_, rfl⟩ := mem_optional.mp inside
  exact plain_member key plain

theorem plain_orNull {α : Type} {depth : Nat} {list : Option (List α)} {item : α → Json}
    (each : ∀ l ∈ list, ∀ x ∈ l, Plain depth (item x)) : Plain (depth + 1) (orNull list item) := by
  cases list with
  | none => exact .null
  | some l => exact .array (List.forall_mem_map.mpr (each l rfl))

section Lexemes

theorem separated_singleton (part : List Token) : separated [part] = part := by
  simp [separated, List.intercalate]

theorem separated_cons (part next : List Token) (more : List (List Token)) :
    separated (part :: next :: more) = part ++ .comma :: separated (next :: more) := by
  simp [separated, List.intercalate]

theorem legible_separated {parts : List (List Token)} (each : ∀ part ∈ parts, Token.Legible part) :
    Token.Legible (separated parts) := by
  induction parts with
  | nil => exact Token.legible_nil
  | cons part more ih =>
    obtain ⟨first, later⟩ := List.forall_mem_cons.mp each
    cases more with
    | nil => simpa only [separated_singleton] using first
    | cons next rest =>
      rw [separated_cons]
      exact first.append_mark (.inl rfl) (ih later)

theorem tokens_array (items : List Json) :
    (array items).tokens = .openArray :: separated (items.map tokens) ++ [.closeArray] := by
  rw [tokens]

theorem tokens_object (members : List Member) :
    (object members).tokens = .openObject ::
      separated (members.map fun member => .string member.1 :: .colon :: member.2.tokens) ++
      [.closeObject] := by
  rw [tokens]

/-- The lexemes of a plain value are read back from its text. -/
theorem Plain.legible {depth : Nat} {value : Json} (plain : Plain depth value) :
    Token.Legible value.tokens := by
  induction plain with
  | null => simpa only [tokens] using Token.closed_null.cons Token.legible_nil
  | bool value => simpa only [tokens] using (Token.closed_truth value).cons Token.legible_nil
  | number n => simpa only [tokens] using Token.legible_number n
  | string encoded => simpa only [tokens] using (Token.closed_string encoded).cons Token.legible_nil
  | array each ih =>
    have inner := legible_separated (List.forall_mem_map.mpr ih)
    rw [tokens_array]
    exact Token.closed_openArray.cons (inner.append_mark (.inr (.inl rfl)) Token.legible_nil)
  | object keys values ih =>
    have inner := legible_separated (List.forall_mem_map.mpr fun member inside =>
      (Token.closed_string (keys member inside)).cons (Token.closed_colon.cons (ih member inside)))
    rw [tokens_object]
    exact Token.closed_openObject.cons (inner.append_mark (.inr (.inr rfl)) Token.legible_nil)

theorem Plain.ofText_spaced {depth : Nat} {value : Json} (plain : Plain depth value) {text gap : Bytes}
    (spaced : Token.Spaced value.tokens text) (blank : Token.Blank gap) :
    Token.ofText (text ++ gap) = value.tokens := by
  have last := blank.scan value.tokens.reverse []
  rw [List.append_nil] at last
  rw [Token.ofText, plain.legible _ _ _ spaced blank.ends, List.append_nil, last]
  simp [Token.scan]

theorem Plain.ofText_compact {depth : Nat} {value : Json} (plain : Plain depth value) :
    Token.ofText value.compact = value.tokens := by
  simpa [compact] using plain.ofText_spaced (Token.spaced_flatMap _) Token.blank_nil

def pieces (value : Json) : List Bytes := value.tokens.map Token.text

theorem compact_eq_pieces (value : Json) : value.compact = value.pieces.flatten := rfl

theorem map_separated (parts : List (List Token)) :
    (separated parts).map Token.text = [[44]].intercalate (parts.map (List.map Token.text)) := by
  induction parts with
  | nil => rfl
  | cons part more ih =>
    cases more with
    | nil => simp [separated_singleton, List.intercalate]
    | cons next rest =>
      rw [separated_cons, List.map_append, List.map_cons, ih]
      simp [List.intercalate, Token.text]

theorem pieces_string (text : Bytes) : (string text).pieces = [(Token.string text).text] := by
  rw [pieces, tokens]
  rfl

theorem pieces_array (items : List Json) :
    (array items).pieces = [91] :: [[44]].intercalate (items.map pieces) ++ [[93]] := by
  rw [pieces, tokens_array, List.map_append, List.map_cons, map_separated, List.map_map]
  rfl

theorem pieces_object (members : List Member) :
    (object members).pieces = [123] :: [[44]].intercalate (members.map fun member =>
      (Token.string member.1).text :: [58] :: member.2.pieces) ++ [[125]] := by
  rw [pieces, tokens_object, List.map_append, List.map_cons, map_separated, List.map_map]
  rfl

end Lexemes

section Lines

/-- A layout that has written some lexemes, and perhaps a gap after them. -/
def Layout.Holds (l : Layout) (tokens : List Token) : Prop :=
  ∃ text gap, l.written.reverse = text ++ gap ∧ Token.Spaced tokens text ∧ Token.Blank gap

namespace Layout.Holds

variable {l : Layout} {tokens : List Token}

theorem put_blank (holds : l.Holds tokens) {gap : Bytes} (blank : Token.Blank gap) :
    (l.put gap).Holds tokens := by
  obtain ⟨text, before, written, spaced, former⟩ := holds
  exact ⟨text, before ++ gap, by simp [put, written], spaced, former.append blank⟩

theorem put_token (holds : l.Holds tokens) (token : Token) :
    (l.put token.text).Holds (tokens ++ [token]) := by
  obtain ⟨text, gap, written, spaced, blank⟩ := holds
  refine ⟨text ++ (gap ++ (token.text ++ [])), [], by simp [put, written], ?_, Token.blank_nil⟩
  exact spaced.append (.cons blank token .nil)

theorem newline (holds : l.Holds tokens) : l.newline.Holds tokens := by
  refine holds.put_blank (List.forall_mem_cons.mpr ⟨rfl, fun b member => ?_⟩)
  rw [List.eq_of_mem_replicate member]
  rfl

theorem indent (holds : l.Holds tokens) : l.indent.Holds tokens := by
  rw [Layout.indent]
  split
  · exact holds.newline
  · exact holds

/-- Adding a lexeme writes gaps and its text. -/
theorem add (holds : l.Holds tokens) (token : Token) : (l.add token).Holds (tokens ++ [token]) := by
  have shallow : Holds { l with depth := l.depth - 1 } tokens := holds
  cases token with
  | openArray => exact holds.indent.put_token .openArray
  | openObject => exact holds.indent.put_token .openObject
  | closeArray =>
    rw [Layout.add]
    split
    · exact shallow.put_token .closeArray
    · exact shallow.newline.put_token .closeArray
  | closeObject =>
    rw [Layout.add]
    split
    · exact shallow.put_token .closeObject
    · exact shallow.newline.put_token .closeObject
  | comma => exact (holds.put_token .comma).newline
  | colon =>
    have space : Token.Blank [32] := by simp [Token.Blank, isGap]
    simpa [Layout.add, put] using (holds.put_token .colon).put_blank space
  | null => exact holds.indent.put_token .null
  | truth value => exact holds.indent.put_token (.truth value)
  | number numeral => exact holds.indent.put_token (.number numeral)
  | string text => exact holds.indent.put_token (.string text)
  | junk => exact holds.indent.put_token .junk

theorem foldl (holds : l.Holds tokens) (more : List Token) :
    (more.foldl Layout.add l).Holds (tokens ++ more) := by
  induction more generalizing l tokens with
  | nil => simpa using holds
  | cons token rest ih => simpa using ih (holds.add token)

end Layout.Holds

/-- Breaking a text into lines changes the gaps between its lexemes alone. -/
theorem indented_spaced (value : Json) : ∃ text gap,
    value.indented = text ++ gap ∧ Token.Spaced value.tokens text ∧ Token.Blank gap :=
  Layout.Holds.foldl ⟨[], [], rfl, .nil, Token.blank_nil⟩ value.tokens

end Lines

section Machine

/-- The lexemes of a value take the machine from waiting for a value to having it, wherever there is
room for so many more arrays and objects. -/
def Reads (depth : Nat) (value : Json) : Prop :=
  ∀ first outer rest, depth + outer.length ≤ deepest →
    (State.value first outer).read (value.tokens ++ rest) = (State.after value outer).read rest

theorem reads_leaf {value : Json} {token : Token} (alone : value.tokens = [token])
    (step : ∀ first outer, (State.value first outer).step token = some (.after value outer))
    (depth : Nat) : Reads depth value := by
  intro first outer rest _
  rw [alone, List.singleton_append, State.read, step]
  simp

variable {depth : Nat} {outer : List Open}

theorem read_items {item : Json} {more : List Json} (each : ∀ value ∈ item :: more, Reads depth value)
    (room : depth + (outer.length + 1) ≤ deepest) (first : Bool) (done : List Json)
    (rest : List Token) :
    (State.value first (.array done :: outer)).read
        (separated ((item :: more).map tokens) ++ .closeArray :: rest) =
      (State.after (.array (done.reverse ++ item :: more)) outer).read rest := by
  -- Along the items, with those already read put aside: only the last one meets the bracket.
  induction more generalizing item first done with
  | nil =>
    rw [List.map_singleton, separated_singleton, each item (by simp) _ (_ :: outer) _ room]
    simp [State.read, State.step]
  | cons next more ih =>
    obtain ⟨reads, later⟩ := List.forall_mem_cons.mp each
    rw [List.map_cons, List.map_cons, separated_cons, List.append_assoc, reads _ (_ :: outer) _ room]
    simp only [List.cons_append, State.read, State.step]
    rw [← List.map_cons, ih later]
    simp

theorem read_members {member : Member} {more : List Member}
    (each : ∀ value ∈ member :: more, Reads depth value.2)
    (room : depth + (outer.length + 1) ≤ deepest) (first : Bool) (done : List Member)
    (rest : List Token) :
    (State.key first done outer).read
        (separated ((member :: more).map fun member =>
          .string member.1 :: .colon :: member.2.tokens) ++ .closeObject :: rest) =
      (State.after (.object (done.reverse ++ member :: more)) outer).read rest := by
  induction more generalizing member first done with
  | nil =>
    rw [List.map_singleton, separated_singleton]
    simp only [List.cons_append, State.read, State.step]
    rw [each member (by simp) _ (_ :: outer) _ room]
    simp [State.read, State.step]
  | cons next more ih =>
    obtain ⟨reads, later⟩ := List.forall_mem_cons.mp each
    rw [List.map_cons, List.map_cons, separated_cons, List.append_assoc]
    simp only [List.cons_append, State.read, State.step]
    rw [reads _ (_ :: outer) _ room]
    simp only [State.read, State.step]
    have others := ih later false ((member.1, member.2) :: done)
    rw [List.map_cons] at others
    rw [others]
    simp

theorem reads_array {items : List Json} (each : ∀ item ∈ items, Reads depth item) :
    Reads (depth + 1) (.array items) := by
  intro first outer rest room
  have fits : outer.length < deepest := by omega
  rw [tokens_array, List.append_assoc]
  simp only [List.cons_append, List.nil_append, State.read, State.step, fits, ↓reduceIte]
  cases items with
  | nil => rfl
  | cons item more => exact read_items each (by omega) true [] rest

theorem reads_object {members : List Member} (each : ∀ member ∈ members, Reads depth member.2) :
    Reads (depth + 1) (.object members) := by
  intro first outer rest room
  have fits : outer.length < deepest := by omega
  rw [tokens_object, List.append_assoc]
  simp only [List.cons_append, List.nil_append, State.read, State.step, fits, ↓reduceIte]
  cases members with
  | nil => rfl
  | cons member more => exact read_members each (by omega) true [] rest

theorem Plain.reads {value : Json} (plain : Plain depth value) : Reads depth value := by
  induction plain with
  | null => exact reads_leaf (by rw [tokens]) (fun _ _ => by simp [State.step]) _
  | bool value => exact reads_leaf (by rw [tokens]) (fun _ _ => by simp [State.step]) _
  | number n => exact reads_leaf (by rw [tokens]) (fun _ _ => by simp [State.step]) _
  | string _ => exact reads_leaf (by rw [tokens]) (fun _ _ => by simp [State.step]) _
  | array _ ih => exact reads_array ih
  | object _ _ ih => exact reads_object ih

theorem Plain.read_tokens {value : Json} (plain : Plain depth value) (room : depth ≤ deepest) :
    start.read value.tokens = some (value, []) := by
  have read := plain.reads false [] [] room
  rw [List.append_nil] at read
  rw [start, read]
  simp [State.read]

/-- The text of a plain value is that value. -/
theorem Plain.whole?_compact {value : Json} (plain : Plain depth value) (room : depth ≤ deepest) :
    whole? value.compact = some value := by
  rw [whole?, plain.ofText_compact, plain.read_tokens room]

/-- The first value of the lines of a plain value is that value. -/
theorem Plain.first?_indented {value : Json} (plain : Plain depth value) (room : depth ≤ deepest)
    {gap : Bytes} (blank : Token.Blank gap) : first? (value.indented ++ gap) = some value := by
  obtain ⟨text, before, written, spaced, former⟩ := value.indented_spaced
  rw [first?, written, List.append_assoc, plain.ofText_spaced spaced (former.append blank),
    plain.read_tokens room]
  rfl

end Machine

end StackBound.Json
