import Mathlib.Data.List.Forall2
import StackBound.Proofs.Json.Reader
import StackBound.Stored

/-! What becomes of a stored scan. A list without items may be stored as such or as null. Every text of
a scan is stored as it is shown, so a scan is restored as it was stored exactly if all its texts are
well-formed. -/
namespace StackBound

open CallGraph (CallList Definition Dump)
open Json (Plain member optional plain_member plain_object plain_optional)
open StackUsage (Listing Record Skipped)

def StackUsage.Record.shown (r : Record) : Record := { r with name := r.name.wellFormed }

def StackUsage.Skipped.shown (s : Skipped) : Skipped :=
  { s with text := s.text.wellFormed, reason := s.reason.wellFormed }

def StackUsage.Listing.shown (l : Listing) : Listing :=
  ⟨l.records.map Record.shown, l.skipped.map Skipped.shown⟩

def CallGraph.Definition.shown (d : Definition) : Definition := ⟨d.id.wellFormed, d.name.wellFormed⟩

def CallGraph.CallList.shown (c : CallList) : CallList :=
  ⟨c.caller.wellFormed, c.refs.map Bytes.wellFormed⟩

def CallGraph.Dump.shown (d : Dump) : Dump :=
  ⟨d.definitions.map Definition.shown, d.calls.map CallList.shown⟩

structure StackUsage.Listing.IsText (l : Listing) : Prop where
  names : ∀ r ∈ l.records, r.name.IsUtf8
  texts : ∀ s ∈ l.skipped, s.text.IsUtf8
  reasons : ∀ s ∈ l.skipped, s.reason.IsUtf8

structure CallGraph.Dump.IsText (d : Dump) : Prop where
  ids : ∀ x ∈ d.definitions, x.id.IsUtf8
  names : ∀ x ∈ d.definitions, x.name.IsUtf8
  callers : ∀ c ∈ d.calls, c.caller.IsUtf8
  refs : ∀ c ∈ d.calls, ∀ ref ∈ c.refs, ref.IsUtf8

namespace Format

/-- A scan of one format is stored without loss. -/
def Keeps (f : Format α) (scan : α) : Prop := f.restored? (f.stored scan) = some scan

section Lists

/-- A list is written item by item, or as null if there are no items. -/
inductive WritesList (item : α → Json → Prop) : List α → Json → Prop
  | null : WritesList item [] .null
  | array {list : List α} {items : List Json} (each : List.Forall₂ item list items) :
      WritesList item list (.array items)

variable {item : α → Json → Prop} {list : List α} {value : Json} {json : α → Json}

theorem forall₂_map_self {r : α → Json → Prop} (each : ∀ x ∈ list, r x (json x)) :
    List.Forall₂ r list (list.map json) :=
  List.forall₂_map_right_iff.mpr (List.forall₂_same.mpr each)

theorem writesList_listOrNull (each : ∀ x ∈ list, item x (json x)) :
    WritesList item list (listOrNull list json) := by
  cases list with
  | nil => exact .null
  | cons x more => exact .array (forall₂_map_self each)

/-- What is read off each item is read off the list. -/
theorem WritesList.read (written : WritesList item list value) (reader : Json.Reader α)
    (each : ∀ x value, item x value → reader [value] = some x) :
    Json.Reader.list reader [value] = some list := by
  cases written with
  | null => rfl
  | @array _ items each' =>
    refine Json.Reader.list_of_map ?_
    induction each' with
    | nil => rfl
    | cons first _ ih => rw [List.map_cons, List.map_cons, each _ _ first, ih]

theorem WritesList.plain (written : WritesList item list value) (depth : Nat)
    (each : ∀ x ∈ list, ∀ value, item x value → Plain depth value) : Plain (depth + 1) value := by
  cases written with
  | null => exact .null
  | @array _ items each' =>
    refine .array ?_
    induction each' with
    | nil => simp
    | cons first _ ih =>
      obtain ⟨here, later⟩ := List.forall_mem_cons.mp each
      exact List.forall_mem_cons.mpr ⟨here _ first, ih later⟩

end Lists

/-- A value that stands for a listing. Only lines that were skipped may be left out. -/
inductive WritesListing (l : Listing) : Json → Prop
  | mk {records : Json} (recorded : WritesList (fun r value => value = recordJson r) l.records records) :
      WritesListing l (.object ([member "records" records] ++
        optional l.skipped.isEmpty "skipped" (.array (l.skipped.map skippedJson))))

inductive WritesCallList (c : CallList) : Json → Prop
  | mk {refs : Json} (listed : WritesList (fun ref value => value = .string ref) c.refs refs) :
      WritesCallList c (.object [member "caller" (.string c.caller), member "refs" refs])

inductive WritesDump (d : Dump) : Json → Prop
  | mk {definitions calls : Json}
      (defined : WritesList (fun x value => value = definitionJson x) d.definitions definitions)
      (called : WritesList WritesCallList d.calls calls) :
      WritesDump d (.object [member "definitions" definitions, member "calls" calls])

theorem writesListing_listingJson (l : Listing) : WritesListing l (listingJson l) :=
  .mk (writesList_listOrNull fun _ _ => rfl)

theorem writesDump_dumpJson (d : Dump) : WritesDump d (dumpJson d) :=
  .mk (writesList_listOrNull fun _ _ => rfl)
    (writesList_listOrNull fun _ _ => .mk (.array (forall₂_map_self fun _ _ => rfl)))

section Readers

attribute [local simp] Json.member Json.optional Json.Reader.field Json.Reader.setter

theorem recordReader_recordJson (r : Record) : recordReader [recordJson r] = some r := by
  rw [recordReader, recordJson, Json.Reader.object_of_known (by simp)]
  simp

theorem skippedReader_skippedJson (s : Skipped) : skippedReader [skippedJson s] = some s := by
  rw [skippedReader, skippedJson, Json.Reader.object_of_known (by simp)]
  simp

theorem WritesListing.read {l : Listing} {value : Json} (written : WritesListing l value) :
    listingReader [value] = some l := by
  obtain ⟨records, skipped⟩ := l
  obtain ⟨recorded⟩ := written
  have readRecords := recorded.read recordReader fun r value same =>
    same ▸ recordReader_recordJson r
  have readSkipped := Json.Reader.list_array fun s (_ : s ∈ skipped) => skippedReader_skippedJson s
  rw [listingReader]
  -- The list of skipped lines is left out when it is empty.
  cases skipped with
  | nil =>
    rw [Json.Reader.object_of_known (by simp)]
    simp [readRecords]
  | cons first more =>
    rw [List.map_cons] at readSkipped
    rw [Json.Reader.object_of_known (by simp)]
    simp [readRecords, readSkipped]

theorem definitionReader_definitionJson (d : Definition) :
    definitionReader [definitionJson d] = some d := by
  rw [definitionReader, definitionJson, Json.Reader.object_of_known (by simp)]
  simp

theorem WritesCallList.read {c : CallList} {value : Json} (written : WritesCallList c value) :
    callListReader [value] = some c := by
  obtain ⟨listed⟩ := written
  have refs := listed.read .text fun ref value same => same ▸ Json.Reader.text_string ref
  rw [callListReader, Json.Reader.object_of_known (by simp)]
  simp [refs]

theorem WritesDump.read {d : Dump} {value : Json} (written : WritesDump d value) :
    dumpReader [value] = some d := by
  obtain ⟨defined, called⟩ := written
  have definitions := defined.read definitionReader fun x value same =>
    same ▸ definitionReader_definitionJson x
  have calls := called.read callListReader fun c value written => written.read
  rw [dumpReader, Json.Reader.object_of_known (by simp)]
  simp [definitions, calls]

end Readers

theorem WritesListing.plain {l : Listing} {value : Json} (written : WritesListing l value)
    (text : l.IsText) : Plain 3 value := by
  obtain ⟨recorded⟩ := written
  have record (r) (inside : r ∈ l.records) : Plain 1 (recordJson r) := by
    refine plain_object ?_
    simp only [List.forall_mem_cons]
    exact ⟨plain_member _ (.string (text.names r inside)), plain_member _ (.int r.size), by simp⟩
  have skipped (s) (inside : s ∈ l.skipped) : Plain 1 (skippedJson s) := by
    refine plain_object ?_
    simp only [List.forall_mem_cons]
    exact ⟨plain_member _ (.int s.line), plain_member _ (.string (text.texts s inside)),
      plain_member _ (.string (text.reasons s inside)), by simp⟩
  refine plain_object (List.forall_mem_append.mpr ⟨?_, ?_⟩)
  · rw [List.forall_mem_singleton]
    exact plain_member _ (recorded.plain 1 fun r inside value same => same ▸ record r inside)
  · exact plain_optional _ _ (.array (List.forall_mem_map.mpr skipped))

theorem WritesCallList.plain {c : CallList} {value : Json} (written : WritesCallList c value)
    (caller : c.caller.IsUtf8) (refs : ∀ ref ∈ c.refs, ref.IsUtf8) : Plain 2 value := by
  obtain ⟨listed⟩ := written
  refine plain_object ?_
  simp only [List.forall_mem_cons]
  exact ⟨plain_member _ (.string caller),
    plain_member _ (listed.plain 0 fun ref inside value same =>
      same ▸ .string (refs ref inside)), by simp⟩

theorem WritesDump.plain {d : Dump} {value : Json} (written : WritesDump d value) (text : d.IsText) :
    Plain 4 value := by
  obtain ⟨defined, called⟩ := written
  have definition (x) (inside : x ∈ d.definitions) : Plain 2 (definitionJson x) := by
    refine plain_object ?_
    simp only [List.forall_mem_cons]
    exact ⟨plain_member _ (.string (text.ids x inside)),
      plain_member _ (.string (text.names x inside)), by simp⟩
  refine plain_object ?_
  simp only [List.forall_mem_cons]
  exact ⟨plain_member _ (defined.plain 2 fun x inside value same => same ▸ definition x inside),
    plain_member _ (called.plain 2 fun c inside value written =>
      written.plain (text.callers c inside) (text.refs c inside)), by simp⟩

/-- What is stored of a value is restored to what is read off the value. -/
theorem restore?_compact {reader : Json.Reader α} {value : Json} {scan : α} {depth : Nat}
    (plain : Plain depth value) (room : depth ≤ Json.deepest) (present : value ≠ .null)
    (read : reader [value] = some scan) : restore? reader value.compact = some scan := by
  rw [restore?, plain.whole?_compact room]
  split
  next absent => exact absurd absent (by simp)
  next null => exact absurd (Option.some.inj null) present
  next other _ same => rw [← Option.some.inj same, read]

section Shown

theorem pieces_string_wellFormed (text : Bytes) :
    (Json.string text.wellFormed).pieces = (Json.string text).pieces := by
  rw [Json.pieces_string, Json.pieces_string, Json.Token.text_wellFormed]

theorem pieces_listOrNull {item : α → Json} {shown : α → α}
    (each : ∀ x, (item (shown x)).pieces = (item x).pieces) (list : List α) :
    (listOrNull (list.map shown) item).pieces = (listOrNull list item).pieces := by
  cases list with
  | nil => rfl
  | cons x more => simp [listOrNull, Json.orNull, Json.pieces_array, Function.comp_def, each]

theorem pieces_recordJson (r : Record) : (recordJson r.shown).pieces = (recordJson r).pieces := by
  simp [recordJson, Json.pieces_object, Json.member, Record.shown, pieces_string_wellFormed]

theorem pieces_skippedJson (s : Skipped) : (skippedJson s.shown).pieces = (skippedJson s).pieces := by
  simp [skippedJson, Json.pieces_object, Json.member, Skipped.shown, pieces_string_wellFormed]

theorem pieces_listingJson (l : Listing) : (listingJson l.shown).pieces = (listingJson l).pieces := by
  obtain ⟨records, skipped⟩ := l
  have records := pieces_listOrNull pieces_recordJson records
  cases skipped with
  | nil => simp [listingJson, Listing.shown, Json.optional, Json.pieces_object, Json.member, records]
  | cons first more =>
    simp [listingJson, Listing.shown, Json.optional, Json.pieces_object, Json.member, records,
      Json.pieces_array, Function.comp_def, pieces_skippedJson]

theorem pieces_definitionJson (d : Definition) :
    (definitionJson d.shown).pieces = (definitionJson d).pieces := by
  simp [definitionJson, Json.pieces_object, Json.member, Definition.shown, pieces_string_wellFormed]

theorem pieces_callListJson (c : CallList) : (callListJson c.shown).pieces = (callListJson c).pieces := by
  simp [callListJson, Json.pieces_object, Json.member, CallList.shown, pieces_string_wellFormed,
    Json.texts, Json.pieces_array, Function.comp_def]

theorem pieces_dumpJson (d : Dump) : (dumpJson d.shown).pieces = (dumpJson d).pieces := by
  simp [dumpJson, Json.pieces_object, Json.member, Dump.shown,
    pieces_listOrNull pieces_definitionJson, pieces_listOrNull pieces_callListJson]

end Shown

section Restored

theorem map_eq_self {shown : α → α} {list : List α} :
    list.map shown = list ↔ ∀ x ∈ list, shown x = x := by
  have same := List.map_inj_left (l := list) (f := shown) (g := id)
  rwa [List.map_id] at same

theorem isText_shown_listing (l : Listing) : l.shown.IsText where
  names := List.forall_mem_map.mpr fun _ _ => Bytes.isUtf8_wellFormed _
  texts := List.forall_mem_map.mpr fun _ _ => Bytes.isUtf8_wellFormed _
  reasons := List.forall_mem_map.mpr fun _ _ => Bytes.isUtf8_wellFormed _

theorem isText_shown_dump (d : Dump) : d.shown.IsText where
  ids := List.forall_mem_map.mpr fun _ _ => Bytes.isUtf8_wellFormed _
  names := List.forall_mem_map.mpr fun _ _ => Bytes.isUtf8_wellFormed _
  callers := List.forall_mem_map.mpr fun _ _ => Bytes.isUtf8_wellFormed _
  refs := List.forall_mem_map.mpr fun _ _ => List.forall_mem_map.mpr fun _ _ =>
    Bytes.isUtf8_wellFormed _

theorem shown_listing_eq_self {l : Listing} : l.shown = l ↔ l.IsText := by
  obtain ⟨records, skipped⟩ := l
  simp only [Listing.shown, Listing.mk.injEq, map_eq_self]
  constructor
  · rintro ⟨records, skipped⟩
    exact ⟨fun r member => Bytes.isUtf8_iff.mpr (congrArg Record.name (records r member)),
      fun s member => Bytes.isUtf8_iff.mpr (congrArg Skipped.text (skipped s member)),
      fun s member => Bytes.isUtf8_iff.mpr (congrArg Skipped.reason (skipped s member))⟩
  · rintro ⟨names, texts, reasons⟩
    refine ⟨fun r member => ?_, fun s member => ?_⟩
    · rw [Record.shown, (names r member).wellFormed_eq]
    · rw [Skipped.shown, (texts s member).wellFormed_eq, (reasons s member).wellFormed_eq]

theorem shown_dump_eq_self {d : Dump} : d.shown = d ↔ d.IsText := by
  obtain ⟨definitions, calls⟩ := d
  simp only [Dump.shown, Dump.mk.injEq, map_eq_self]
  constructor
  · rintro ⟨definitions, calls⟩
    exact ⟨fun x member => Bytes.isUtf8_iff.mpr (congrArg Definition.id (definitions x member)),
      fun x member => Bytes.isUtf8_iff.mpr (congrArg Definition.name (definitions x member)),
      fun c member => Bytes.isUtf8_iff.mpr (congrArg CallList.caller (calls c member)),
      fun c member ref inside => Bytes.isUtf8_iff.mpr
        (map_eq_self.mp (congrArg CallList.refs (calls c member)) ref inside)⟩
  · rintro ⟨ids, names, callers, refs⟩
    refine ⟨fun x member => ?_, fun c member => ?_⟩
    · rw [Definition.shown, (ids x member).wellFormed_eq, (names x member).wellFormed_eq]
    · rw [CallList.shown, (callers c member).wellFormed_eq,
        map_eq_self.mpr fun ref inside => (refs c member ref inside).wellFormed_eq]

theorem restored?_of_writesListing {l : Listing} {value : Json} (written : WritesListing l value)
    (text : l.IsText) : stackUsage.restored? value.compact = some l :=
  restore?_compact (written.plain text) (by decide) (by obtain ⟨_⟩ := written; nofun) written.read

/-- A listing is restored as it is shown. -/
theorem restored?_listing (l : Listing) :
    stackUsage.restored? (stackUsage.stored l) = some l.shown := by
  have same : stackUsage.stored l = (listingJson l.shown).compact := by
    simp only [stackUsage, Json.compact_eq_pieces, pieces_listingJson]
  rw [same]
  exact restored?_of_writesListing (writesListing_listingJson _) (isText_shown_listing l)

-- Two names that differ in a stray byte become one.
example :
    Listing.shown ⟨[⟨utf8 "f" ++ [0xFF], 8⟩, ⟨utf8 "f" ++ [0xFE], 16⟩], []⟩ =
      ⟨[⟨utf8 "f\uFFFD", 8⟩, ⟨utf8 "f\uFFFD", 16⟩], []⟩ := by
  decide

theorem restored?_of_writesDump {d : Dump} {value : Json} (written : WritesDump d value)
    (text : d.IsText) : callGraph.restored? value.compact = some d :=
  restore?_compact (written.plain text) (by decide) (by obtain ⟨_⟩ := written; nofun) written.read

/-- A dump is restored as it is shown. -/
theorem restored?_dump (d : Dump) : callGraph.restored? (callGraph.stored d) = some d.shown := by
  have same : callGraph.stored d = (dumpJson d.shown).compact := by
    simp only [callGraph, Json.compact_eq_pieces, pieces_dumpJson]
  rw [same]
  exact restored?_of_writesDump (writesDump_dumpJson _) (isText_shown_dump d)

/-- A listing survives being stored exactly if all its texts are well-formed. -/
theorem keeps_listing_iff {l : Listing} : stackUsage.Keeps l ↔ l.IsText := by
  rw [Keeps, restored?_listing, Option.some.injEq, shown_listing_eq_self]

/-- A dump survives being stored exactly if all its texts are well-formed. -/
theorem keeps_dump_iff {d : Dump} : callGraph.Keeps d ↔ d.IsText := by
  rw [Keeps, restored?_dump, Option.some.injEq, shown_dump_eq_self]

end Restored

end Format
end StackBound
