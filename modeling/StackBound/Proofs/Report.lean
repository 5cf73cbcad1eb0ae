import StackBound.Proofs.Json.Reader
import StackBound.Run.Summary
import StackBound.Screen.Summary

/-! A report read from its own text. What is left out of the text is what a reader assumes, and the
members of a worst case are those of a finding and its frames, so every report of well-formed texts
comes back as it was. -/
namespace StackBound

open CallGraph (Unresolved)

structure Outcome.IsText (o : Outcome) : Prop where
  label : o.label.IsUtf8
  entry : o.entry.IsUtf8
  path : ∀ name ∈ o.result.path, name.IsUtf8
  cycle : ∀ name ∈ o.result.cycle, name.IsUtf8

structure Analysis.IsText (a : Analysis) : Prop where
  entryPoints : ∀ name ∈ a.entryPoints, name.IsUtf8
  isrs : ∀ name ∈ a.isrs, name.IsUtf8
  outcomes : ∀ o ∈ a.evaluation.outcomes, o.IsText
  overall : a.evaluation.overall.IsText
  uncalled : ∀ u ∈ a.uncalled, u.name.IsUtf8 ∧ u.rawName.IsUtf8
  unresolved : ∀ u ∈ a.unresolved, u.caller.IsUtf8 ∧ u.ref.IsUtf8
  warnings : ∀ w ∈ a.warnings, w.source.IsUtf8 ∧ w.message.IsUtf8

namespace Report

structure Finding.IsText (f : Finding) : Prop where
  label : f.label.IsUtf8
  entry : f.entry.IsUtf8
  path : ∀ l ∈ f.path, ∀ name ∈ l, name.IsUtf8
  cycle : ∀ name ∈ f.cycle, name.IsUtf8

structure Note.IsText (n : Note) : Prop where
  tier : n.tier.IsUtf8
  source : n.source.IsUtf8
  message : n.message.IsUtf8

structure IsText (r : Report) : Prop where
  runId : r.runId.IsUtf8
  version : r.version.IsUtf8
  entryPoints : ∀ l ∈ r.entryPoints, ∀ name ∈ l, name.IsUtf8
  isrs : ∀ name ∈ r.isrs, name.IsUtf8
  scenarios : ∀ l ∈ r.scenarios, ∀ f ∈ l, f.IsText
  worst : r.worst.toFinding.IsText
  frames : ∀ f ∈ r.worst.frames, f.function.IsUtf8
  uncalled : ∀ u ∈ r.uncalled, u.name.IsUtf8 ∧ u.rawName.IsUtf8
  unresolved : ∀ u ∈ r.unresolved, u.caller.IsUtf8 ∧ u.ref.IsUtf8
  warnings : ∀ n ∈ r.warnings, n.IsText

open Json (Plain plain_member plain_object plain_optional plain_orNull values)
open Json.Reader (list_optional list?_orNull object_of_known setAll setAll_append setAll_within
  text_string)

section Readers

attribute [local simp] Json.member Json.Reader.field Json.Reader.setter

/-- The members of a finding are read whatever other members stand after them. -/
theorem Finding.read_members (f : Finding) (others : List Json.Member)
    (apart : ∀ entry ∈ Finding.fields, values entry.1 others = []) :
    setAll Finding.fields (f.members ++ others) .blank = some f := by
  have path := list?_orNull fun l (_ : l ∈ f.path) name (_ : name ∈ l) => text_string name
  have cycle := list_optional "cycle" fun name (_ : name ∈ f.cycle) => text_string name
  simp only [Finding.fields, Json.Reader.field, List.forall_mem_cons] at apart
  simp [Finding.fields, Finding.members, apart, path, cycle, names, Json.texts, Finding.blank]

theorem Finding.read (f : Finding) :
    Json.Reader.object .blank Finding.fields [.object f.members] = some f := by
  rw [object_of_known]
  · simpa using f.read_members [] (by simp)
  · simp [Finding.members, Finding.fields]

theorem frameReader_frameJson (f : WorstCase.Frame) : frameReader [frameJson f] = some f := by
  rw [frameReader, frameJson, object_of_known (by simp)]
  simp

theorem Worst.read (w : Worst) : Json.Reader.object .blank Worst.fields [w.json] = some w := by
  have frames := list_optional "frames" fun f (_ : f ∈ w.frames) => frameReader_frameJson f
  rw [Worst.json, object_of_known]
  · -- The finding's own members stand first, and the list of frames has none of their names.
    generalize members : w.toFinding.members ++ _ = both
    have finding : setAll Finding.fields both .blank = some w.toFinding := by
      rw [← members]
      exact w.toFinding.read_members _ (by simp [Finding.fields])
    have within := setAll_within Worst.toFinding (fun w f => { w with toFinding := f })
      (fun _ _ => rfl) (fun _ _ => rfl) (fun _ => rfl) Finding.fields both .blank
    rw [Worst.fields, setAll_append]
    refine (congrArg (Option.bind · _) within).trans ?_
    rw [Worst.blank, finding]
    simp [← members, Finding.members, frames]
  · simp [Worst.fields, Finding.fields, Finding.members]

theorem uncalledReader_uncalledJson (u : Uncalled) : uncalledReader [uncalledJson u] = some u := by
  rw [uncalledReader, uncalledJson, object_of_known (by simp)]
  simp

theorem unresolvedReader_unresolvedJson (u : Unresolved) :
    unresolvedReader [unresolvedJson u] = some u := by
  rw [unresolvedReader, unresolvedJson, object_of_known (by simp)]
  simp

theorem Note.read (n : Note) : Note.reader [n.json] = some n := by
  rw [Note.reader, Note.json, object_of_known (by simp)]
  simp

theorem Stats.read (s : Stats) : Stats.reader [s.json] = some s := by
  rw [Stats.reader, Stats.json, object_of_known (by simp)]
  simp

/-- A report is what a reader makes of its members. -/
theorem reader_json (r : Report) : reader [r.json] = some r := by
  have entryPoints := list?_orNull fun l (_ : l ∈ r.entryPoints) name (_ : name ∈ l) =>
    text_string name
  have isrs := list_optional "isrs" fun name (_ : name ∈ r.isrs) => text_string name
  have scenarios := list?_orNull fun l (_ : l ∈ r.scenarios) f (_ : f ∈ l) => Finding.read f
  have uncalled := list_optional "uncalled" fun u (_ : u ∈ r.uncalled) =>
    uncalledReader_uncalledJson u
  have unresolved := list_optional "unresolved" fun u (_ : u ∈ r.unresolved) =>
    unresolvedReader_unresolvedJson u
  have warnings := list_optional "warnings" fun n (_ : n ∈ r.warnings) => Note.read n
  rw [reader, Report.json, object_of_known (by simp)]
  simp [names, Json.texts, blank, entryPoints, isrs, scenarios, Worst.read, uncalled, unresolved,
    warnings, Stats.read]

end Readers

section Texts

variable {depth : Nat}

theorem Finding.plain_members {f : Finding} (text : f.IsText) :
    ∀ m ∈ f.members, m.1.IsUtf8 ∧ Plain (depth + 1) m.2 := by
  simp only [Finding.members, List.forall_mem_append, List.forall_mem_cons]
  refine ⟨⟨⟨⟨?_, by simp⟩, ?_⟩, ?_, ?_, ?_, by simp⟩, ?_⟩
  · exact plain_member _ (.string text.label)
  · exact plain_optional _ _ (.string text.entry)
  · exact plain_member _ (.int f.total)
  · exact plain_member _ (.bool f.unbounded)
  · exact plain_member _ (plain_orNull fun l found name inside =>
      .string (text.path l found name inside))
  · exact plain_optional _ _ (.texts text.cycle)

theorem plain_frameJson {f : WorstCase.Frame} (text : f.function.IsUtf8) :
    Plain (depth + 1) (frameJson f) := by
  refine plain_object ?_
  simp only [List.forall_mem_cons]
  exact ⟨plain_member _ (.string text), plain_member _ (.int f.size),
    plain_member _ (.int f.cumulative), by simp⟩

theorem Worst.plain {w : Worst} (text : w.toFinding.IsText)
    (frames : ∀ f ∈ w.frames, f.function.IsUtf8) : Plain (depth + 3) w.json := by
  refine plain_object (List.forall_mem_append.mpr ⟨Finding.plain_members text, ?_⟩)
  refine plain_optional _ _ (.array (List.forall_mem_map.mpr fun f inside => ?_))
  exact plain_frameJson (frames f inside)

theorem plain_uncalledJson {u : Uncalled} (text : u.name.IsUtf8 ∧ u.rawName.IsUtf8) :
    Plain (depth + 1) (uncalledJson u) := by
  refine plain_object ?_
  simp only [List.forall_mem_cons]
  exact ⟨plain_member _ (.string text.1), plain_member _ (.string text.2),
    plain_member _ (.int u.size), by simp⟩

theorem plain_unresolvedJson {u : Unresolved} (text : u.caller.IsUtf8 ∧ u.ref.IsUtf8) :
    Plain (depth + 1) (unresolvedJson u) := by
  refine plain_object ?_
  simp only [List.forall_mem_cons]
  exact ⟨plain_member _ (.string text.1), plain_member _ (.string text.2), by simp⟩

theorem Note.plain {n : Note} (text : n.IsText) : Plain (depth + 1) n.json := by
  refine plain_object ?_
  simp only [List.forall_mem_append, List.forall_mem_cons]
  refine ⟨⟨⟨⟨?_, by simp⟩, ?_⟩, ?_⟩, ?_, by simp⟩
  · exact plain_member _ (.string text.tier)
  · exact plain_optional _ _ (.string text.source)
  · exact plain_optional _ _ (.int n.line)
  · exact plain_member _ (.string text.message)

theorem Stats.plain (s : Stats) : Plain (depth + 1) s.json := by
  refine plain_object ?_
  simp only [List.forall_mem_cons]
  exact ⟨plain_member _ (.int _), plain_member _ (.int _), plain_member _ (.int _),
    plain_member _ (.int _), plain_member _ (.int _), plain_member _ (.int _),
    plain_member _ (.int _), by simp⟩

/-- The lists of names inside the list of findings are what stands deepest. -/
theorem plain_json {r : Report} (text : r.IsText) : Plain 4 r.json := by
  refine plain_object ?_
  simp only [List.forall_mem_append, List.forall_mem_cons]
  refine ⟨⟨⟨⟨⟨⟨⟨?_, ?_, ?_, by simp⟩, ?_⟩, ?_, ?_, by simp⟩, ?_⟩, ?_⟩, ?_⟩, ?_, by simp⟩
  · exact plain_member _ (.string text.runId)
  · exact plain_member _ (.string text.version)
  · exact plain_member _ (plain_orNull fun l found name inside =>
      .string (text.entryPoints l found name inside))
  · exact plain_optional _ _ (.texts text.isrs)
  · exact plain_member _ (plain_orNull fun l found f inside =>
      plain_object (Finding.plain_members (text.scenarios l found f inside)))
  · exact plain_member _ (Worst.plain text.worst text.frames)
  · exact plain_optional _ _ (.array (List.forall_mem_map.mpr fun u inside =>
      plain_uncalledJson (text.uncalled u inside)))
  · exact plain_optional _ _ (.array (List.forall_mem_map.mpr fun u inside =>
      plain_unresolvedJson (text.unresolved u inside)))
  · exact plain_optional _ _ (.array (List.forall_mem_map.mpr fun n inside =>
      Note.plain (text.warnings n inside)))
  · exact plain_member _ r.stats.plain

theorem parse_text {r : Report} (text : r.IsText) : parse r.text = .ok r := by
  have newline : Json.Token.Blank [10] := by simp [Json.Token.Blank, Json.isGap]
  have read := (plain_json text).first?_indented (by decide) newline
  rw [parse, Report.text, read, Option.bind_some, reader_json]

end Texts

section Analyses

theorem function_of_mem_breakdown {sizes : Name → Int64} {path : List Name} {f : WorstCase.Frame}
    (member : f ∈ WorstCase.breakdown sizes path) : f.function ∈ path := by
  suffices onto : ∀ found : List WorstCase.Frame, f ∈ path.foldl (WorstCase.addFrame sizes) found →
      f ∈ found ∨ f.function ∈ path by
    simpa using onto [] (List.mem_reverse.mp member)
  clear member
  induction path with
  | nil => exact fun _ inside => .inl inside
  | cons fn more ih =>
    intro found inside
    rcases ih _ inside with before | later
    · rcases List.mem_cons.mp before with rfl | earlier
      · exact .inr (List.mem_cons_self ..)
      · exact .inl earlier
    · exact .inr (List.mem_cons_of_mem _ later)

theorem isText_finding {o : Outcome} (text : o.IsText) : (finding o).IsText where
  label := text.label
  entry := text.entry
  path := by rintro l ⟨⟩; exact text.path
  cycle := text.cycle

theorem isText_note {w : Warning} (text : w.source.IsUtf8 ∧ w.message.IsUtf8) : (note w).IsText where
  tier := by rw [note]; cases w.tier <;> exact Bytes.isUtf8_utf8 _
  source := text.1
  message := text.2

theorem isText_ofAnalysis {runId version : Bytes} {a : Analysis} (id : runId.IsUtf8)
    (number : version.IsUtf8) (text : a.IsText) (stats : Stats) :
    IsText { ofAnalysis runId version a with stats := stats } where
  runId := id
  version := number
  entryPoints := by rintro l ⟨⟩; exact text.entryPoints
  isrs := text.isrs
  scenarios := by
    intro l found
    obtain ⟨_, rfl⟩ : _ ∧ a.evaluation.outcomes.map finding = l := by
      simpa [ofAnalysis] using found
    exact List.forall_mem_map.mpr fun o inside => isText_finding (text.outcomes o inside)
  worst := isText_finding text.overall
  frames := by
    intro f inside
    simp only [ofAnalysis, worstOf] at inside
    split at inside
    · simp at inside
    · exact text.overall.path _ (function_of_mem_breakdown inside)
  uncalled := text.uncalled
  unresolved := text.unresolved
  warnings := List.forall_mem_map.mpr fun w inside => isText_note (text.warnings w inside)

end Analyses

/-- Every report of well-formed texts is read from its own text, whatever its numbers and whichever of
its lists are missing. So a run that is compared with its own report has not changed. -/
theorem read_back :
    (∀ r : Report, r.IsText → parse r.text = .ok r) ∧
    ∀ (runId version : Bytes) (a : Analysis) (stats : Stats),
      runId.IsUtf8 → version.IsUtf8 → a.IsText →
      ∃ base, parse (Report.text { ofAnalysis runId version a with stats := stats }) = .ok base ∧
        base = { ofAnalysis runId version a with stats := stats } ∧
        let delta := Summary.Delta.since base a.evaluation.overall.result
        delta.before = delta.after ∧ delta.wasUnbounded = delta.unbounded := by
  refine ⟨fun r text => parse_text text, ?_⟩
  intro runId version a stats id number text
  exact ⟨_, parse_text (isText_ofAnalysis id number text stats), rfl, rfl, rfl⟩

/-- An outcome of texts with marks, control characters, a line separator and a character outside the
first plane. -/
def sampleOutcome : Outcome where
  label := utf8 "<a> & \"b\"\\\u2028"
  entry := utf8 "\x00\t\x7f"
  result := ⟨Int64.minValue, false, [utf8 "😀", []], []⟩
  entries := []
  edges := 0

def sampleAnalysis : Analysis where
  table := .empty
  graph := .empty
  unresolved := [⟨utf8 "é", utf8 "\n"⟩]
  entryPoints := [utf8 "\x00\t\x7f"]
  isrs := []
  scenarios := []
  evaluation := ⟨[sampleOutcome], sampleOutcome⟩
  reachability := true
  uncalled := [⟨utf8 "f", utf8 "f.isra.0", Int64.maxValue⟩]
  warnings := [⟨.local, [], 0, utf8 "\uFFFD"⟩]
  suFiles := 0
  cgraphFiles := 0
  symbols := 0

theorem isText_sampleOutcome : sampleOutcome.IsText where
  label := Bytes.isUtf8_utf8 _
  entry := Bytes.isUtf8_utf8 _
  path := by decide
  cycle := by decide

theorem isText_sampleAnalysis : sampleAnalysis.IsText where
  entryPoints := by decide
  isrs := by decide
  outcomes := by
    intro o inside
    rw [List.mem_singleton.mp inside]
    exact isText_sampleOutcome
  overall := isText_sampleOutcome
  uncalled := by decide
  unresolved := by decide
  warnings := by decide

theorem read_back_sample :
    ∃ base, parse (Report.text { ofAnalysis (utf8 "1") (utf8 "dev") sampleAnalysis with
        stats := ⟨0, 1, -1, Int64.minValue, Int64.maxValue, 0, 0⟩ }) = .ok base ∧
      base = { ofAnalysis (utf8 "1") (utf8 "dev") sampleAnalysis with
        stats := ⟨0, 1, -1, Int64.minValue, Int64.maxValue, 0, 0⟩ } ∧
      let delta := Summary.Delta.since base sampleOutcome.result
      delta.before = delta.after ∧ delta.wasUnbounded = delta.unbounded :=
  read_back.2 _ _ sampleAnalysis _ (Bytes.isUtf8_utf8 _) (Bytes.isUtf8_utf8 _) isText_sampleAnalysis

end Report
end StackBound
