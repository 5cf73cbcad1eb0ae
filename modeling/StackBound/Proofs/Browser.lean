import Mathlib.Algebra.Ring.Int.Defs
import Mathlib.Data.List.Induction
import StackBound.Browser

/-! The window of the scenario browser. Whatever is pressed and however the terminal is resized, the
window begins inside the list and at or before the selected place, so no scenario is asked for that is
not there. The selected place may stand below the window, but only a resizing can leave it there. -/
namespace StackBound

namespace Window

variable {w : Window} {count : Nat}

structure Inside (count : Nat) (w : Window) : Prop where
  tall : 3 ≤ w.height
  /-- No sum of the moves leaves the 64-bit numbers. -/
  bounded : w.height < 2 ^ 62
  nonneg : 0 ≤ w.offset
  follows : w.offset ≤ w.cursor
  within : w.cursor < max 1 count

theorem three_le_heightFor (lines : Int64) : 3 ≤ heightFor lines := Int.le_max_left ..

theorem heightFor_lt (lines : Int64) : heightFor lines < 2 ^ 62 := by
  have bound := lines.toInt_lt
  have half : lines.toInt.tdiv 2 < 2 ^ 62 := by
    rw [Int.tdiv_eq_ediv, show Int.sign 2 = 1 from rfl]
    split <;> omega
  rw [heightFor]
  omega

theorem inside_initial (count : Nat) : initial.Inside count := by
  constructor <;> simp only [initial] <;> omega

theorem Inside.moveUp (inside : w.Inside count) : w.moveUp.Inside count := by
  obtain ⟨tall, bounded, nonneg, follows, within⟩ := inside
  unfold Window.moveUp
  split
  · dsimp only
    split
    · exact ⟨tall, bounded, by dsimp only; omega, Int.le_refl _, by dsimp only; omega⟩
    · exact ⟨tall, bounded, nonneg, by dsimp only; omega, by dsimp only; omega⟩
  · exact ⟨tall, bounded, nonneg, follows, within⟩

theorem Inside.moveDown (inside : w.Inside count) : (w.moveDown count).Inside count := by
  obtain ⟨tall, bounded, nonneg, follows, within⟩ := inside
  unfold Window.moveDown
  split
  · dsimp only
    split
    · exact ⟨tall, bounded, by dsimp only; omega, by dsimp only; omega, by dsimp only; omega⟩
    · exact ⟨tall, bounded, nonneg, by dsimp only; omega, by dsimp only; omega⟩
  · exact ⟨tall, bounded, nonneg, follows, within⟩

theorem Inside.resize (inside : w.Inside count) (lines : Int64) : (w.resize lines).Inside count :=
  ⟨three_le_heightFor lines, heightFor_lt lines, inside.nonneg, inside.follows, inside.within⟩

theorem mem_places {place : Int} :
    place ∈ w.places count ↔ w.offset ≤ place ∧ place < w.offset + w.height ∧ place < count := by
  simp only [places, List.mem_map, List.mem_range]
  constructor
  · rintro ⟨i, small, rfl⟩
    omega
  · rintro ⟨after, shown, listed⟩
    exact ⟨(place - w.offset).toNat, by omega, by omega⟩

/-- The place of a row. -/
theorem add_mem_places {row : Nat} (drawn : row < (w.places count).length) :
    w.offset + row ∈ w.places count := by
  rw [places, List.length_map, List.length_range] at drawn
  exact List.mem_map.mpr ⟨row, List.mem_range.mpr drawn, rfl⟩

def Shows (w : Window) : Prop := w.offset ≤ w.cursor ∧ w.cursor < w.offset + w.height

theorem shows_initial : initial.Shows := ⟨Int.le_refl _, by decide⟩

theorem Inside.shows_moveUp (inside : w.Inside count) (shown : w.Shows) : w.moveUp.Shows := by
  have tall := inside.tall
  obtain ⟨follows, fits⟩ := shown
  unfold Window.moveUp
  split
  · dsimp only
    split <;> constructor <;> dsimp only <;> omega
  · exact ⟨follows, fits⟩

/-- A move down brings the selected place back, wherever it was. -/
theorem Inside.shows_of_below (inside : w.Inside count) (below : w.cursor < count - 1) :
    (w.moveDown count).Shows := by
  have tall := inside.tall
  have follows := inside.follows
  rw [Window.moveDown, if_pos below]
  dsimp only
  split <;> constructor <;> dsimp only <;> omega

theorem Inside.shows_moveDown (inside : w.Inside count) (shown : w.Shows) :
    (w.moveDown count).Shows := by
  by_cases below : w.cursor < count - 1
  · exact inside.shows_of_below below
  · rwa [Window.moveDown, if_neg below]

theorem Inside.shows_resize_iff (inside : w.Inside count) (lines : Int64) :
    (w.resize lines).Shows ↔ w.cursor < w.offset + heightFor lines :=
  and_iff_right inside.follows

end Window

namespace Browser

variable {b : Browser} {e : Evaluation} {sizes : Name → Int64}

/-- The browser after some messages, one after the other. -/
def after (b : Browser) (messages : List Message) : Browser := messages.foldl update b

theorem after_concat (messages : List Message) (message : Message) :
    b.after (messages ++ [message]) = (b.after messages).update message := by
  rw [after, List.foldl_append, List.foldl_cons, List.foldl_nil, after]

theorem outcomes_update (message : Message) : (b.update message).outcomes = b.outcomes := by
  cases message with
  | key name => rw [update]; cases Key.ofName name <;> rfl
  | resize lines => rfl

theorem outcomes_after (messages : List Message) : (b.after messages).outcomes = b.outcomes := by
  induction messages using List.reverseRecOn with
  | nil => rfl
  | append_singleton messages message ih => rw [after_concat, outcomes_update, ih]

theorem inside_update (inside : b.window.Inside b.outcomes.length) (message : Message) :
    (b.update message).window.Inside b.outcomes.length := by
  cases message with
  | key name =>
    rw [update]
    cases Key.ofName name with
    | up => exact inside.moveUp
    | down => exact inside.moveDown
    | quit | toggle | other => exact inside
  | resize lines => exact inside.resize lines

theorem inside_after (e : Evaluation) (sizes : Name → Int64) (messages : List Message) :
    ((ofEvaluation e sizes).after messages).window.Inside e.outcomes.length := by
  induction messages using List.reverseRecOn with
  | nil => exact Window.inside_initial _
  | append_singleton messages message ih =>
    have same : ((ofEvaluation e sizes).after messages).outcomes = e.outcomes := outcomes_after messages
    rw [after_concat]
    rw [← same] at ih ⊢
    exact inside_update ih message

theorem isSome_outcome?_iff {place : Int} :
    (b.outcome? place).isSome = true ↔ 0 ≤ place ∧ place < b.outcomes.length := by
  rw [outcome?]
  split
  next negative => simp only [Option.isSome_none, Bool.false_eq_true, false_iff]; omega
  next nonneg => rw [isSome_getElem?]; omega

theorem exists_mapM {α β : Type} {f : α → Option β} {items : List α}
    (each : ∀ item ∈ items, (f item).isSome = true) :
    ∃ found, items.mapM f = some found ∧ found.length = items.length := by
  induction items with
  | nil => exact ⟨[], rfl, rfl⟩
  | cons item more ih =>
    obtain ⟨first, later⟩ := List.forall_mem_cons.mp each
    obtain ⟨one, here⟩ := Option.isSome_iff_exists.mp first
    obtain ⟨rest, onward, length⟩ := ih later
    exact ⟨one :: rest, by simp [List.mapM_cons, here, onward], by simp [length]⟩

/-- Every place that is shown has a scenario. -/
theorem isSome_of_mem_places (inside : b.window.Inside b.outcomes.length) {place : Int}
    (shown : place ∈ b.window.places b.count) : (b.outcome? place).isSome = true := by
  obtain ⟨after, -, listed⟩ := Window.mem_places.mp shown
  exact isSome_outcome?_iff.mpr ⟨Int.le_trans inside.nonneg after, listed⟩

theorem exists_rows (inside : b.window.Inside b.outcomes.length) :
    ∃ rows, b.rows? = some rows ∧ rows.length = (b.window.places b.count).length :=
  exists_mapM fun place shown => by
    rw [Option.isSome_map]
    exact isSome_of_mem_places inside shown

/-- The table may look up the title row and each row that is drawn. -/
theorem isSome_look? (inside : b.window.Inside b.outcomes.length) {row : Int}
    (drawn : row = titleRow ∨ 0 ≤ row ∧ row < (b.window.places b.count).length) (column : Nat) :
    (b.look? row column).isSome = true := by
  rw [look?]
  split
  · rfl
  next body =>
    obtain ⟨nonneg, small⟩ := drawn.resolve_left body
    lift row to Nat using nonneg
    rw [Option.isSome_map]
    exact isSome_of_mem_places inside (Window.add_mem_places (Int.ofNat_lt.mp small))

theorem isSome_selected? (inside : b.window.Inside b.outcomes.length) :
    b.selected?.isSome = true := by
  obtain ⟨-, -, nonneg, follows, within⟩ := inside
  rw [selected?]
  split
  next some =>
    rw [Option.isSome_map, isSome_outcome?_iff]
    rw [count] at some
    omega
  next => rfl

theorem isSome_grid? (inside : b.window.Inside b.outcomes.length) : b.grid?.isSome = true := by
  obtain ⟨rows, found, length⟩ := exists_rows inside
  have looked (row : Int) (member : row ∈ titleRow :: (List.range rows.length).map Int.ofNat) :
      ((List.range titles.length).mapM (b.look? row)).isSome = true := by
    have drawn : row = titleRow ∨ 0 ≤ row ∧ row < (b.window.places b.count).length := by
      rw [← length]
      simp only [List.mem_cons, List.mem_map, List.mem_range] at member
      rcases member with title | ⟨i, small, rfl⟩
      · exact .inl title
      · exact .inr ⟨Int.natCast_nonneg i, Int.ofNat_lt.mpr small⟩
    obtain ⟨looks, all, -⟩ := exists_mapM fun column (_ : column ∈ List.range titles.length) =>
      isSome_look? inside drawn column
    rw [all]
    rfl
  obtain ⟨looks, all, -⟩ := exists_mapM looked
  rw [grid?, found, Option.bind_eq_bind, Option.bind_some, looks?, all]
  rfl

theorem isSome_view? (inside : b.window.Inside b.outcomes.length) : b.view?.isSome = true := by
  obtain ⟨grid, drawn⟩ := Option.isSome_iff_exists.mp (isSome_grid? inside)
  obtain ⟨selected, set⟩ := Option.isSome_iff_exists.mp (isSome_selected? inside)
  rw [view?, drawn, set]
  rfl

/-- No message makes the browser ask for a scenario that is not there. After any messages the window is
at least three places high, it begins inside the list and not after the selected place, which is a place
of the list, or the first if the list is empty; and every scenario that is looked up for the rows, for
how they are shown, and for the selected one, is there, so that the screen is drawn. -/
theorem never_out_of_range (e : Evaluation) (sizes : Name → Int64) (messages : List Message) :
    let b := (ofEvaluation e sizes).after messages
    let drawn := b.window.places b.count
    b.outcomes = e.outcomes ∧
      3 ≤ b.window.height ∧ b.window.height < 2 ^ 62 ∧
      0 ≤ b.window.offset ∧ b.window.offset ≤ b.window.cursor ∧
      (b.window.cursor < e.outcomes.length ∨ e.outcomes = [] ∧ b.window.cursor = 0) ∧
      (∀ place ∈ drawn, (b.outcome? place).isSome = true) ∧
      (∀ row column, row = titleRow ∨ 0 ≤ row ∧ row < drawn.length →
        (b.look? row column).isSome = true) ∧
      (e.outcomes ≠ [] → (b.outcome? b.window.cursor).isSome = true) ∧
      b.view? = some b.view ∧
      (b.cursor : Int) = b.window.cursor ∧ (b.offset : Int) = b.window.offset ∧
      (b.height : Int) = b.window.height := by
  intro b drawn
  have same : b.outcomes = e.outcomes := outcomes_after messages
  have inside : b.window.Inside b.outcomes.length := same ▸ inside_after e sizes messages
  obtain ⟨tall, bounded, nonneg, follows, within⟩ := id inside
  have place : b.window.cursor < e.outcomes.length ∨ e.outcomes = [] ∧ b.window.cursor = 0 := by
    rw [← same, ← List.length_eq_zero_iff]
    omega
  have selected (some : e.outcomes ≠ []) : (b.outcome? b.window.cursor).isSome = true := by
    rw [isSome_outcome?_iff, same]
    exact ⟨Int.le_trans nonneg follows, place.resolve_right fun empty => some empty.1⟩
  have seen : b.view? = some b.view := by
    obtain ⟨text, shown⟩ := Option.isSome_iff_exists.mp (isSome_view? inside)
    rw [view, shown]
    rfl
  exact ⟨same, tall, bounded, nonneg, follows, place, fun _ => isSome_of_mem_places inside,
    fun _ column row => isSome_look? inside row column, selected, seen,
    Int.toNat_of_nonneg (Int.le_trans nonneg follows), Int.toNat_of_nonneg nonneg,
    Int.toNat_of_nonneg (by omega)⟩

def Drawn (b : Browser) : Prop := b.window.cursor ∈ b.window.places b.count

instance (b : Browser) : Decidable b.Drawn :=
  inferInstanceAs (Decidable (b.window.cursor ∈ b.window.places b.count))

theorem drawn_iff (some : b.outcomes ≠ []) (inside : b.window.Inside b.outcomes.length) :
    b.Drawn ↔ b.window.Shows := by
  have listed : b.window.cursor < b.outcomes.length := by
    have within := inside.within
    have := List.length_pos_iff.mpr some
    omega
  rw [Drawn, count, Window.mem_places, Window.Shows]
  simp only [listed, and_true]

theorem shows_press (inside : b.window.Inside b.outcomes.length) (shown : b.window.Shows) (key : Key) :
    (b.press key).window.Shows := by
  cases key with
  | up => exact inside.shows_moveUp shown
  | down => exact inside.shows_moveDown shown
  | quit | toggle | other => exact shown

/-- Every resizing in a history left room for the selected place as it was then. -/
def Fits (b : Browser) (messages : List Message) : Prop :=
  ∀ before lines, before ++ [.resize lines] <+: messages →
    (b.after before).window.cursor < (b.after before).window.offset + Window.heightFor lines

theorem Fits.shows {messages : List Message} (fits : (ofEvaluation e sizes).Fits messages)
    {history : List Message} (sofar : history <+: messages) :
    ((ofEvaluation e sizes).after history).window.Shows := by
  induction history using List.reverseRecOn with
  | nil => exact Window.shows_initial
  | append_singleton history message ih =>
    have inside := inside_after e sizes history
    rw [after_concat]
    cases message with
    | key name =>
      rw [← show ((ofEvaluation e sizes).after history).outcomes = e.outcomes from
        outcomes_after history] at inside
      exact shows_press inside (ih ((List.prefix_append ..).trans sofar)) _
    | resize lines => exact (inside.shows_resize_iff lines).mpr (fits history lines sofar)

theorem fits_of_shows {messages : List Message}
    (shown : ∀ history, history <+: messages → ((ofEvaluation e sizes).after history).window.Shows) :
    (ofEvaluation e sizes).Fits messages := by
  intro before lines sofar
  have later := shown _ sofar
  rw [after_concat] at later
  exact ((inside_after e sizes before).shows_resize_iff lines).mp later

/-- The selected scenario stays in the list as it is shown exactly as long as every resizing leaves room
for it. The list never begins after it; no key hides it, and moving down brings it back. -/
theorem drawn_throughout_iff (e : Evaluation) (some : e.outcomes ≠ []) (sizes : Name → Int64)
    (messages : List Message) :
    let now (history : List Message) := (ofEvaluation e sizes).after history
    (∀ history, (now history).window.offset ≤ (now history).window.cursor) ∧
      (∀ history, (now history).Drawn ↔
        (now history).window.cursor < (now history).window.offset + (now history).window.height) ∧
      ((∀ history, history <+: messages → (now history).Drawn) ↔
        ∀ before lines, before ++ [.resize lines] <+: messages →
          (now before).window.cursor < (now before).window.offset + Window.heightFor lines) ∧
      ∀ history name, Key.ofName name = .down →
        (now history).window.cursor < e.outcomes.length - 1 →
        (now (history ++ [.key name])).Drawn := by
  intro now
  have same (history : List Message) : (now history).outcomes = e.outcomes := outcomes_after history
  have inside := inside_after e sizes
  have drawn (history : List Message) : (now history).Drawn ↔ (now history).window.Shows := by
    have there := inside history
    rw [← same history] at there some
    exact drawn_iff some there
  refine ⟨fun history => (inside history).follows, fun history => ?_, ?_, ?_⟩
  · rw [drawn history]
    exact and_iff_right (inside history).follows
  · simp only [drawn]
    exact ⟨fits_of_shows, fun fits history sofar => Fits.shows fits sofar⟩
  · intro history name down below
    rw [drawn, show now (history ++ [.key name]) = (now history).update (.key name) from
      after_concat history _, update, down, press, count, same]
    exact (inside history).shows_of_below below

/-- Five scenarios, of which the fourth is selected when the window shrinks to three. -/
def sampleEvaluation : Evaluation := ⟨List.replicate 5 .none, .none⟩

def shrunk : List Message :=
  [.key (utf8 "down"), .key (utf8 "down"), .key (utf8 "j"), .resize 8]

/-- A selected scenario that a resizing has hidden is drawn again after a move down. -/
theorem drawn_throughout_iff_shrunk :
    let now (history : List Message) := (ofEvaluation sampleEvaluation fun _ => 0).after history
    sampleEvaluation.outcomes ≠ [] ∧ ¬ (now shrunk).Drawn ∧
      (now (shrunk ++ [.key (utf8 "down")])).Drawn := by
  intro now
  have some : sampleEvaluation.outcomes ≠ [] := by decide
  have moved := (drawn_throughout_iff sampleEvaluation some (fun _ => 0) shrunk).2.2.2
  exact ⟨some, by decide, moved shrunk (utf8 "down") (by decide) (by decide)⟩

/-- A resizing may hide the selected scenario. -/
theorem not_drawn_of_resize :
    let b := (ofEvaluation sampleEvaluation fun _ => 0).after shrunk
    sampleEvaluation.outcomes ≠ [] ∧ b.window = ⟨3, 0, 3⟩ ∧
      ¬ (b.window.offset ≤ b.window.cursor ∧ b.window.cursor < b.window.offset + b.window.height) ∧
      ¬ b.Drawn := by
  decide

end Browser
end StackBound
