import Mathlib.Data.List.TakeDrop
import Mathlib.Data.List.TakeWhile
import StackBound.Text.Bytes

/-! What a text starts with: a given text, or the longest run of bytes of a kind. -/
namespace StackBound.Bytes

variable {accept : UInt8 → Bool} {text start run rest : Bytes}

theorem after?_eq_some_iff : after? text start = some rest ↔ text = start ++ rest := by
  induction start generalizing text with
  | nil => simp [after?]
  | cons b start ih =>
    cases text with
    | nil => simp [after?]
    | cons a text =>
      by_cases same : a = b
      · simp [after?, same, ih]
      · simp [after?, same, Ne.symm same]

@[simp] theorem after?_append (start rest : Bytes) : after? (start ++ rest) start = some rest :=
  after?_eq_some_iff.mpr rfl

/-- A text starts with a run of bytes that cannot be longer. -/
structure Run (accept : UInt8 → Bool) (text run rest : Bytes) : Prop where
  whole : text = run ++ rest
  accepted : ∀ b ∈ run, accept b = true
  ends : ∀ b ∈ rest.head?, accept b = false

theorem Run.takeWhile_eq (h : Run accept text run rest) :
    text.takeWhile accept = run ∧ text.dropWhile accept = rest := by
  obtain ⟨rfl, accepted, ends⟩ := h
  rw [List.takeWhile_append_of_pos accepted, List.dropWhile_append_of_pos accepted]
  cases rest with
  | nil => simp
  | cons b rest =>
    have stop : accept b = false := ends b rfl
    simp [stop]

/-- A byte ends the run of other bytes before it. -/
theorem run_of_not_mem {stop : UInt8} (free : stop ∉ run) (rest : Bytes) :
    Run (· != stop) (run ++ stop :: rest) run (stop :: rest) where
  whole := rfl
  accepted b member := by simpa using ne_of_mem_of_not_mem member free
  ends b first := by
    obtain rfl : stop = b := by simpa using first
    simp

theorem run_takeWhile (accept : UInt8 → Bool) (text : Bytes) :
    Run accept text (text.takeWhile accept) (text.dropWhile accept) where
  whole := List.takeWhile_append_dropWhile.symm
  accepted _ member := List.mem_takeWhile_imp member
  ends b first := by
    have stop := List.head?_dropWhile_not accept text
    rw [Option.mem_def.mp first] at stop
    simpa using stop

theorem run?_eq_some_iff :
    run? accept text = some (run, rest) ↔ Run accept text run rest ∧ run ≠ [] := by
  rw [run?, List.span_eq_takeWhile_dropWhile]
  constructor
  · intro found
    split at found
    · cases found
    next some =>
      cases found
      exact ⟨run_takeWhile accept text, fun empty => some _ (by rw [empty])⟩
  · rintro ⟨h, some⟩
    obtain ⟨taken, left⟩ := h.takeWhile_eq
    rw [taken, left]
    split
    next empty => exact absurd (Prod.mk.inj empty).1 some
    next => rfl

theorem Run.unique {run' rest' : Bytes} (h : Run accept text run rest)
    (h' : Run accept text run' rest') : run = run' ∧ rest = rest' :=
  ⟨h.takeWhile_eq.1.symm.trans h'.takeWhile_eq.1, h.takeWhile_eq.2.symm.trans h'.takeWhile_eq.2⟩

end StackBound.Bytes
