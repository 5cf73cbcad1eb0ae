import Mathlib
import StackBound.WorstCase.Result

/-! Answers ordered by how much stack they ask for. Which answer a running maximum keeps depends on
ties, but its level is the least bound of all levels it has seen. -/
namespace StackBound.WorstCase

/-- The bytes an answer asks for; an unbounded one asks for more than any number. -/
def level (a : WorstCase) : WithTop Int := if a.unbounded then ⊤ else (a.total.toInt : WithTop Int)

theorem level_of_finite {a : WorstCase} (finite : a.unbounded = false) :
    a.level = (a.total.toInt : WithTop Int) := by
  simp [level, finite]

@[simp] theorem level_zero : zero.level = 0 := rfl

@[simp] theorem level_eq_top {a : WorstCase} : a.level = ⊤ ↔ a.unbounded = true := by
  cases h : a.unbounded <;> simp [level, h]

theorem level_le_coe {a : WorstCase} {bytes : Int} :
    a.level ≤ (bytes : WithTop Int) ↔ a.unbounded = false ∧ a.total.toInt ≤ bytes := by
  cases h : a.unbounded <;> simp [level, h]

theorem greater_iff {a b : WorstCase} : a.greater b = true ↔ b.level < a.level := by
  cases ha : a.unbounded <;> cases hb : b.unbounded <;>
    simp [greater, level, ha, hb, Int64.lt_iff_toInt_lt]

theorem max_eq (best next : WorstCase) :
    best.max next =
      if best.unbounded = false ∧ (next.unbounded = true ∨ best.total < next.total) then next
      else best := by
  cases bestUnbounded : best.unbounded <;> cases nextUnbounded : next.unbounded <;>
    simp [max, greater, bestUnbounded, nextUnbounded]

theorem level_max (best next : WorstCase) :
    (best.max next).level = Max.max best.level next.level := by
  unfold max
  split
  · next worse => exact (max_eq_right (greater_iff.mp worse).le).symm
  · next other => exact (max_eq_left (not_lt.mp (mt greater_iff.mpr other))).symm

/-- A running maximum asks for no more than a bound exactly when all it has seen does. -/
theorem level_foldl_max_le {bound : WithTop Int} (answers : List WorstCase) (best : WorstCase) :
    (answers.foldl max best).level ≤ bound ↔
      best.level ≤ bound ∧ ∀ a ∈ answers, a.level ≤ bound := by
  induction answers generalizing best with
  | nil => simp
  | cons a rest ih => simp [ih, level_max, and_assoc]

/-- What is kept was seen. -/
theorem foldl_max_mem (answers : List WorstCase) (best : WorstCase) :
    answers.foldl max best = best ∨ answers.foldl max best ∈ answers := by
  induction answers generalizing best with
  | nil => exact .inl rfl
  | cons a rest ih =>
    rcases ih (best.max a) with kept | later
    · rw [List.foldl_cons, kept]
      unfold max
      split <;> simp
    · exact .inr (List.mem_cons_of_mem _ later)

theorem unbounded_max (best next : WorstCase) :
    (best.max next).unbounded = true ↔ best.unbounded = true ∨ next.unbounded = true := by
  simp only [← level_eq_top, level_max, max_eq_top]

theorem unbounded_foldl_max (answers : List WorstCase) (best : WorstCase) :
    (answers.foldl max best).unbounded = true ↔
      best.unbounded = true ∨ ∃ a ∈ answers, a.unbounded = true := by
  induction answers generalizing best with
  | nil => simp
  | cons a rest ih => simp [ih, unbounded_max, or_assoc]

@[simp] theorem unbounded_extend (fn : Name) (size : Int64) (best : WorstCase) :
    (best.extend fn size).unbounded = best.unbounded := by
  cases h : best.unbounded <;> simp [extend, h]

@[simp] theorem path_extend (fn : Name) (size : Int64) (best : WorstCase) :
    (best.extend fn size).path = fn :: best.path := by
  cases h : best.unbounded <;> simp [extend, h]

theorem extend_of_finite {fn : Name} {size : Int64} {best : WorstCase}
    (finite : best.unbounded = false) :
    best.extend fn size = ⟨size + best.total, false, fn :: best.path, best.cycle⟩ := by
  simp [extend, finite]

end StackBound.WorstCase
