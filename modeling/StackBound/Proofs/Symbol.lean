import Mathlib.Data.List.TakeWhile
import StackBound.Proofs.Text.Run
import StackBound.Symbol

/-! The identity of a name. It is the name itself or what stands before its first dot, it is never empty,
and it is its own identity. -/
namespace StackBound.Name

variable {name stem rest : Name}

theorem normalize_ne_nil (named : name ≠ []) : name.normalize ≠ [] := by
  unfold normalize
  split
  next => exact named
  next some => exact some

theorem normalize_of_not_mem (free : separator ∉ name) : name.normalize = name := by
  have whole : name.takeWhile (· != separator) = name := by
    apply List.takeWhile_eq_self_iff.mpr
    intro b member
    have other : b ≠ separator := fun same => free (same ▸ member)
    simpa using other
  rw [normalize, whole]
  cases name <;> rfl

theorem normalize_stem (some : stem ≠ []) (free : separator ∉ stem) (rest : Name) :
    normalize (stem ++ separator :: rest) = stem := by
  have taken : (stem ++ separator :: rest).takeWhile (· != separator) = stem :=
    (Bytes.run_of_not_mem free rest).takeWhile_eq.1
  rw [normalize, taken]
  cases stem with
  | nil => exact absurd rfl some
  | cons => rfl

/-- A name is its own identity, or it goes on with a dot after its identity. -/
theorem normalize_cases (name : Name) :
    name.normalize = name ∨
      ∃ stem rest, name = stem ++ separator :: rest ∧ stem ≠ [] ∧ separator ∉ stem ∧
        name.normalize = stem := by
  by_cases member : separator ∈ name
  · obtain ⟨stem, rest, rfl, free⟩ := List.eq_append_cons_of_mem member
    by_cases some : stem = []
    · subst some
      exact .inl rfl
    · exact .inr ⟨stem, rest, rfl, some, free, normalize_stem some free rest⟩
  · exact .inl (normalize_of_not_mem member)

/-- An identity is its own identity. -/
@[simp] theorem normalize_normalize (name : Name) : name.normalize.normalize = name.normalize := by
  rcases normalize_cases name with same | ⟨stem, rest, -, -, free, same⟩
  · rw [same, same]
  · rw [same, normalize_of_not_mem free]

end StackBound.Name
