import Mathlib.Data.List.Induction
import Mathlib.Data.List.Nodup
import StackBound.Symbol

/-! Lists without their repetitions: each member stands where it was first seen. So a list that takes in
new members at its end, and no others, lists what it was given in the order of first occurrence. -/
namespace StackBound

variable {α β : Type} [BEq α] [LawfulBEq α] [BEq β] [LawfulBEq β]

theorem nodup_eraseDups (items : List α) : items.eraseDups.Nodup := by
  match items with
  | [] => simp
  | item :: rest =>
    rw [List.eraseDups_cons, List.nodup_cons, List.mem_eraseDups]
    exact ⟨by simp, nodup_eraseDups _⟩
termination_by items.length
decreasing_by exact Nat.lt_succ_of_le (List.length_filter_le _ _)

omit [LawfulBEq α] in
theorem eraseDups_sublist (items : List α) : items.eraseDups.Sublist items := by
  match items with
  | [] => simp
  | item :: rest =>
    rw [List.eraseDups_cons]
    exact .cons_cons item ((eraseDups_sublist _).trans List.filter_sublist)
termination_by items.length
decreasing_by exact Nat.lt_succ_of_le (List.length_filter_le _ _)

theorem eraseDups_concat_of_mem {items : List α} {item : α} (seen : item ∈ items) :
    (items ++ [item]).eraseDups = items.eraseDups := by
  rw [List.eraseDups_append, List.removeAll, List.filter_cons_of_neg (by simpa using seen)]
  simp

theorem eraseDups_concat_of_not_mem {items : List α} {item : α} (new : item ∉ items) :
    (items ++ [item]).eraseDups = items.eraseDups ++ [item] := by
  rw [List.eraseDups_append, List.removeAll, List.filter_cons_of_pos (by simpa using new)]
  rfl

theorem eraseDups_eq_self {items : List α} (nodup : items.Nodup) : items.eraseDups = items := by
  induction items using List.reverseRecOn with
  | nil => rfl
  | append_singleton items item ih =>
    obtain ⟨earlier, -, apart⟩ := List.nodup_append.mp nodup
    have new : item ∉ items := fun member => apart item member item (List.mem_singleton_self item) rfl
    rw [eraseDups_concat_of_not_mem new, ih earlier]

/-- What tells members apart does not change which of them are repetitions. -/
theorem eraseDups_map {f : α → β} (injective : ∀ a b, f a = f b → a = b) (items : List α) :
    (items.map f).eraseDups = items.eraseDups.map f := by
  induction items using List.reverseRecOn with
  | nil => rfl
  | append_singleton items item ih =>
    rw [List.map_append, List.map_singleton]
    by_cases seen : item ∈ items
    · rw [eraseDups_concat_of_mem seen, eraseDups_concat_of_mem (List.mem_map_of_mem seen), ih]
    · have new : f item ∉ items.map f := by
        rintro again
        obtain ⟨other, member, same⟩ := List.mem_map.mp again
        exact seen (injective other item same ▸ member)
      rw [eraseDups_concat_of_not_mem seen, eraseDups_concat_of_not_mem new, ih, List.map_append,
        List.map_singleton]

omit [BEq α] [LawfulBEq α] in
theorem exists_first {p : α → Prop} {items : List α} (some : ∃ item ∈ items, p item) :
    ∃ before item after, items = before ++ item :: after ∧ (∀ other ∈ before, ¬ p other) ∧ p item := by
  induction items with
  | nil => simp at some
  | cons item rest ih =>
    by_cases here : p item
    · exact ⟨[], item, rest, rfl, by simp, here⟩
    · obtain ⟨found, member, holds⟩ := some
      rcases List.mem_cons.mp member with rfl | later
      · exact absurd holds here
      · obtain ⟨before, first, after, rfl, none, holds⟩ := ih ⟨found, later, holds⟩
        exact ⟨item :: before, first, after, rfl, List.forall_mem_cons.mpr ⟨here, none⟩, holds⟩

/-- The names seen so far are kept twice, to be looked up and to be listed. -/
theorem Name.distinct_eq (names : List Name) : Name.distinct names = names.eraseDups := by
  suffices kept : ∀ seen, seen = names.foldl (fun (seen : Std.HashSet Name × List Name) n =>
      if seen.1.contains n then seen else (seen.1.insert n, n :: seen.2)) (∅, []) →
      (∀ n, seen.1.contains n = true ↔ n ∈ names) ∧ seen.2.reverse = names.eraseDups from
    (kept _ rfl).2
  induction names using List.reverseRecOn with
  | nil =>
    rintro _ rfl
    simp
  | append_singleton names name ih =>
    rintro _ rfl
    obtain ⟨looked, listed⟩ := ih _ rfl
    rw [List.foldl_append, List.foldl_cons, List.foldl_nil]
    split
    next seen =>
      have member := (looked name).mp seen
      rw [eraseDups_concat_of_mem member]
      exact ⟨fun n => by rw [looked]; grind, listed⟩
    next new =>
      have fresh := mt (looked name).mpr new
      rw [eraseDups_concat_of_not_mem fresh, List.reverse_cons, listed]
      refine ⟨fun n => ?_, rfl⟩
      rw [Std.HashSet.contains_insert, Bool.or_eq_true, looked, List.mem_append, List.mem_singleton,
        beq_iff_eq, or_comm, eq_comm]

end StackBound
