import StackBound.Text.Bytes

/-! Sorted lists without repetition hold what the list they are made from holds, in strictly ascending
order. So they depend on the members of that list alone. -/
namespace StackBound.Bytes

/-- Dropping repetitions of the last element kept loses nothing, since that element is kept. -/
theorem mem_foldl_compact {text last : Bytes} {kept : List Bytes} (rest : List Bytes)
    (present : last ∈ kept) :
    text ∈ (rest.foldl (fun (kept : Bytes × List Bytes) b =>
        if kept.1 = b then kept else (b, b :: kept.2)) (last, kept)).2 ↔
      text ∈ kept ∨ text ∈ rest := by
  induction rest generalizing last kept with
  | nil => simp
  | cons next rest ih =>
    by_cases same : last = next
    · subst same
      simp only [List.foldl_cons, ↓reduceIte, ih present, List.mem_cons]
      constructor
      · rintro (early | late)
        · exact .inl early
        · exact .inr (.inr late)
      · rintro (early | rfl | late)
        · exact .inl early
        · exact .inl present
        · exact .inr late
    · simp only [List.foldl_cons, same, ↓reduceIte, ih (List.mem_cons_self ..), List.mem_cons]
      rw [or_assoc, or_left_comm]

theorem mem_compact {text : Bytes} (texts : List Bytes) : text ∈ compact texts ↔ text ∈ texts := by
  cases texts with
  | nil => rfl
  | cons first rest => simp [compact, mem_foldl_compact rest (List.mem_singleton_self first)]

theorem mem_sortedSet {text : Bytes} (texts : List Bytes) :
    text ∈ sortedSet texts ↔ text ∈ texts := by
  rw [sortedSet, mem_compact, sorted, List.mem_mergeSort]

theorem pairwise_sorted (texts : List Bytes) : (sorted texts).Pairwise (· ≤ ·) := by
  have trans (a b c : Bytes) (ab : le a b = true) (bc : le b c = true) : le a c = true := by
    simp only [le, decide_eq_true_eq] at *
    exact List.le_trans ab bc
  have total (a b : Bytes) : (le a b || le b a) = true := by
    simpa only [le, Bool.or_eq_true, decide_eq_true_eq] using List.le_total a b
  exact (List.pairwise_mergeSort trans total texts).imp fun le => of_decide_eq_true le

/-- What is kept so far descends, as it is kept last first; no element to come is below it. -/
theorem pairwise_foldl_compact {last : Bytes} {kept : List Bytes} (rest : List Bytes)
    (ascending : (last :: rest).Pairwise (· ≤ ·)) (descending : kept.Pairwise (fun a b => b < a))
    (top : ∀ text ∈ kept, text ≤ last) :
    (rest.foldl (fun (kept : Bytes × List Bytes) b =>
        if kept.1 = b then kept else (b, b :: kept.2)) (last, kept)).2.Pairwise
      (fun a b => b < a) := by
  induction rest generalizing last kept with
  | nil => exact descending
  | cons next rest ih =>
    obtain ⟨least, later⟩ := List.pairwise_cons.mp ascending
    rw [List.foldl_cons]
    by_cases same : last = next
    · subst same
      simpa only [↓reduceIte] using ih later descending top
    · have above : last < next :=
        (List.le_iff_lt_or_eq.mp (least next (by simp))).resolve_right same
      have under (text : Bytes) (member : text ∈ kept) : text < next :=
        List.lt_of_le_of_lt (top text member) above
      rw [if_neg same]
      refine ih later (List.pairwise_cons.mpr ⟨under, descending⟩) fun text member => ?_
      rcases List.mem_cons.mp member with rfl | earlier
      · exact List.le_refl _
      · exact List.le_of_lt (under text earlier)

theorem pairwise_compact {texts : List Bytes} (ascending : texts.Pairwise (· ≤ ·)) :
    (compact texts).Pairwise (· < ·) := by
  cases texts with
  | nil => exact .nil
  | cons first rest =>
    rw [compact, List.pairwise_reverse]
    exact pairwise_foldl_compact rest ascending (List.pairwise_singleton ..)
      fun text only => List.mem_singleton.mp only ▸ List.le_refl _

theorem pairwise_sortedSet (texts : List Bytes) : (sortedSet texts).Pairwise (· < ·) :=
  pairwise_compact (pairwise_sorted texts)

theorem nodup_sortedSet (texts : List Bytes) : (sortedSet texts).Nodup :=
  (pairwise_sortedSet texts).imp fun {a b} below (same : a = b) => List.lt_irrefl b (same ▸ below)

/-- Neither order nor repetition shows in a sorted set. -/
theorem sortedSet_congr {texts others : List Bytes} (same : ∀ text, text ∈ texts ↔ text ∈ others) :
    sortedSet texts = sortedSet others := by
  have perm : (sortedSet texts).Perm (sortedSet others) :=
    (List.perm_ext_iff_of_nodup (nodup_sortedSet texts) (nodup_sortedSet others)).mpr
      fun text => by rw [mem_sortedSet, mem_sortedSet, same]
  refine perm.eq_of_pairwise (fun a b _ _ below above => ?_) (pairwise_sortedSet texts)
    (pairwise_sortedSet others)
  exact absurd (List.lt_trans below above) (List.lt_irrefl a)

end StackBound.Bytes
