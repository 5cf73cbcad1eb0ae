import Mathlib.Data.List.DropRight
import Mathlib.Data.List.TakeWhile
import StackBound.Proofs.Text.Glyphs
import StackBound.Text.Blank

/-! White space around a text. Trimming takes away what there is of it and nothing else; the glyphs that
are left are those of the trimmed text, so a text is trimmed exactly if no white space is at its ends. -/
namespace StackBound.Bytes

variable {text : Bytes}

def StartsBlank (text : Bytes) : Prop := ∃ g ∈ text.glyphs.head?, g.is isBlank = true

def EndsBlank (text : Bytes) : Prop := ∃ g ∈ text.glyphs.getLast?, g.is isBlank = true

instance : Decidable text.StartsBlank :=
  inferInstanceAs (Decidable (∃ g ∈ text.glyphs.head?, g.is isBlank = true))

instance : Decidable text.EndsBlank :=
  inferInstanceAs (Decidable (∃ g ∈ text.glyphs.getLast?, g.is isBlank = true))

def inner (glyphs : List Glyph) : List Glyph :=
  (glyphs.dropWhile (Glyph.is isBlank)).rdropWhile (Glyph.is isBlank)

theorem trim_eq (text : Bytes) : text.trim = ofGlyphs (inner text.glyphs) := rfl

theorem inner_infix (glyphs : List Glyph) : inner glyphs <:+: glyphs :=
  (List.rdropWhile_prefix _ _).isInfix.trans (List.dropWhile_suffix _).isInfix

theorem glyphs_trim (text : Bytes) : text.trim.glyphs = inner text.glyphs := by
  obtain ⟨before, after, whole⟩ := inner_infix text.glyphs
  have found := hasGlyphs_glyphs text
  rw [← whole] at found
  exact glyphs_eq_iff.mpr found.cut.1.cut.2

theorem not_startsBlank_trim (text : Bytes) : ¬ text.trim.StartsBlank := by
  rintro ⟨g, first, blank⟩
  rw [glyphs_trim, inner] at first
  obtain ⟨after, whole⟩ := List.rdropWhile_prefix (Glyph.is isBlank)
    (text.glyphs.dropWhile (Glyph.is isBlank))
  have stop := List.head?_dropWhile_not (Glyph.is isBlank) text.glyphs
  rw [← whole, List.head?_append, Option.mem_def.mp first] at stop
  simp [blank] at stop

theorem not_endsBlank_trim (text : Bytes) : ¬ text.trim.EndsBlank := by
  rintro ⟨g, last, blank⟩
  rw [glyphs_trim, inner] at last
  obtain ⟨some, rfl⟩ := List.mem_getLast?_eq_getLast last
  exact List.rdropWhile_last_not _ _ some blank

theorem inner_of_not_startsBlank (starts : ¬ text.StartsBlank) :
    inner text.glyphs = text.glyphs.rdropWhile (Glyph.is isBlank) := by
  have front : text.glyphs.dropWhile (Glyph.is isBlank) = text.glyphs := by
    cases found : text.glyphs with
    | nil => rfl
    | cons g more =>
      refine List.dropWhile_cons_of_neg fun blank => starts ⟨g, ?_, blank⟩
      rw [found]
      rfl
  rw [inner, front]

theorem trim_eq_self_iff : text.trim = text ↔ ¬ text.StartsBlank ∧ ¬ text.EndsBlank := by
  constructor
  · intro same
    rw [← same]
    exact ⟨not_startsBlank_trim text, not_endsBlank_trim text⟩
  · rintro ⟨starts, ends⟩
    have back : text.glyphs.rdropWhile (Glyph.is isBlank) = text.glyphs :=
      List.rdropWhile_eq_self_iff.mpr fun some blank =>
        ends ⟨_, List.getLast_mem_getLast? some, blank⟩
    rw [trim_eq, inner_of_not_startsBlank starts, back, ofGlyphs_glyphs]

/-- A text that does not start with white space starts with what trimming leaves of it. -/
theorem trim_prefix (starts : ¬ text.StartsBlank) : text.trim <+: text := by
  obtain ⟨after, whole⟩ := List.rdropWhile_prefix (Glyph.is isBlank) text.glyphs
  rw [trim_eq, inner_of_not_startsBlank starts]
  refine ⟨ofGlyphs after, ?_⟩
  rw [← ofGlyphs_append, whole, ofGlyphs_glyphs]

end StackBound.Bytes
