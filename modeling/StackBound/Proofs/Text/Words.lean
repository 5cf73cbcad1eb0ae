import Mathlib.Data.List.TakeWhile
import StackBound.Proofs.Text.Glyphs
import StackBound.Text.Blank

/-! The words of a text. White space separates them and belongs to none; a word goes on until white
space follows, so there is one way to cut a text into words. -/
namespace StackBound

namespace Bytes

inductive Words : List Glyph → List (List Glyph) → Prop
  | nothing : Words [] []
  | gap {g : Glyph} {rest : List Glyph} {found : List (List Glyph)} (blank : g.is isBlank = true)
      (later : Words rest found) : Words (g :: rest) found
  | word {word rest : List Glyph} {found : List (List Glyph)} (some : word ≠ [])
      (solid : ∀ g ∈ word, g.is isBlank = false) (ends : ∀ g ∈ rest.head?, g.is isBlank = true)
      (later : Words rest found) : Words (word ++ rest) (word :: found)

def HasFields (text : Bytes) (found : List Bytes) : Prop :=
  ∃ glyphs, Words text.glyphs glyphs ∧ found = glyphs.map ofGlyphs

variable {g : Glyph} {glyphs word rest : List Glyph} {found : List (List Glyph)}

/-- The word that glyphs start with, which may be empty, and the words after it. -/
def parted (glyphs : List Glyph) : List Glyph × List (List Glyph) :=
  glyphs.foldr (fun g found =>
    if g.is isBlank then ([], if found.1.isEmpty then found.2 else found.1 :: found.2)
    else (g :: found.1, found.2)) ([], [])

theorem words_eq (glyphs : List Glyph) :
    words glyphs =
      if (parted glyphs).1.isEmpty then (parted glyphs).2
      else (parted glyphs).1 :: (parted glyphs).2 := rfl

theorem parted_blank (blank : g.is isBlank = true) (rest : List Glyph) :
    parted (g :: rest) = ([], words rest) := by
  rw [words_eq, parted, List.foldr_cons, if_pos blank]
  rfl

theorem words_blank (blank : g.is isBlank = true) (rest : List Glyph) :
    words (g :: rest) = words rest := by
  rw [words_eq, parted_blank blank]
  rfl

theorem parted_of_ends (ends : ∀ g ∈ rest.head?, g.is isBlank = true) :
    parted rest = ([], words rest) := by
  cases rest with
  | nil => rfl
  | cons g rest => rw [parted_blank (ends g rfl), words_blank (ends g rfl)]

theorem words_word (some : word ≠ []) (solid : ∀ g ∈ word, g.is isBlank = false)
    (ends : ∀ g ∈ rest.head?, g.is isBlank = true) : words (word ++ rest) = word :: words rest := by
  have whole : parted (word ++ rest) = (word, words rest) := by
    clear some
    induction word with
    | nil => exact parted_of_ends ends
    | cons g more ih =>
      obtain ⟨first, later⟩ := List.forall_mem_cons.mp solid
      have onward := ih later
      rw [parted] at onward ⊢
      rw [List.cons_append, List.foldr_cons, onward, if_neg (by simp [first])]
  rw [words_eq, whole, if_neg (by simpa using some)]

theorem Words.words_eq (h : Words glyphs found) : words glyphs = found := by
  induction h with
  | nothing => rfl
  | gap blank later ih => rw [words_blank blank, ih]
  | word some solid ends later ih => rw [words_word some solid ends, ih]

theorem words_words (glyphs : List Glyph) : Words glyphs (words glyphs) := by
  induction long : glyphs.length using Nat.strongRecOn generalizing glyphs with
  | ind n ih =>
    cases glyphs with
    | nil => exact .nothing
    | cons g rest =>
      by_cases blank : g.is isBlank = true
      · rw [words_blank blank]
        exact .gap blank (ih rest.length (by simp [← long]) rest rfl)
      · -- The word goes on as far as there is no white space.
        let solid (g : Glyph) : Bool := !g.is isBlank
        have starts : (g :: rest).takeWhile solid = g :: rest.takeWhile solid :=
          List.takeWhile_cons_of_pos (by simpa [solid] using blank)
        have some : (g :: rest).takeWhile solid ≠ [] := by simp [starts]
        have within : ∀ h ∈ (g :: rest).takeWhile solid, h.is isBlank = false := fun h member => by
          simpa [solid] using List.mem_takeWhile_imp member
        have ends : ∀ h ∈ ((g :: rest).dropWhile solid).head?, h.is isBlank = true := by
          intro h first
          have stop := List.head?_dropWhile_not solid (g :: rest)
          rw [Option.mem_def.mp first] at stop
          simpa [solid] using stop
        have shorter : ((g :: rest).dropWhile solid).length < n := by
          have lengths : (g :: rest).length =
              ((g :: rest).takeWhile solid).length + ((g :: rest).dropWhile solid).length := by
            rw [← List.length_append, List.takeWhile_append_dropWhile]
          rw [starts] at lengths
          simp only [List.length_cons] at lengths long
          omega
        have whole := Words.word some within ends (ih _ shorter _ rfl)
        rw [← words_word some within ends, List.takeWhile_append_dropWhile] at whole
        exact whole

theorem fields_eq_iff {text : Bytes} {found : List Bytes} :
    text.fields = found ↔ text.HasFields found := by
  constructor
  · rintro rfl
    exact ⟨_, words_words text.glyphs, rfl⟩
  · rintro ⟨glyphs, h, rfl⟩
    rw [fields, h.words_eq]

theorem glyphs_cons {b : UInt8} (ascii : b.toNat < 128) (rest : Bytes) :
    Bytes.glyphs (b :: rest) = .char (Char.ofNat b.toNat) :: rest.glyphs := by
  rw [glyphs_cons_eq, Utf8.first_one ascii, List.drop_zero]

/-- White space of one byte at the start of a text belongs to no word. -/
theorem fields_cons {b : UInt8} (ascii : b.toNat < 128) (blank : isBlank (Char.ofNat b.toNat) = true)
    (rest : Bytes) : fields (b :: rest) = fields rest := by
  have first : Glyph.is isBlank (.char (Char.ofNat b.toNat)) = true := blank
  rw [fields, glyphs_cons ascii, words_blank first, fields]

end Bytes
end StackBound
