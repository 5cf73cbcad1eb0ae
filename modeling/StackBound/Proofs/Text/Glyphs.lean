import StackBound.Proofs.Text.Utf8

/-! How a text falls into glyphs. Characters are taken where their bytes stand, and a byte that begins no
character stands for itself; so there is one way to do it. Any stretch of the glyphs of a text is what the
bytes of the stretch fall into, and texts that are put together at an ASCII byte keep their glyphs. -/
namespace StackBound

namespace Utf8

theorem collect_eq (found : List Glyph) (skip : Nat) (text : Bytes) :
    collect found skip text = found.reverse ++ collect [] skip text := by
  induction text generalizing found skip with
  | nil => cases skip <;> simp [collect]
  | cons a rest ih =>
    cases skip with
    | succ skip => exact ih found skip
    | zero =>
      rw [collect, ih, collect, ih [(first a rest).1]]
      simp

end Utf8

namespace Bytes

/-- A text and the glyphs that it falls into. -/
inductive HasGlyphs : Bytes → List Glyph → Prop
  | nothing : HasGlyphs [] []
  | char {rest : Bytes} {glyphs : List Glyph} (c : Char) (later : HasGlyphs rest glyphs) :
      HasGlyphs (String.utf8EncodeChar c ++ rest) (.char c :: glyphs)
  | stray {rest : Bytes} {glyphs : List Glyph} (b : UInt8)
      (alone : ∀ c, ¬ String.utf8EncodeChar c <+: b :: rest) (later : HasGlyphs rest glyphs) :
      HasGlyphs (b :: rest) (.stray b :: glyphs)

variable {text other : Bytes} {found more : List Glyph} {b : UInt8}

theorem glyphs_cons_eq (a : UInt8) (rest : Bytes) :
    glyphs (a :: rest) = (Utf8.first a rest).1 :: glyphs (rest.drop (Utf8.first a rest).2) := by
  rw [glyphs, Utf8.collect, Utf8.collect_drop, Utf8.collect_eq]
  rfl

theorem glyphs_char_append (c : Char) (rest : Bytes) :
    glyphs (String.utf8EncodeChar c ++ rest) = .char c :: glyphs rest := by
  rw [glyphs, Utf8.collect_encode, Utf8.collect_eq]
  rfl

theorem first_char {c : Char} {rest : Bytes} (read : (Utf8.first b rest).1 = .char c) :
    String.utf8EncodeChar c = b :: rest.take (Utf8.first b rest).2 := by
  have spelled := Utf8.bytes_first b rest
  rwa [read] at spelled

theorem first_stray {a : UInt8} {rest : Bytes} (read : (Utf8.first b rest).1 = .stray a) :
    a = b ∧ rest.take (Utf8.first b rest).2 = [] := by
  have spelled := Utf8.bytes_first b rest
  rw [read] at spelled
  exact ⟨(List.cons.inj spelled).1, (List.cons.inj spelled).2.symm⟩

/-- A byte stands for itself exactly if no character begins with it. -/
theorem first_eq_stray_iff {rest : Bytes} :
    (Utf8.first b rest).1 = .stray b ↔ ∀ c, ¬ String.utf8EncodeChar c <+: b :: rest := by
  constructor
  · rintro stands c ⟨after, same⟩
    obtain ⟨a, inner, bytes, read⟩ := Utf8.first_encode c after
    rw [bytes, List.cons_append, List.cons.injEq] at same
    obtain ⟨rfl, rfl⟩ := same
    rw [read] at stands
    cases stands
  · intro alone
    cases read : (Utf8.first b rest).1 with
    | char c =>
      refine absurd ?_ (alone c)
      rw [first_char read, List.cons_prefix_cons]
      exact ⟨rfl, List.take_prefix _ _⟩
    | stray a => rw [(first_stray read).1]

theorem glyphs_stray {rest : Bytes} (stands : (Utf8.first b rest).1 = .stray b) :
    glyphs (b :: rest) = .stray b :: glyphs rest := by
  have all : rest.drop (Utf8.first b rest).2 = rest := by
    simpa [(first_stray stands).2] using List.take_append_drop (Utf8.first b rest).2 rest
  rw [glyphs_cons_eq, stands, all]

theorem HasGlyphs.glyphs_eq (h : HasGlyphs text found) : text.glyphs = found := by
  induction h with
  | nothing => rfl
  | char c later ih => rw [glyphs_char_append, ih]
  | stray b alone later ih => rw [glyphs_stray (first_eq_stray_iff.mpr alone), ih]

theorem hasGlyphs_glyphs (text : Bytes) : HasGlyphs text text.glyphs := by
  induction long : text.length using Nat.strongRecOn generalizing text with
  | ind n ih =>
    cases text with
    | nil => exact .nothing
    | cons a rest =>
      cases read : (Utf8.first a rest).1 with
      | char c =>
        have whole : a :: rest = String.utf8EncodeChar c ++ rest.drop (Utf8.first a rest).2 := by
          rw [first_char read, List.cons_append, List.take_append_drop]
        have shorter : (rest.drop (Utf8.first a rest).2).length < n := by
          rw [← long, List.length_cons, List.length_drop]
          omega
        rw [glyphs_cons_eq, read, whole]
        exact .char c (ih _ shorter _ rfl)
      | stray b =>
        obtain ⟨rfl, -⟩ := first_stray read
        rw [glyphs_stray read]
        exact .stray b (first_eq_stray_iff.mp read) (ih _ (by simp [← long]) rest rfl)

/-- There is exactly one list of glyphs. -/
theorem glyphs_eq_iff : text.glyphs = found ↔ HasGlyphs text found :=
  ⟨fun same => same ▸ hasGlyphs_glyphs text, HasGlyphs.glyphs_eq⟩

theorem HasGlyphs.ofGlyphs_eq (h : HasGlyphs text found) : ofGlyphs found = text := by
  rw [← h.glyphs_eq, ofGlyphs_glyphs]

theorem ofGlyphs_append (found more : List Glyph) :
    ofGlyphs (found ++ more) = ofGlyphs found ++ ofGlyphs more := List.flatMap_append

/-- Where a text is cut between glyphs, both parts keep theirs. -/
theorem HasGlyphs.cut (h : HasGlyphs text (found ++ more)) :
    HasGlyphs (ofGlyphs found) found ∧ HasGlyphs (ofGlyphs more) more := by
  induction found generalizing text with
  | nil => exact ⟨.nothing, h.ofGlyphs_eq.symm ▸ h⟩
  | cons g found ih =>
    cases h with
    | char c later =>
      obtain ⟨first, second⟩ := ih later
      exact ⟨.char c first, second⟩
    | @stray rest _ b alone later =>
      obtain ⟨first, second⟩ := ih later
      have begun : b :: ofGlyphs found <+: b :: rest := by
        rw [← HasGlyphs.ofGlyphs_eq later, List.append_eq, ofGlyphs_append, ← List.cons_append]
        exact List.prefix_append _ _
      exact ⟨.stray b (fun c begins => alone c (begins.trans begun)) first, second⟩

/-- A character that goes on beyond a text goes on with a byte outside ASCII. -/
theorem prefix_of_prefix_append {c : Char} (begins : String.utf8EncodeChar c <+: b :: text ++ other)
    (ascii : ∀ a ∈ other.head?, a.toNat < 128) : String.utf8EncodeChar c <+: b :: text := by
  rcases List.prefix_or_prefix_of_prefix begins (List.prefix_append _ _) with inside | ⟨beyond, whole⟩
  · exact inside
  cases beyond with
  | nil => simp [← whole]
  | cons a beyond =>
    rw [← whole, List.prefix_append_right_inj] at begins
    obtain ⟨after, rfl⟩ := begins
    have member : a ∈ String.utf8EncodeChar c := by simp [← whole]
    rcases Utf8.mem_utf8EncodeChar member with ⟨small, -⟩ | high
    · have single : (String.utf8EncodeChar c).length = 1 := by
        have below : c.toNat ≤ 127 := Nat.le_of_lt_succ small
        simp [String.utf8EncodeChar, below]
      rw [← whole] at single
      simp at single
    · exact absurd (ascii a rfl) (by omega)

theorem HasGlyphs.append (h : HasGlyphs text found) (h' : HasGlyphs other more)
    (ascii : ∀ a ∈ other.head?, a.toNat < 128) : HasGlyphs (text ++ other) (found ++ more) := by
  induction h with
  | nothing => exact h'
  | char c later ih =>
    rw [List.append_assoc]
    exact .char c ih
  | stray b alone later ih =>
    exact .stray b (fun c begins => alone c (prefix_of_prefix_append begins ascii)) ih

theorem glyphs_append (ascii : ∀ a ∈ other.head?, a.toNat < 128) (text : Bytes) :
    glyphs (text ++ other) = text.glyphs ++ other.glyphs :=
  glyphs_eq_iff.mpr ((hasGlyphs_glyphs text).append (hasGlyphs_glyphs other) ascii)

end Bytes
end StackBound
