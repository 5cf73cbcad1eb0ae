import StackBound.Cache.Directory
import StackBound.Proofs.Instant
import StackBound.Proofs.Json.Reader

/-! An entry is read back as it was written, with its bytes and its expiry. -/
namespace StackBound

theorem Bytes.isUtf8_of_digits {text : Bytes} (digits : ∀ b ∈ text, isDigit b = true) :
    text.IsUtf8 := by
  refine isUtf8_of_ascii fun b member => ?_
  have digit := digits b member
  simp only [isDigit, Bool.and_eq_true, decide_eq_true_eq, UInt8.le_iff_toNat_le] at digit
  exact Nat.lt_of_le_of_lt digit.2 (by decide)

theorem Duration.isUtf8_point (places n : Nat) : (point places n).IsUtf8 := by
  have digits : ∀ b ∈ ((List.replicate (places - (Bytes.ofNat n).length) 48 ++
      Bytes.ofNat n).reverse.dropWhile (· == 48)).reverse, Bytes.isDigit b = true := by
    intro b member
    have kept := (List.dropWhile_sublist _).subset (List.mem_reverse.mp member)
    exact Bytes.all_isDigit_pad _ n b (List.mem_reverse.mp kept)
  have after := (Bytes.isUtf8_utf8 ".").append (Bytes.isUtf8_of_digits digits)
  rw [point]
  split
  · exact ⟨[], rfl⟩
  · exact after

theorem Instant.isUtf8_padded (width : Nat) (n : Int) : (padded width n).IsUtf8 :=
  Bytes.isUtf8_of_digits (Bytes.all_isDigit_pad _ _)

theorem Instant.isUtf8_text {t : Instant} {text : Bytes} (written : t.text? = some text) :
    text.IsUtf8 := by
  have number := isUtf8_padded
  have mark := Bytes.isUtf8_utf8
  rw [text?] at written
  split at written
  · cases written
  · rw [Option.some.injEq] at written
    rw [← written]
    refine .append (.append ?_ (Duration.isUtf8_point ..)) (mark _)
    refine .append (.append (.append (.append ?_ (mark _)) (number ..)) (mark _)) (number ..)
    refine .append (.append (.append (.append ?_ (mark _)) (number ..)) (mark _)) (number ..)
    exact (number ..).append (mark _) |>.append (number ..)

theorem Base64.isUtf8_encode (bytes : Bytes) : (encode bytes).IsUtf8 := by
  rw [encode_eq_letters]
  refine Bytes.isUtf8_of_ascii fun b member => ?_
  have ascii := (letters_visible bytes b member).2
  rw [UInt8.lt_iff_toNat_lt] at ascii
  exact Nat.lt_trans ascii (by decide)

namespace Cache.Entry

/-- An entry is read back from its text. -/
theorem parse?_of_text? {stored : Entry} {text : Bytes} (written : stored.text? = some text) :
    parse? text = some stored := by
  obtain ⟨expires, instant, rfl⟩ := Option.map_eq_some_iff.mp written
  have plain : Json.Plain 1 (.object [Json.member "data" (.string (Base64.encode stored.data)),
      Json.member "expires_at" (.string expires)]) := by
    refine .object ?_ ?_ <;> simp only [List.forall_mem_cons]
    · exact ⟨Bytes.isUtf8_utf8 _, Bytes.isUtf8_utf8 _, by simp⟩
    · exact ⟨.string (Base64.isUtf8_encode _), .string (Instant.isUtf8_text instant), by simp⟩
  have dated : Json.Reader.leaf .zero reader.instant? [.string expires] = some stored.expires := by
    simp [Json.Reader.leaf, reader.instant?, Instant.parse?_text instant]
  rw [parse?, plain.whole?_compact (by decide), Option.bind_some, reader,
    Json.Reader.object_of_known (by simp [Json.member, Json.Reader.field])]
  simp [Json.Reader.field, Json.Reader.setter, Json.member, Json.Reader.blob_string, dated]

/-- The bytes of an entry come back with it. -/
theorem data_of_parse? {stored found : Entry} {text : Bytes} (written : stored.text? = some text)
    (read : parse? text = some found) : found.data = stored.data := by
  rw [parse?_of_text? written, Option.some.injEq] at read
  rw [read]

end Cache.Entry
end StackBound
