import StackBound.Proofs.Cache.Entry
import StackBound.Proofs.Stored

/-! Stored scans in entries of a cache. An entry carries any bytes as letters, so a scan whose texts are
all well-formed comes back from it as it was, however its empty lists were written. -/
namespace StackBound

open Cache (Entry)
open CallGraph (Dump)
open StackUsage (Listing)

theorem Instant.exists_text {t : Instant} (dated : 0 ≤ t.civil.year ∧ t.civil.year ≤ 9999) :
    ∃ text, t.text? = some text := by
  refine ⟨_, if_neg ?_⟩
  rw [not_or, Int.not_lt, Int.not_lt]
  exact dated

theorem Cache.Entry.exists_text {expires : Instant}
    (dated : 0 ≤ expires.civil.year ∧ expires.civil.year ≤ 9999) (data : Bytes) :
    ∃ text, Entry.text? ⟨data, expires⟩ = some text ∧ Entry.parse? text = some ⟨data, expires⟩ := by
  obtain ⟨day, written⟩ := Instant.exists_text dated
  obtain ⟨text, spelled⟩ : ∃ text, Entry.text? ⟨data, expires⟩ = some text := by
    rw [Entry.text?, written]
    exact ⟨_, rfl⟩
  exact ⟨text, spelled, Entry.parse?_of_text? spelled⟩

namespace Format

/-- A scan whose texts are all well-formed comes back through an entry that expires in a year of four
digits. Whichever value stands for it, the entry has a text, and from the bytes that are read off this
text, which do not say null, the scan is restored as it was, so that a listing gives the same
warnings. -/
theorem restored_through_entry {l : Listing} {d : Dump} (listing : l.IsText) (dump : d.IsText)
    {expires : Instant} (dated : 0 ≤ expires.civil.year ∧ expires.civil.year ≤ 9999) :
    (stackUsage.stored l = (listingJson l).compact ∧ WritesListing l (listingJson l) ∧
        callGraph.stored d = (dumpJson d).compact ∧ WritesDump d (dumpJson d)) ∧
      (∀ value, WritesListing l value → ∃ text entry,
        Entry.text? ⟨value.compact, expires⟩ = some text ∧ Entry.parse? text = some entry ∧
          Json.whole? entry.data = some value ∧ value ≠ .null ∧
          stackUsage.restored? entry.data = some l ∧
          ∀ source, (stackUsage.restored? entry.data).map (·.warnings source) =
            some (l.warnings source)) ∧
      ∀ value, WritesDump d value → ∃ text entry,
        Entry.text? ⟨value.compact, expires⟩ = some text ∧ Entry.parse? text = some entry ∧
          Json.whole? entry.data = some value ∧ value ≠ .null ∧
          callGraph.restored? entry.data = some d := by
  refine ⟨⟨rfl, writesListing_listingJson l, rfl, writesDump_dumpJson d⟩, ?_, ?_⟩
  · intro value written
    obtain ⟨text, spelled, read⟩ := Entry.exists_text dated value.compact
    have restored := restored?_of_writesListing written listing
    refine ⟨text, _, spelled, read, (written.plain listing).whole?_compact (by decide), ?_, restored,
      fun source => by rw [restored]; rfl⟩
    obtain ⟨_⟩ := written
    nofun
  · intro value written
    obtain ⟨text, spelled, read⟩ := Entry.exists_text dated value.compact
    refine ⟨text, _, spelled, read, (written.plain dump).whole?_compact (by decide), ?_,
      restored?_of_writesDump written dump⟩
    obtain ⟨_⟩ := written
    nofun

/-- Names with characters that are escaped, the least and the largest size, a skipped line, and a list
of references that is written as null. -/
theorem restored_through_entry_escaped :
    let l : Listing := ⟨[⟨utf8 "<\"a\\\t\u2028é>", Int64.minValue⟩, ⟨[], Int64.maxValue⟩],
      [⟨3, utf8 "&\u0000", utf8 "😀"⟩]⟩
    let d : Dump := ⟨[⟨utf8 "f/1", utf8 "f"⟩], [⟨utf8 "f", []⟩]⟩
    let value : Json := .object [Json.member "definitions" (.array [definitionJson ⟨utf8 "f/1", utf8 "f"⟩]),
      Json.member "calls" (.array [.object [Json.member "caller" (.string (utf8 "f")),
        Json.member "refs" .null]])]
    l.IsText ∧ d.IsText ∧ Instant.zero.civil.year = 1 ∧
      (∃ text entry, Entry.text? ⟨stackUsage.stored l, .zero⟩ = some text ∧
        Entry.parse? text = some entry ∧ stackUsage.restored? entry.data = some l) ∧
      ∃ text entry, Entry.text? ⟨value.compact, .zero⟩ = some text ∧
        Entry.parse? text = some entry ∧ callGraph.restored? entry.data = some d := by
  intro l d value
  have listing : l.IsText := by
    refine ⟨?_, ?_, ?_⟩ <;> simp only [l, List.forall_mem_cons, Bytes.isUtf8_utf8, true_and]
    · exact ⟨⟨[], rfl⟩, by simp⟩
    all_goals simp
  have dump : d.IsText := by
    refine ⟨?_, ?_, ?_, ?_⟩ <;> simp [d, Bytes.isUtf8_utf8]
  have year : Instant.zero.civil.year = 1 := by decide +kernel
  have dated : 0 ≤ Instant.zero.civil.year ∧ Instant.zero.civil.year ≤ 9999 := by simp [year]
  have written : WritesDump d value :=
    .mk (.array (.cons rfl .nil)) (.array (.cons (.mk .null) .nil))
  obtain ⟨-, listings, dumps⟩ := restored_through_entry listing dump dated
  obtain ⟨text, entry, spelled, read, -, -, restored, -⟩ := listings _ (writesListing_listingJson l)
  obtain ⟨text', entry', spelled', read', -, -, restored'⟩ := dumps value written
  exact ⟨listing, dump, year, ⟨text, entry, spelled, read, restored⟩,
    ⟨text', entry', spelled', read', restored'⟩⟩

end Format
end StackBound
