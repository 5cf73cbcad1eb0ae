import StackBound.Proofs.StackUsage.Charge
import StackBound.Proofs.WorstCase.Bound

/-! What a finite total means without any assumption on the sizes. It is the sum of the frames on the
path of the answer, but brought into 64 bits, so it covers the call paths from the start exactly as long
as none of them needs more than 64 bits can tell. -/
namespace StackBound

open CallGraph (Graph Overlay)
open StackUsage (Record Table)

/-- A sum that wraps is the exact one brought into range. -/
theorem toInt_add_of_bmod {a b : Int64} {exact : Int} (sum : b.toInt = exact.bmod (2 ^ 64)) :
    (a + b).toInt = (a.toInt + exact).bmod (2 ^ 64) := by
  rw [Int64.toInt_add, sum, Int.add_bmod_bmod]

namespace Program

variable {p : Program} {active : List Name} {fn : Name}

/-- The path of a finite answer is a call path, and its frames sum up to the total modulo 2^64. -/
theorem total_worst (finite : (p.worst active fn).unbounded = false) :
    CallPath p.Calls fn (p.worst active fn).path ∧
      (p.worst active fn).total.toInt =
        (stackUse p.frameSize (p.worst active fn).path).bmod (2 ^ 64) := by
  refine finite_induction (motive := fun fn answer => CallPath p.Calls fn answer.path ∧
    answer.total.toInt = (stackUse p.frameSize answer.path).bmod (2 ^ 64)) ?alone ?onward finite
  case alone => exact fun fn => ⟨.single, toInt_add_of_bmod rfl⟩
  case onward =>
    rintro fn callee answer call finite ⟨path, total⟩
    rw [WorstCase.extend_of_finite finite]
    refine ⟨path.cons call, ?_⟩
    rw [stackUse_cons]
    exact toInt_add_of_bmod total

end Program

namespace Analyzer

/-- A finite total is the sum of the frames on its path, in wrapping 64-bit arithmetic. It is at least
the exact sum of every call path from the start if and only if all these sums are below 2^63. -/
theorem total_covers_iff (g : Graph) (overlay : Overlay) (table : Table) (history : List Name)
    (start : Name) :
    let answer := ((after (.ofGraph g overlay table.frameSize) history).worstCase
      (.ofGraph g overlay table.frameSize) start).1
    answer.unbounded = false →
      CallPath (overlay.Calls g) start answer.path ∧
      answer.total.toInt = (stackUse table.frameSize answer.path).bmod (2 ^ 64) ∧
      ((∀ path, CallPath (overlay.Calls g) start path →
          stackUse table.frameSize path ≤ answer.total.toInt) ↔
        ∀ path, CallPath (overlay.Calls g) start path → stackUse table.frameSize path < 2 ^ 63) := by
  intro answer finite
  have recursion : answer = (Program.ofGraph g overlay table.frameSize).worst [] start :=
    worstCase_after _ history start
  have calls := Program.calls_ofGraph g overlay table.frameSize
  have wraps : CallPath (overlay.Calls g) start answer.path ∧
      answer.total.toInt = (stackUse table.frameSize answer.path).bmod (2 ^ 64) := by
    rw [recursion] at finite ⊢
    rw [← calls]
    exact Program.total_worst finite
  refine ⟨wraps.1, wraps.2, fun covers path h => ?_, fun fits => ?_⟩
  · have within := covers path h
    have representable := Int64.toInt_lt answer.total
    omega
  · have nonneg (fn : Name) : 0 ≤ (table.frameSize fn).toInt :=
      Int64.le_iff_toInt_le.mp (table.frameSize_nonneg fn)
    have deepest : Deepest (overlay.Calls g) table.frameSize start answer := by
      rw [recursion] at finite ⊢
      rw [← calls] at fits ⊢
      exact Program.deepest_worst nonneg fits finite
    exact deepest.greatest

/-! Two functions, the first of which calls the second, with any size for the first. -/

def sampleGraph : Graph := .ofEdges [⟨utf8 "f", utf8 "g"⟩]

def sampleTable (size : Int64) : Table := Table.empty.merge [⟨utf8 "f", size⟩, ⟨utf8 "g", 1⟩]

theorem calls_sampleGraph {fn callee : Name} :
    Overlay.empty.Calls sampleGraph fn callee ↔ fn = utf8 "f" ∧ callee = utf8 "g" := by
  rw [sampleGraph, Overlay.calls_empty_ofEdges]
  constructor
  · rintro ⟨member, -⟩
    simpa using member
  · rintro ⟨rfl, rfl⟩
    exact ⟨by simp, by decide, by decide⟩

theorem path_sampleGraph {path : List Name}
    (h : CallPath (Overlay.empty.Calls sampleGraph) (utf8 "f") path) :
    path = [utf8 "f"] ∨ path = [utf8 "f", utf8 "g"] := by
  rcases h.eq_or_cons with single | ⟨callee, rest, call, rfl, onward⟩
  · exact .inl single
  obtain ⟨-, rfl⟩ := calls_sampleGraph.mp call
  rcases onward.eq_or_cons with rfl | ⟨callee, rest, call, rfl, -⟩
  · exact .inr rfl
  · exact absurd (calls_sampleGraph.mp call).1 (by decide)

theorem finite_sampleGraph (size : Int64) :
    ((after (.ofGraph sampleGraph .empty (sampleTable size).frameSize) []).worstCase
      (.ofGraph sampleGraph .empty (sampleTable size).frameSize) (utf8 "f")).1.unbounded = false := by
  rw [worstCase_after]
  apply Program.finite_worst
  rw [Program.calls_ofGraph]
  refine ReachesCycle.not_of_rank (fun fn => (fn.map UInt8.toNat).sum) (fun call => ?_) (utf8 "f")
  obtain ⟨rfl, rfl⟩ := calls_sampleGraph.mp call
  decide

theorem frameSize_sampleTable {size : Int64} (nonneg : 0 ≤ size) :
    (sampleTable size).frameSize (utf8 "f") = size ∧ (sampleTable size).frameSize (utf8 "g") = 1 := by
  have apart : utf8 "f" ≠ utf8 "g" := by decide
  constructor
  · exact Table.frameSize_merge_of_unique (by simp) (by decide) nonneg (by simp [apart.symm])
  · exact Table.frameSize_merge_of_unique (by simp) (by decide) (by decide) (by simp [apart])

theorem stackUse_sampleTable {size : Int64} (nonneg : 0 ≤ size) :
    stackUse (sampleTable size).frameSize [utf8 "f", utf8 "g"] = size.toInt + 1 := by
  obtain ⟨first, second⟩ := frameSize_sampleTable nonneg
  rw [stackUse_cons, stackUse_cons, stackUse_nil, first, second]
  rfl

theorem callPath_sampleGraph :
    CallPath (Overlay.empty.Calls sampleGraph) (utf8 "f") [utf8 "f", utf8 "g"] :=
  .cons (calls_sampleGraph.mpr ⟨rfl, rfl⟩) .single

/-- The greatest sum that 64 bits can tell is told. -/
theorem total_covers_iff_greatest :
    let table := sampleTable 9223372036854775806
    let answer := ((after (.ofGraph sampleGraph .empty table.frameSize) []).worstCase
      (.ofGraph sampleGraph .empty table.frameSize) (utf8 "f")).1
    answer.unbounded = false ∧ answer.total.toInt = 2 ^ 63 - 1 := by
  intro table answer
  have finite : answer.unbounded = false := finite_sampleGraph _
  have whole : stackUse table.frameSize [utf8 "f", utf8 "g"] = 2 ^ 63 - 1 :=
    stackUse_sampleTable (by decide)
  have fits (path : List Name) (h : CallPath (Overlay.empty.Calls sampleGraph) (utf8 "f") path) :
      stackUse table.frameSize path < 2 ^ 63 := by
    rcases path_sampleGraph h with rfl | rfl
    · have representable := Int64.toInt_lt (table.frameSize (utf8 "f"))
      rw [stackUse_cons, stackUse_nil]
      omega
    · omega
  obtain ⟨-, -, covers⟩ := total_covers_iff sampleGraph .empty table [] (utf8 "f") finite
  have most : stackUse table.frameSize [utf8 "f", utf8 "g"] ≤ answer.total.toInt :=
    covers.mpr fits _ callPath_sampleGraph
  have representable := Int64.toInt_lt answer.total
  exact ⟨finite, by omega⟩

/-- One byte more is not: lines that are read as records lead to a finite total below the stack that a
call path takes. -/
theorem total_lt_stackUse_of_wrap :
    let table := sampleTable 9223372036854775807
    let answer := ((after (.ofGraph sampleGraph .empty table.frameSize) []).worstCase
      (.ofGraph sampleGraph .empty table.frameSize) (utf8 "f")).1
    Record.parse (utf8 "m.c:1:1:f\t9223372036854775807\tstatic") =
        .ok ⟨utf8 "f", 9223372036854775807⟩ ∧
      Record.parse (utf8 "m.c:5:1:g\t1\tstatic") = .ok ⟨utf8 "g", 1⟩ ∧
      answer.unbounded = false ∧
      ∃ path, CallPath (Overlay.empty.Calls sampleGraph) (utf8 "f") path ∧
        answer.total.toInt < stackUse table.frameSize path := by
  intro table answer
  have whole : stackUse table.frameSize [utf8 "f", utf8 "g"] = 2 ^ 63 :=
    stackUse_sampleTable (by decide)
  have representable := Int64.toInt_lt answer.total
  exact ⟨by decide, by decide, finite_sampleGraph _, _, callPath_sampleGraph, by omega⟩

end Analyzer
end StackBound
