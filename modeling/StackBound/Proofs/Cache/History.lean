import Mathlib.Data.List.Induction
import StackBound.Proofs.Cache.Entry

/-! What is done with a cache over time, and what each key would have under it if the cache were a
map whose entries expire. -/
namespace StackBound.Cache

inductive Operation
  | set (key data : Bytes) (lifetime : Duration)
  | get (key : Bytes)
  | delete (key : Bytes)
  | clear

namespace Operation

/-- Whether an operation is about a key. -/
def Concerns (key : Bytes) : Operation → Prop
  | .set other _ _ | .get other | .delete other => other = key
  | .clear => True

/-- Whether an operation replaces or takes away what is stored under a key. -/
def Alters (key : Bytes) : Operation → Prop
  | .set other _ _ | .delete other => other = key
  | .get _ => False
  | .clear => True

def key? : Operation → Option Bytes
  | .set key _ _ | .get key | .delete key => some key
  | .clear => none

end Operation

structure Use where
  time : Instant
  operation : Operation

inductive Outcome
  | stored (fault : Option Fault)
  | found (answer : Answer)
  | deleted (fault : Option Fault)
  | cleared (files : Nat)
  deriving DecidableEq

def Outcome.IsSuccess : Outcome → Prop
  | .stored fault | .deleted fault => fault = none
  | .found answer => ∀ fault, answer ≠ .failed fault
  | .cleared _ => True

/-- Bytes that were stored at some time for some while. -/
structure Stored where
  data : Bytes
  since : Instant
  lifetime : Duration

namespace Stored

def expires (s : Stored) : Instant := if 0 < s.lifetime then s.since.add s.lifetime else .zero

def entry (s : Stored) : Entry := ⟨s.data, s.expires⟩

/-- Whether the time is strictly after the lifetime, if it ends at all. -/
def IsOver (s : Stored) (now : Instant) : Prop :=
  0 < s.lifetime ∧ s.since.add s.lifetime ≠ .zero ∧ (s.since.add s.lifetime).nanos < now.nanos

instance (s : Stored) (now : Instant) : Decidable (s.IsOver now) :=
  inferInstanceAs (Decidable (_ ∧ _ ∧ _))

theorem isExpired_entry (s : Stored) (now : Instant) :
    s.entry.isExpired now = true ↔ s.IsOver now := by
  rw [Entry.isExpired, entry, expires, IsOver]
  by_cases ends : 0 < s.lifetime <;> simp [ends, Instant.after]

theorem IsOver.mono {s : Stored} {now later : Instant} (ended : s.IsOver now)
    (ordered : now.nanos ≤ later.nanos) : s.IsOver later :=
  ⟨ended.1, ended.2.1, Int.lt_of_lt_of_le ended.2.2 ordered⟩

end Stored

/-- The bytes were stored under a key and have been neither replaced nor taken away since. -/
def Latest (history : List Use) (key : Bytes) (s : Stored) : Prop :=
  ∃ before after, history = before ++ ⟨s.since, .set key s.data s.lifetime⟩ :: after ∧
    ∀ use ∈ after, ¬ use.operation.Alters key

/-- The bytes were stored under a key and nothing has taken them away since, not even asking for them
when they had expired. -/
def Remains (history : List Use) (key : Bytes) (s : Stored) : Prop :=
  ∃ before after, history = before ++ ⟨s.since, .set key s.data s.lifetime⟩ :: after ∧
    ∀ use ∈ after, ¬ use.operation.Alters key ∧ (use.operation = .get key → ¬ s.IsOver use.time)

section Histories

variable {history : List Use} {key : Bytes} {s : Stored} {use : Use}

theorem Latest.remains (latest : Latest history key s) {now : Instant} (good : ¬ s.IsOver now)
    (past : ∀ use ∈ history, use.time.nanos ≤ now.nanos) : Remains history key s := by
  obtain ⟨before, after, rfl, since⟩ := latest
  refine ⟨before, after, rfl, fun use member => ⟨since use member, fun _ ended => good ?_⟩⟩
  exact ended.mono (past use (by simp [member]))

theorem Remains.latest (remains : Remains history key s) : Latest history key s := by
  obtain ⟨before, after, rfl, since⟩ := remains
  exact ⟨before, after, rfl, fun use member => (since use member).1⟩

/-- What remains after one more use was just stored, or it remained and the use left it alone. -/
theorem remains_concat : Remains (history ++ [use]) key s ↔
    use = ⟨s.since, .set key s.data s.lifetime⟩ ∨
      Remains history key s ∧ ¬ use.operation.Alters key ∧
        (use.operation = .get key → ¬ s.IsOver use.time) := by
  constructor
  · rintro ⟨before, after, whole, since⟩
    rcases List.eq_nil_or_concat after with rfl | ⟨earlier, last, rfl⟩
    · exact .inl (List.singleton_inj.mp (List.append_inj' whole rfl).2)
    · rw [List.concat_eq_append, ← List.cons_append, ← List.append_assoc] at whole
      obtain ⟨rfl, same⟩ := List.append_inj' whole rfl
      cases same
      refine .inr ⟨⟨before, earlier, rfl, fun use member => since use (by simp [member])⟩, ?_⟩
      exact since use (by simp)
  · rintro (rfl | ⟨⟨before, after, rfl, since⟩, left⟩)
    · exact ⟨history, [], rfl, by simp⟩
    · refine ⟨before, after ++ [use], by simp, fun other member => ?_⟩
      rcases List.mem_append.mp member with earlier | last
      · exact since other earlier
      · rw [List.mem_singleton.mp last]
        exact left

/-- What a use leaves under a key. -/
def Use.leaves (key : Bytes) (found : Option Stored) (use : Use) : Option Stored :=
  match use.operation with
  | .set other data lifetime => if other = key then some ⟨data, use.time, lifetime⟩ else found
  | .get other => if other = key then found.filter fun s => !decide (s.IsOver use.time) else found
  | .delete other => if other = key then none else found
  | .clear => none

theorem Use.leaves_of_not_concerns {found : Option Stored} (away : ¬ use.operation.Concerns key) :
    use.leaves key found = found := by
  obtain ⟨time, operation⟩ := use
  cases operation with
  | set other | get other | delete other => exact if_neg away
  | clear => exact absurd trivial away

/-- A use that is about one key and leaves that one alone leaves all contents alone. -/
theorem Use.leaves_eq_self (use : Use) (contents : Bytes → Option Stored) {key : Bytes}
    (only : ∀ other, use.operation.Concerns other → other = key)
    (left : use.leaves key (contents key) = contents key) :
    (fun other => use.leaves other (contents other)) = contents := by
  funext other
  by_cases same : other = key
  · rw [same]
    exact left
  · exact leaves_of_not_concerns fun concerns => same (only other concerns)

def held (history : List Use) (key : Bytes) : Option Stored := history.foldl (Use.leaves key) none

theorem held_concat : held (history ++ [use]) key = use.leaves key (held history key) := by
  rw [held, List.foldl_append]
  rfl

theorem held_eq_some_iff : held history key = some s ↔ Remains history key s := by
  induction history using List.reverseRecOn with
  | nil =>
    refine iff_of_false nofun ?_
    rintro ⟨before, after, whole, -⟩
    simp at whole
  | append_singleton earlier use ih =>
    rw [held_concat, remains_concat, ← ih]
    obtain ⟨time, operation⟩ := use
    cases operation with
    | set other data lifetime =>
      by_cases same : other = key
      · subst same
        obtain ⟨data, since, lifetime⟩ := s
        simp [Use.leaves, Operation.Alters, and_left_comm]
      · simp [Use.leaves, Operation.Alters, same]
    | get other =>
      by_cases same : other = key <;> simp [Use.leaves, Operation.Alters, same, Option.filter_eq_some_iff]
    | delete other =>
      by_cases same : other = key <;> simp [Use.leaves, Operation.Alters, same]
    | clear => simp [Use.leaves, Operation.Alters]

end Histories

end StackBound.Cache
