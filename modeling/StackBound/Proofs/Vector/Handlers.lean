import Mathlib
import StackBound.Proofs.Text.SortedSet
import StackBound.Proofs.Vector.Words

/-! What a vector table names. A table is either out of reach, for one of five reasons, or it stands
within the data of a section, and then its handlers are exactly the functions that its slots answer to.
No assumption is made about the binary: symbols, addresses and data may be anything. -/
namespace StackBound.Vector

def First {α : Type} (items : List α) (holds : α → Prop) (item : α) : Prop :=
  holds item ∧ ∃ before after, items = before ++ item :: after ∧ ∀ earlier ∈ before, ¬ holds earlier

theorem find?_eq_some_iff_first {α : Type} {items : List α} {holds : α → Bool} {item : α} :
    items.find? holds = some item ↔ First items (holds · = true) item := by
  simp only [List.find?_eq_some_iff_append, Bool.not_eq_true', First, Bool.not_eq_true]

def FunctionAt (symbols : List Symbol) (value : Nat) : Symbol → Prop :=
  First symbols fun s => s.isFunction = true ∧ s.value.toNat = value

/-- The function that a word points to: the first one at the word with its lowest bit cleared, or else,
if there is none, the first one at the word with this bit set. -/
def Answers (symbols : List Symbol) (w : UInt32) (s : Symbol) : Prop :=
  FunctionAt symbols (2 * (w.toNat / 2)) s ∨
    (∀ other, ¬ FunctionAt symbols (2 * (w.toNat / 2)) other) ∧
      FunctionAt symbols (2 * (w.toNat / 2) + 1) s

theorem find?_function_iff {symbols : List Symbol} {value : UInt64} {s : Symbol} :
    (symbols.filter (·.isFunction)).find? (·.value = value) = some s ↔
      FunctionAt symbols value.toNat s := by
  rw [List.find?_filter, find?_eq_some_iff_first]
  simp only [decide_eq_true_eq, FunctionAt, UInt64.toNat_inj]

theorem functionAt_eq_some_iff {symbols : List Symbol} {w : UInt32} {name : Name} :
    functionAt (symbols.filter (·.isFunction)) (target w) = some name ↔
      ∃ s, Answers symbols w s ∧ s.name = name := by
  have even : (target w).toNat = 2 * (w.toNat / 2) := toNat_target w
  have odd : (target w ||| 1).toNat = 2 * (w.toNat / 2) + 1 := toNat_or_one even
  rw [functionAt]
  simp only [Answers]
  rw [← odd, ← even]
  cases found : (symbols.filter (·.isFunction)).find? (·.value = target w) with
  | some exact =>
    have answer := find?_function_iff.mp found
    constructor
    · intro same
      exact ⟨exact, .inl answer, Option.some.inj same⟩
    · rintro ⟨s, here | ⟨nobody, -⟩, rfl⟩
      · rw [← find?_function_iff, found] at here
        exact congrArg (Option.map (·.name)) here
      · exact absurd answer (nobody exact)
  | none =>
    have nobody (other : Symbol) : ¬ FunctionAt symbols (target w).toNat other := by
      rw [← find?_function_iff, found]
      simp
    show ((symbols.filter (·.isFunction)).find? (·.value = target w ||| 1)).map (·.name) = some name ↔ _
    simp only [Option.map_eq_some_iff, find?_function_iff]
    constructor
    · rintro ⟨s, marked, same⟩
      exact ⟨s, .inr ⟨nobody, marked⟩, same⟩
    · rintro ⟨s, here | ⟨-, marked⟩, same⟩
      · exact absurd here (nobody s)
      · exact ⟨s, marked, same⟩

/-- A name of the table: one that a slot behind the first answers to, if the slot is in use. -/
def Handles (symbols : List Symbol) (data : Bytes) (start : Nat) (name : Name) : Prop :=
  ∃ number w s, 1 ≤ number ∧ Slot data start number w ∧ w ≠ 0 ∧ w ≠ 0xFFFFFFFF ∧
    Answers symbols w s ∧ Name.normalize s.name = name

theorem mem_handlers_iff {symbols : List Symbol} {data : Bytes} {start : Nat} {name : Name} :
    name ∈ handlers (symbols.filter (·.isFunction)) (words (data.drop start)) ↔
      Handles symbols data start name := by
  simp only [handlers, Bytes.mem_sortedSet, List.mem_filterMap, Option.ite_none_right_eq_some,
    Option.map_eq_some_iff, functionAt_eq_some_iff, isUsed, Bool.and_eq_true, bne_iff_ne]
  constructor
  · rintro ⟨w, member, ⟨zero, ones⟩, _, ⟨s, answers, rfl⟩, rfl⟩
    obtain ⟨i, slot⟩ := List.mem_iff_getElem?.mp member
    rw [List.getElem?_drop, getElem?_words_iff] at slot
    exact ⟨1 + i, w, s, Nat.le_add_right 1 i, slot, zero, ones, answers, rfl⟩
  · rintro ⟨number, w, s, behind, slot, zero, ones, answers, rfl⟩
    refine ⟨w, ?_, ⟨zero, ones⟩, s.name, ⟨s, answers, rfl⟩, rfl⟩
    rw [List.mem_iff_getElem?]
    refine ⟨number - 1, ?_⟩
    rwa [List.getElem?_drop, Nat.add_sub_cancel' behind, getElem?_words_iff]

/-! ### Tables -/

inductive Fails (image : Image) (table : Name) : Problem → Prop
  | symbols {cause : Fault} (unread : image.symbols = .error cause) :
      Fails image table (.symbols cause)
  | notFound {symbols : List Symbol} (read : image.symbols = .ok symbols)
      (missing : ∀ s ∈ symbols, s.name ≠ table) : Fails image table (.notFound table)
  | noSection {symbols : List Symbol} {s : Symbol} (read : image.symbols = .ok symbols)
      (named : First symbols (·.name = table) s) (nowhere : s.inSection = none) :
      Fails image table (.noSection table)
  | unreadable {symbols : List Symbol} {s : Symbol} {index : Nat} {cause : Fault}
      (read : image.symbols = .ok symbols) (named : First symbols (·.name = table) s)
      (placed : s.inSection = some index) (unread : image.sectionAt index = .error cause) :
      Fails image table (.unreadable table cause)
  | outside {symbols : List Symbol} {s : Symbol} {index : Nat} {sect : Section}
      (read : image.symbols = .ok symbols) (named : First symbols (·.name = table) s)
      (placed : s.inSection = some index) (found : image.sectionAt index = .ok sect)
      (outside : s.value.toNat < sect.address.toNat ∨
        sect.address.toNat + sect.data.length < s.value.toNat) :
      Fails image table (.outside table s.value)

/-- The table begins at an offset of a section's data, which may be its very end. -/
inductive Stands (image : Image) (table : Name) : List Symbol → Bytes → Nat → Prop
  | within {symbols : List Symbol} {s : Symbol} {index : Nat} {sect : Section} {start : Nat}
      (read : image.symbols = .ok symbols) (named : First symbols (·.name = table) s)
      (placed : s.inSection = some index) (found : image.sectionAt index = .ok sect)
      (offset : s.value.toNat = sect.address.toNat + start) (inside : start ≤ sect.data.length) :
      Stands image table symbols sect.data start

variable {image : Image} {table : Name} {problem : Problem}

theorem find?_named_iff {symbols : List Symbol} {s : Symbol} :
    symbols.find? (·.name = table) = some s ↔ First symbols (·.name = table) s := by
  simp only [find?_eq_some_iff_first, decide_eq_true_eq]

theorem outside_iff {address value : UInt64} {length : Nat} :
    value < address ∨ length < (value - address).toNat ↔
      value.toNat < address.toNat ∨ address.toNat + length < value.toNat := by
  rw [UInt64.lt_iff_toNat_lt]
  by_cases below : value.toNat < address.toNat
  · simp [below]
  · rw [UInt64.toNat_sub_of_le value address (UInt64.le_iff_toNat_le.mpr (Nat.not_lt.mp below))]
    omega

theorem locate_of_found {symbols : List Symbol} {s : Symbol} {index : Nat} {sect : Section}
    (read : image.symbols = .ok symbols) (named : First symbols (·.name = table) s)
    (placed : s.inSection = some index) (found : image.sectionAt index = .ok sect) :
    locate image table =
      if s.value.toNat < sect.address.toNat ∨
          sect.address.toNat + sect.data.length < s.value.toNat then .error (.outside table s.value)
      else .ok (handlers (symbols.filter (·.isFunction))
        (words (sect.data.drop (s.value.toNat - sect.address.toNat)))) := by
  simp only [locate, read, Except.mapError, bind, Except.bind, find?_named_iff.mpr named, placed, found,
    outside_iff]
  split
  next => rfl
  next within =>
    rw [not_or, Nat.not_lt] at within
    rw [UInt64.toNat_sub_of_le _ _ (UInt64.le_iff_toNat_le.mpr within.1)]
    rfl

theorem locate_of_fails (h : Fails image table problem) : locate image table = .error problem := by
  cases h with
  | symbols unread => simp only [locate, unread, Except.mapError, bind, Except.bind]
  | @notFound symbols read missing =>
    have unnamed : symbols.find? (·.name = table) = none := by simpa using missing
    simp only [locate, read, Except.mapError, bind, Except.bind, unnamed]
  | noSection read named nowhere =>
    simp only [locate, read, Except.mapError, bind, Except.bind, find?_named_iff.mpr named, nowhere]
  | unreadable read named placed unread =>
    simp only [locate, read, Except.mapError, bind, Except.bind, find?_named_iff.mpr named, placed,
      unread]
  | outside read named placed found outside =>
    rw [locate_of_found read named placed found, if_pos outside]

theorem locate_of_stands {symbols : List Symbol} {data : Bytes} {start : Nat}
    (h : Stands image table symbols data start) :
    locate image table =
      .ok (handlers (symbols.filter (·.isFunction)) (words (data.drop start))) := by
  cases h with
  | within read named placed found offset inside =>
    rw [locate_of_found read named placed found, offset, if_neg (by omega), Nat.add_sub_cancel_left]

theorem Stands.inside {symbols : List Symbol} {data : Bytes} {start : Nat}
    (h : Stands image table symbols data start) : start ≤ data.length := by
  cases h with
  | within read named placed found offset inside => exact inside

/-- A table is out of reach or it stands within a section. -/
theorem fails_or_stands (image : Image) (table : Name) :
    (∃ problem, Fails image table problem) ∨
      ∃ symbols data start, Stands image table symbols data start := by
  cases read : image.symbols with
  | error cause => exact .inl ⟨_, .symbols read⟩
  | ok symbols =>
    cases named : symbols.find? (·.name = table) with
    | none => exact .inl ⟨_, .notFound read (by simpa using named)⟩
    | some s =>
      rw [find?_named_iff] at named
      cases placed : s.inSection with
      | none => exact .inl ⟨_, .noSection read named placed⟩
      | some index =>
        cases found : image.sectionAt index with
        | error cause => exact .inl ⟨_, .unreadable read named placed found⟩
        | ok sect =>
          by_cases outside : s.value.toNat < sect.address.toNat ∨
              sect.address.toNat + sect.data.length < s.value.toNat
          · exact .inl ⟨_, .outside read named placed found outside⟩
          · exact .inr ⟨symbols, sect.data, s.value.toNat - sect.address.toNat,
              .within read named placed found (by omega) (by omega)⟩

theorem locate_eq_error_iff : locate image table = .error problem ↔ Fails image table problem := by
  refine ⟨fun failed => ?_, locate_of_fails⟩
  rcases fails_or_stands image table with ⟨other, fails⟩ | ⟨symbols, data, start, stands⟩
  · rw [locate_of_fails fails] at failed
    exact Except.error.inj failed ▸ fails
  · rw [locate_of_stands stands] at failed
    cases failed

/-- A vector table is read exactly and safely. Reading fails for one of five reasons, and then there is
one deferred warning about it and nothing else. Otherwise there is no warning; the table stands within
the data of its section, every slot behind the first can be read at its offset without going past that
data, and the names found are those that a used slot answers to, in strictly ascending order. -/
theorem locate_exact (image : Image) (table : Name) (source : Bytes) :
    (∀ problem, locate image table = .error problem ↔ Fails image table problem) ∧
    (∀ problem, locate image table = .error problem →
      warnings source (locate image table) = [⟨.deferred, source, 0, problem.text⟩]) ∧
    ∀ names, locate image table = .ok names →
      warnings source (locate image table) = [] ∧ names.Pairwise (· < ·) ∧
      ∃ symbols data start, Stands image table symbols data start ∧
        (∃ bytes, slice? data start data.length = some bytes ∧
          ∃ read, readSlots? bytes 4 = some read ∧
            ∀ i w, read[i]? = some w ↔ Slot data start (i + 1) w) ∧
        ∀ name, name ∈ names ↔ Handles symbols data start name := by
  refine ⟨fun _ => locate_eq_error_iff, fun problem failed => ?_, fun names located => ?_⟩
  · rw [failed]
    rfl
  · rcases fails_or_stands image table with ⟨problem, fails⟩ | ⟨symbols, data, start, stands⟩
    · rw [locate_of_fails fails] at located
      cases located
    · have found := locate_of_stands stands
      rw [located] at found ⊢
      obtain rfl := Except.ok.inj found
      exact ⟨rfl, Bytes.pairwise_sortedSet _, symbols, data, start, stands,
        readSlots?_behind stands.inside, fun name => mem_handlers_iff⟩

end StackBound.Vector
