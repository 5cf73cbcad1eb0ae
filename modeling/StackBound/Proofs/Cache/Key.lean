import Mathlib.Data.List.Induction
import StackBound.Cache.Key
import StackBound.Proofs.Text.Run

/-! What the key of a scan tells. A hash is sixty-four digits, so a key ends in the digest of its
identity; and in an identity a zero byte ends the kind. Where hashes do not collide, a key names one kind
of file with one content in one scope, whatever the scopes and the kinds look like. -/
namespace StackBound

/-- A hexadecimal digit, a small letter from `a` to `f` or a decimal one. -/
def Bytes.IsHexDigit (b : UInt8) : Prop := 48 ≤ b ∧ b ≤ 57 ∨ 97 ≤ b ∧ b ≤ 102

theorem Bytes.isHexDigit_hexDigit {n : Nat} (small : n < 16) : IsHexDigit (hexDigit n) := by
  unfold IsHexDigit
  revert n
  decide

@[simp] theorem Bytes.length_hex (width n : Nat) : (hex width n).length = width := by
  simp [hex]

theorem Bytes.isHexDigit_of_mem_hex {width n : Nat} {b : UInt8} (member : b ∈ hex width n) :
    IsHexDigit b := by
  obtain ⟨i, -, rfl⟩ := List.mem_map.mp member
  exact isHexDigit_hexDigit (Nat.mod_lt _ (by decide))

@[simp] theorem Sha256.length_hex (message : Bytes) : (hex message).length = 64 := by
  simp [hex, State.words]

theorem Sha256.isHexDigit_of_mem_hex {message : Bytes} {b : UInt8} (member : b ∈ hex message) :
    Bytes.IsHexDigit b := by
  obtain ⟨word, -, digit⟩ := List.mem_flatMap.mp member
  exact Bytes.isHexDigit_of_mem_hex digit

namespace Cache

theorem identity_eq (kind contentHash : Bytes) :
    identity kind contentHash =
      utf8 "v" ++ Bytes.ofNat formatVersion ++ 0 :: (kind ++ 0 :: contentHash) := by
  simp [identity, Bytes.join, List.intercalate]

/-- An identity tells the kind and the hash that it is made of, as a zero byte ends the kind. -/
theorem identity_inj {kind kind' hash hash' : Bytes} (free : 0 ∉ kind) (free' : 0 ∉ kind')
    (same : identity kind hash = identity kind' hash') : kind = kind' ∧ hash = hash' := by
  rw [identity_eq, identity_eq, List.append_right_inj, List.cons.injEq] at same
  have kinds : kind = kind' := by
    rw [← (Bytes.run_of_not_mem free hash).takeWhile_eq.1, same.2,
      (Bytes.run_of_not_mem free' hash').takeWhile_eq.1]
  subst kinds
  exact ⟨rfl, (List.cons.inj (List.append_cancel_left same.2)).2⟩

theorem scanKey_eq (scope kind hash : Bytes) :
    scanKey scope kind hash =
      scope ++ utf8 "scan:" ++ kind ++ utf8 ":" ++ Sha256.hex (identity kind hash) := by
  simp only [scanKey, Keyer.within, Keyer.plain, List.append_assoc]

/-- A key falls into what stands before its digest and the digest, as that has a fixed length. -/
theorem scanKey_eq_iff {scope scope' kind kind' hash hash' : Bytes} :
    scanKey scope kind hash = scanKey scope' kind' hash' ↔
      scope ++ utf8 "scan:" ++ kind = scope' ++ utf8 "scan:" ++ kind' ∧
        Sha256.hex (identity kind hash) = Sha256.hex (identity kind' hash') := by
  rw [scanKey_eq, scanKey_eq]
  constructor
  · intro same
    obtain ⟨before, digests⟩ := List.append_inj' same (by simp)
    exact ⟨List.append_cancel_right before, digests⟩
  · rintro ⟨before, digests⟩
    rw [before, digests]

/-- Whatever their scopes, equal keys end in equal digests. -/
theorem digest_of_scanKey {scope scope' kind kind' hash hash' : Bytes}
    (same : scanKey scope kind hash = scanKey scope' kind' hash') :
    Sha256.hex (identity kind hash) = Sha256.hex (identity kind' hash') :=
  (scanKey_eq_iff.mp same).2

namespace Keyer

theorem within_within (inner : Keyer) (scope outer : Bytes) :
    (inner.within scope).within outer = inner.within (outer ++ scope) := by
  simp only [within, List.append_assoc]

end Keyer

theorem nested_concat (scopes : List Bytes) (outer : Bytes) :
    nested (scopes ++ [outer]) = outer ++ nested scopes := by
  rw [nested, List.foldl_append]
  rfl

/-- The innermost of nested scopes is the last in a key. -/
theorem nested_eq (scopes : List Bytes) : nested scopes = scopes.reverse.flatten := by
  induction scopes using List.reverseRecOn with
  | nil => rfl
  | append_singleton scopes outer ih => simp [nested_concat, ih]

theorem Keyer.foldl_within (inner : Keyer) (scopes : List Bytes) :
    scopes.foldl within inner = inner.within (nested scopes) := by
  induction scopes using List.reverseRecOn with
  | nil => rfl
  | append_singleton scopes outer ih =>
    rw [List.foldl_append, ih, List.foldl_cons, List.foldl_nil, within_within, nested_concat]

/-- Keys collide only where hashes do. Two keys of kinds without zero bytes are the same exactly if scope,
kind and hash of the content are, or if what stands before the digests is the same and the digests are,
of identities that differ. A digest has sixty-four hexadecimal digits. Keyers nested in any number are one
keyer with all their scopes, the outermost first. -/
theorem keys_collide_iff :
    (∀ scope scope' kind kind' hash hash' : Bytes, 0 ∉ kind → 0 ∉ kind' →
      ((Keyer.plain.within scope).scanKey kind hash =
          (Keyer.plain.within scope').scanKey kind' hash' ↔
        scope = scope' ∧ kind = kind' ∧ hash = hash' ∨
        identity kind hash ≠ identity kind' hash' ∧
          Sha256.hex (identity kind hash) = Sha256.hex (identity kind' hash') ∧
          scope ++ utf8 "scan:" ++ kind = scope' ++ utf8 "scan:" ++ kind')) ∧
    (∀ message, (Sha256.hex message).length = 64 ∧
      ∀ b ∈ Sha256.hex message, Bytes.IsHexDigit b) ∧
    ∀ (inner : Keyer) (scopes : List Bytes),
      scopes.foldl Keyer.within inner = inner.within scopes.reverse.flatten := by
  refine ⟨fun scope scope' kind kind' hash hash' free free' => ?_,
    fun message => ⟨Sha256.length_hex message, fun b => Sha256.isHexDigit_of_mem_hex⟩,
    fun inner scopes => nested_eq scopes ▸ inner.foldl_within scopes⟩
  apply scanKey_eq_iff.trans
  constructor
  · rintro ⟨before, digests⟩
    by_cases same : identity kind hash = identity kind' hash'
    · obtain ⟨rfl, rfl⟩ := identity_inj free free' same
      rw [List.append_assoc, List.append_assoc] at before
      exact .inl ⟨List.append_cancel_right before, rfl, rfl⟩
    · exact .inr ⟨same, digests, before⟩
  · rintro (⟨rfl, rfl, rfl⟩ | ⟨-, digests, before⟩)
    · exact ⟨rfl, rfl⟩
    · exact ⟨before, digests⟩

/-- A scope that looks like the start of a key makes two keys the same up to their digests, which tell
them apart. -/
theorem keys_collide_iff_lookalike :
    let kind := utf8 "su"
    let kind' := utf8 "su:scan:su"
    let hash := utf8 "0"
    0 ∉ kind ∧ 0 ∉ kind' ∧
      utf8 "scan:su:" ++ utf8 "scan:" ++ kind = [] ++ utf8 "scan:" ++ kind' ∧
      (Keyer.plain.within (utf8 "scan:su:")).scanKey kind hash ≠
        (Keyer.plain.within []).scanKey kind' hash := by
  intro kind kind' hash
  have free : 0 ∉ kind := by decide
  have free' : 0 ∉ kind' := by decide
  have apart : Sha256.hex (identity kind hash) ≠ Sha256.hex (identity kind' hash) := by decide +kernel
  refine ⟨free, free', rfl, fun same => ?_⟩
  rcases (keys_collide_iff.1 _ _ _ _ _ _ free free').mp same with ⟨scopes, -⟩ | ⟨-, digests, -⟩
  · exact absurd scopes (by decide)
  · exact apart digests

end Cache
end StackBound
