import StackBound.Digest.Sha256

/-! Names for stored scans. A scan is found by the kind and the hash of the file it was made from, and
by the version of the stored form, so that an entry of an older form is never taken for a new one. -/
namespace StackBound
namespace Cache

def formatVersion : Nat := 1

/-- What the digest of a key covers. -/
def identity (kind contentHash : Bytes) : Bytes :=
  Bytes.join [0] [utf8 "v" ++ Bytes.ofNat formatVersion, kind, contentHash]

/-- What finds keys for scans, by the kind and the hash of the content. -/
structure Keyer where
  scanKey : (kind contentHash : Bytes) → Bytes

namespace Keyer

/-- Keys without a scope, for a store that one project has for itself. -/
def plain : Keyer where
  scanKey kind contentHash :=
    utf8 "scan:" ++ kind ++ utf8 ":" ++ Sha256.hex (identity kind contentHash)

def within (inner : Keyer) (scope : Bytes) : Keyer where
  scanKey kind contentHash := scope ++ inner.scanKey kind contentHash

end Keyer

def scanKey (scope kind contentHash : Bytes) : Bytes :=
  (Keyer.plain.within scope).scanKey kind contentHash

/-- The scope made of nested ones, the innermost first. -/
def nested (scopes : List Bytes) : Bytes := scopes.foldl (fun inner scope => scope ++ inner) []

end Cache
end StackBound
