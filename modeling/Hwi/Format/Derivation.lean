import Hwi.Format.Input

/-! The values of derivation records: what they have to be, and what it means that
one is decoded exactly. -/

namespace Hwi

/-- A compact size and the bytes after it. -/
inductive Counted : Bytes → ℕ → Bytes → Prop
  | one {n : ℕ} {s : Bytes} (h : n < 253) : Counted (toLE 1 n ++ s) n s
  | two {n : ℕ} {s : Bytes} (h : n < 2 ^ 16) : Counted (253 :: toLE 2 n ++ s) n s
  | four {n : ℕ} {s : Bytes} (h : n < 2 ^ 32) : Counted (254 :: toLE 4 n ++ s) n s
  | eight {n : ℕ} {s : Bytes} (h : n < 2 ^ 64) : Counted (255 :: toLE 8 n ++ s) n s

/-- A fingerprint of four bytes and whole indices of four bytes. -/
structure OriginValue (v : Bytes) (origin : KeyOriginInfo) : Prop where
  fingerprint : origin.fingerprint.length = 4
  path : ∀ i ∈ origin.path, 0 ≤ i ∧ i < 2 ^ 32
  value : v = origin.fingerprint ++ pathBytes origin.path

/-- A derivation record is accepted only in its form, and is written back as it was. -/
def ExactOrigin (v : Bytes) : Prop :=
  ∀ origin, KeyOriginInfo.deserialize v = .ok origin → OriginValue v origin ∧ origin.serialize = .ok v

/-- A count in its shortest form, as many hashes of 32 bytes, and an origin. -/
structure TapPathValue (v : Bytes) (hashes : List Bytes) (packed : Bytes) (origin : KeyOriginInfo) :
    Prop where
  size : hashes.length < 2 ^ 64
  hashLength : ∀ h ∈ hashes, h.length = 32
  origin : OriginValue packed origin
  value : v = serCompactSize hashes.length ++ (hashes.flatten ++ packed)

/-- A taproot derivation record is accepted only in its form, no more hashes are read
than it has room for, and it is written back with each hash once. -/
def ExactTapPath (R : Runtime) (v : Bytes) : Prop :=
  (∀ n s, deserCompactSize v = .ok n s → n ≤ v.length / 32) ∧
  ∀ leafHashes origin, tapBip32Value v = .ok (leafHashes, origin) →
    ∃ hashes packed, TapPathValue v hashes packed origin ∧
      ∃ hashes' : List Bytes, serTapBip32Value R leafHashes origin =
          .ok (serCompactSize hashes'.length ++ (hashes'.flatten ++ packed)) ∧
        hashes'.Nodup ∧ ∀ h, h ∈ hashes' ↔ h ∈ hashes

/-- A value with four bytes behind the hashes it announces, unless its count is cut
off; its count is the shortest form, unless the indices are cut off. -/
def TapPathRoom (v : Bytes) : Prop :=
  ∀ n s, Counted v n s → 32 * n + 4 ≤ s.length ∧ (s.length % 4 = 0 → v = serCompactSize n ++ s)

end Hwi
