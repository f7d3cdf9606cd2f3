import Hwi.Spec.Signed

/-! Which keys of an input belong to a fingerprint, and which of them have signed. -/

namespace Hwi

namespace PartiallySignedInput

variable (self : PartiallySignedInput) (fingerprint : Bytes)

/-- An x-only key whose recorded origin has the fingerprint, with its leaf hashes. -/
def Owns (pubkey : Bytes) (leafHashes : OrderedSet Bytes) : Prop :=
  ∃ origin, self.tapBip32Paths.get? pubkey = some (leafHashes, origin) ∧
    origin.fingerprint = fingerprint

/-- The internal key belongs to the fingerprint, whatever leaves it also occurs in. -/
def OwnsInternal : Prop :=
  self.tapInternalKey ≠ [] ∧ ∃ leafHashes, self.Owns fingerprint self.tapInternalKey leafHashes

/-- A key of the fingerprint is recorded for no leaf. -/
def OwnsLeafless : Prop :=
  ∃ pubkey leafHashes, self.Owns fingerprint pubkey leafHashes ∧ leafHashes.elems = []

/-- A public key of the fingerprint has an ECDSA signature. -/
def SignedEcdsa : Prop :=
  ∃ pubkey origin, self.hdKeypaths.get? pubkey = some origin ∧ origin.fingerprint = fingerprint ∧
    self.partialSigs.contains pubkey = true

/-- An x-only key of the fingerprint has a signature for some leaf. -/
def SignedLeaf : Prop :=
  ∃ pubkey leafHashes leafHash, self.Owns fingerprint pubkey leafHashes ∧
    self.tapScriptSigs.contains (pubkey, leafHash) = true

/-- A signature for one of the leaves recorded with the key. -/
def SignedRecordedLeaf : Prop :=
  ∃ pubkey leafHashes leafHash, self.Owns fingerprint pubkey leafHashes ∧ leafHash ∈ leafHashes ∧
    self.tapScriptSigs.contains (pubkey, leafHash) = true

/-- Some key of the fingerprint has signed. -/
inductive Signed : Prop
  | ecdsa (sig : self.SignedEcdsa fingerprint)
  | keyPath (sig : self.tapKeySig ≠ []) (internal : self.OwnsInternal fingerprint)
  | leaf (sig : self.SignedLeaf fingerprint)

/-- Another map records the same keys, and the keys of the fingerprint have the same signatures in
it. What other keys have signed may differ. -/
structure SameOwnSignatures (i : PartiallySignedInput) (fp : Bytes) (other : PartiallySignedInput) :
    Prop where
  hdKeypaths : other.hdKeypaths = i.hdKeypaths
  tapBip32Paths : other.tapBip32Paths = i.tapBip32Paths
  tapInternalKey : other.tapInternalKey = i.tapInternalKey
  ecdsa : ∀ pubkey origin, i.hdKeypaths.get? pubkey = some origin → origin.fingerprint = fp →
    other.partialSigs.contains pubkey = i.partialSigs.contains pubkey
  keyPath : i.OwnsInternal fp → (other.tapKeySig = [] ↔ i.tapKeySig = [])
  leaf : ∀ pubkey leafHashes leafHash, i.Owns fp pubkey leafHashes →
    other.tapScriptSigs.contains (pubkey, leafHash) = i.tapScriptSigs.contains (pubkey, leafHash)

/-- The answer is whether a key of the fingerprint has signed, and it is not "signed" because of
what other keys have signed. -/
def Exact (self : PartiallySignedInput) (fingerprint : Bytes) : Prop :=
  (self.hasSignature fingerprint = true ↔ self.Signed fingerprint) ∧
    (self.hasSignature fingerprint = true → ∀ other, self.SameOwnSignatures fingerprint other →
      other.hasSignature fingerprint = true)

/-- The input maps whose key-path signature is taken for another key's, or whose leaf
signature is looked up under the wrong leaves, with no other signature to answer for it. -/
inductive Misread : Prop
  /-- Another key is the internal key; one of the fingerprint is recorded for no leaf. -/
  | otherInternal (ecdsa : ¬self.SignedEcdsa fingerprint)
      (recorded : ¬self.SignedRecordedLeaf fingerprint) (sig : self.tapKeySig ≠ [])
      (internal : ¬self.OwnsInternal fingerprint) (leafless : self.OwnsLeafless fingerprint)
  /-- The internal key has signed, and every key of the fingerprint occurs in leaves. -/
  | internalInLeaf (ecdsa : ¬self.SignedEcdsa fingerprint)
      (recorded : ¬self.SignedRecordedLeaf fingerprint) (sig : self.tapKeySig ≠ [])
      (internal : self.OwnsInternal fingerprint) (leafless : ¬self.OwnsLeafless fingerprint)
  /-- The only leaf signature is for a leaf that is not recorded with the key. -/
  | unrecordedLeaf (ecdsa : ¬self.SignedEcdsa fingerprint)
      (recorded : ¬self.SignedRecordedLeaf fingerprint) (leaf : self.SignedLeaf fingerprint)
      (keyPath : self.tapKeySig ≠ [] → ¬self.OwnsLeafless fingerprint)

end PartiallySignedInput

end Hwi
