import Hwi.Format.Signed

/-! What `has_signature` answers, and where that is whether a key of the fingerprint
has signed. -/

namespace Hwi

namespace PartiallySignedInput

variable {self : PartiallySignedInput} {fingerprint : Bytes}

theorem SignedRecordedLeaf.signedLeaf (h : self.SignedRecordedLeaf fingerprint) :
    self.SignedLeaf fingerprint := by
  obtain ⟨pubkey, leafHashes, leafHash, howns, -, hsig⟩ := h
  exact ⟨pubkey, leafHashes, leafHash, howns, hsig⟩

theorem any_hdKeypaths :
    (self.hdKeypaths.items.any fun (pubkey, origin) =>
      origin.fingerprint = fingerprint && self.partialSigs.contains pubkey) = true ↔
      self.SignedEcdsa fingerprint := by
  simp only [List.any_eq_true, Bool.and_eq_true, decide_eq_true_iff]
  constructor
  · rintro ⟨⟨pubkey, origin⟩, hmem, hfp, hsig⟩
    exact ⟨pubkey, origin, Dict.get?_eq_some_iff.2 hmem, hfp, hsig⟩
  · rintro ⟨pubkey, origin, hget, hfp, hsig⟩
    exact ⟨(pubkey, origin), Dict.get?_eq_some_iff.1 hget, hfp, hsig⟩

/-- The items of the taproot origins, as the keys of the fingerprint. -/
theorem any_tapBip32Paths (self : PartiallySignedInput) (fingerprint : Bytes)
    (p : Bytes → OrderedSet Bytes → Bool) :
    (self.tapBip32Paths.items.any fun (pubkey, leafHashes, origin) =>
      origin.fingerprint = fingerprint && p pubkey leafHashes) = true ↔
      ∃ pubkey leafHashes, self.Owns fingerprint pubkey leafHashes ∧ p pubkey leafHashes = true := by
  simp only [List.any_eq_true, Bool.and_eq_true, decide_eq_true_iff]
  constructor
  · rintro ⟨⟨pubkey, leafHashes, origin⟩, hmem, hfp, hp⟩
    exact ⟨pubkey, leafHashes, ⟨origin, Dict.get?_eq_some_iff.2 hmem, hfp⟩, hp⟩
  · rintro ⟨pubkey, leafHashes, ⟨origin, hget, hfp⟩, hp⟩
    exact ⟨(pubkey, leafHashes, origin), Dict.get?_eq_some_iff.1 hget, hfp, hp⟩

theorem hasSignature_iff : self.hasSignature fingerprint = true ↔ self.SignedEcdsa fingerprint ∨
    (self.OwnsLeafless fingerprint ∧ self.tapKeySig ≠ []) ∨ self.SignedRecordedLeaf fingerprint := by
  have htap := any_tapBip32Paths self fingerprint fun pubkey leafHashes =>
    leafHashes.elems.isEmpty && !self.tapKeySig.isEmpty ||
      leafHashes.elems.any fun leafHash => self.tapScriptSigs.contains (pubkey, leafHash)
  rw [hasSignature, Bool.or_eq_true, any_hdKeypaths, htap]
  apply or_congr_right
  simp only [Bool.or_eq_true, Bool.and_eq_true, List.isEmpty_iff, Bool.not_eq_true',
    List.isEmpty_eq_false_iff, List.any_eq_true]
  constructor
  · rintro ⟨pubkey, leafHashes, howns, ⟨hnil, hsig⟩ | ⟨leafHash, hmem, hsig⟩⟩
    · exact Or.inl ⟨⟨pubkey, leafHashes, howns, hnil⟩, hsig⟩
    · exact Or.inr ⟨pubkey, leafHashes, leafHash, howns, hmem, hsig⟩
  · rintro (⟨⟨pubkey, leafHashes, howns, hnil⟩, hsig⟩ |
      ⟨pubkey, leafHashes, leafHash, howns, hmem, hsig⟩)
    · exact ⟨pubkey, leafHashes, howns, Or.inl ⟨hnil, hsig⟩⟩
    · exact ⟨pubkey, leafHashes, howns, Or.inr ⟨leafHash, hmem, hsig⟩⟩

theorem signed_iff : self.Signed fingerprint ↔ self.SignedEcdsa fingerprint ∨
    (self.tapKeySig ≠ [] ∧ self.OwnsInternal fingerprint) ∨ self.SignedLeaf fingerprint := by
  constructor
  · intro h
    cases h with
    | ecdsa sig => exact Or.inl sig
    | keyPath sig internal => exact Or.inr (Or.inl ⟨sig, internal⟩)
    | leaf sig => exact Or.inr (Or.inr sig)
  · rintro (sig | ⟨sig, internal⟩ | sig)
    · exact .ecdsa sig
    · exact .keyPath sig internal
    · exact .leaf sig

/-- A signature is only reported where a key of the fingerprint is recorded. -/
theorem hasFingerprint_of_hasSignature (h : self.hasSignature fingerprint = true) :
    self.hasFingerprint fingerprint = true := by
  have htap {pubkey : Bytes} {leafHashes : OrderedSet Bytes}
      (howns : self.Owns fingerprint pubkey leafHashes) : self.hasFingerprint fingerprint = true := by
    obtain ⟨origin, hget, hfp⟩ := howns
    have hmem := List.mem_map_of_mem (f := Prod.snd) (Dict.get?_eq_some_iff.1 hget)
    exact Bool.or_eq_true_iff.2 (Or.inr (List.any_eq_true.2 ⟨_, hmem, decide_eq_true hfp⟩))
  rcases hasSignature_iff.1 h with
    ⟨pubkey, origin, hget, hfp, -⟩ | ⟨⟨_, _, howns, -⟩, -⟩ | ⟨_, _, _, howns, -⟩
  · have hmem := List.mem_map_of_mem (f := Prod.snd) (Dict.get?_eq_some_iff.1 hget)
    exact Bool.or_eq_true_iff.2 (Or.inl (List.any_eq_true.2 ⟨_, hmem, decide_eq_true hfp⟩))
  · exact htap howns
  · exact htap howns

/-- A wrong "signed": the key-path signature is another key's. -/
theorem Misread.of_reported (h : self.hasSignature fingerprint = true)
    (hsigned : ¬self.Signed fingerprint) : self.Misread fingerprint := by
  rw [signed_iff, not_or, not_or] at hsigned
  obtain ⟨hecdsa, hinternal, hleaf⟩ := hsigned
  rcases hasSignature_iff.1 h with sig | ⟨leafless, sig⟩ | sig
  · exact absurd sig hecdsa
  · exact .otherInternal hecdsa (fun recorded => hleaf recorded.signedLeaf) sig
      (fun internal => hinternal ⟨sig, internal⟩) leafless
  · exact absurd sig.signedLeaf hleaf

/-- A wrong "not signed": a signature of the internal key or for an unrecorded leaf is missed. -/
theorem Misread.of_missed (h : ¬self.hasSignature fingerprint = true)
    (hsigned : self.Signed fingerprint) : self.Misread fingerprint := by
  rw [hasSignature_iff, not_or, not_or] at h
  obtain ⟨hecdsa, hleafless, hrecorded⟩ := h
  cases hsigned with
  | ecdsa sig => exact absurd sig hecdsa
  | keyPath sig internal =>
    exact .internalInLeaf hecdsa hrecorded sig internal fun leafless => hleafless ⟨leafless, sig⟩
  | leaf sig =>
    exact .unrecordedLeaf hecdsa hrecorded sig fun hsig leafless => hleafless ⟨leafless, hsig⟩

section Same

variable {other : PartiallySignedInput}

theorem SameOwnSignatures.owns_iff (h : self.SameOwnSignatures fingerprint other) {pubkey : Bytes}
    {leafHashes : OrderedSet Bytes} :
    other.Owns fingerprint pubkey leafHashes ↔ self.Owns fingerprint pubkey leafHashes := by
  unfold Owns
  rw [h.tapBip32Paths]

theorem SameOwnSignatures.signedEcdsa (h : self.SameOwnSignatures fingerprint other)
    (sig : self.SignedEcdsa fingerprint) : other.SignedEcdsa fingerprint := by
  obtain ⟨pubkey, origin, hget, hfp, hsig⟩ := sig
  refine ⟨pubkey, origin, ?_, hfp, ?_⟩
  · rw [h.hdKeypaths, hget]
  · rw [h.ecdsa pubkey origin hget hfp, hsig]

theorem SameOwnSignatures.signedRecordedLeaf (h : self.SameOwnSignatures fingerprint other)
    (sig : self.SignedRecordedLeaf fingerprint) : other.SignedRecordedLeaf fingerprint := by
  obtain ⟨pubkey, leafHashes, leafHash, howns, hmem, hsig⟩ := sig
  refine ⟨pubkey, leafHashes, leafHash, h.owns_iff.2 howns, hmem, ?_⟩
  rw [h.leaf pubkey leafHashes leafHash howns, hsig]

/-- What is reported for a signature of the fingerprint does not hang on those of other keys. -/
theorem SameOwnSignatures.reported (h : self.SameOwnSignatures fingerprint other)
    (hsig : self.SignedEcdsa fingerprint ∨ (self.OwnsLeafless fingerprint ∧ self.tapKeySig ≠ [] ∧
      self.OwnsInternal fingerprint) ∨ self.SignedRecordedLeaf fingerprint) :
    other.hasSignature fingerprint = true := by
  rw [hasSignature_iff]
  rcases hsig with sig | ⟨⟨pubkey, leafHashes, howns, hnil⟩, sig, internal⟩ | sig
  · exact Or.inl (h.signedEcdsa sig)
  · refine Or.inr (Or.inl ⟨⟨pubkey, leafHashes, h.owns_iff.2 howns, hnil⟩, fun hnone => ?_⟩)
    exact sig ((h.keyPath internal).1 hnone)
  · exact Or.inr (Or.inr (h.signedRecordedLeaf sig))

/-- The map without a key-path signature of another key. -/
theorem sameOwnSignatures_clear (internal : ¬self.OwnsInternal fingerprint) :
    self.SameOwnSignatures fingerprint { self with tapKeySig := [] } where
  hdKeypaths := rfl
  tapBip32Paths := rfl
  tapInternalKey := rfl
  ecdsa _ _ _ _ := rfl
  keyPath h := absurd h internal
  leaf _ _ _ _ := rfl

end Same

theorem Misread.not_exact (h : self.Misread fingerprint) : ¬self.Exact fingerprint := by
  rintro ⟨hiff, hown⟩
  rw [hasSignature_iff, signed_iff] at hiff
  cases h with
  | otherInternal ecdsa recorded sig internal leafless =>
    have hreported := hown (hasSignature_iff.2 (Or.inr (Or.inl ⟨leafless, sig⟩))) _
      (sameOwnSignatures_clear internal)
    rcases hasSignature_iff.1 hreported with h | ⟨-, h⟩ | h
    · exact ecdsa h
    · exact h rfl
    · exact recorded h
  | internalInLeaf ecdsa recorded sig internal leafless =>
    rcases hiff.2 (Or.inr (Or.inl ⟨sig, internal⟩)) with h | ⟨h, -⟩ | h
    · exact ecdsa h
    · exact leafless h
    · exact recorded h
  | unrecordedLeaf ecdsa recorded leaf keyPath =>
    rcases hiff.2 (Or.inr (Or.inr leaf)) with h | ⟨h, sig⟩ | h
    · exact ecdsa h
    · exact keyPath sig h
    · exact recorded h

/-- The answer is exact on all maps but the misread ones. -/
theorem hasSignature_exact_iff (self : PartiallySignedInput) (fingerprint : Bytes) :
    self.Exact fingerprint ↔ ¬self.Misread fingerprint := by
  constructor
  · intro hexact h
    exact h.not_exact hexact
  · intro hread
    refine ⟨⟨fun h => ?_, fun hsigned => ?_⟩, fun h other hsame => hsame.reported ?_⟩
    · by_contra hsigned
      exact hread (.of_reported h hsigned)
    · by_contra h
      exact hread (.of_missed h hsigned)
    · rcases hasSignature_iff.1 h with sig | ⟨leafless, sig⟩ | sig
      · exact Or.inl sig
      · -- the key-path signature answers for the fingerprint: it is its own, or another signature is
        by_contra hown
        rw [not_or, not_or] at hown
        obtain ⟨hecdsa, hkeyPath, hrecorded⟩ := hown
        exact hread (.otherInternal hecdsa hrecorded sig
          (fun internal => hkeyPath ⟨leafless, sig, internal⟩) leafless)
      · exact Or.inr (Or.inr sig)

/-- The internal key has signed, and also occurs in a leaf. -/
def internalInLeaf : PartiallySignedInput where
  version := 2
  tapKeySig := List.replicate 64 3
  tapInternalKey := List.replicate 32 1
  tapBip32Paths :=
    Dict.set ∅ (List.replicate 32 1) (OrderedSet.add ∅ (List.replicate 32 2), ⟨[1, 2, 3, 4], []⟩)

/-- Its signature is not reported. -/
theorem hasSignature_internalInLeaf : internalInLeaf.hasSignature [1, 2, 3, 4] = false ∧
    ¬∀ (self : PartiallySignedInput) (fingerprint : Bytes), self.Exact fingerprint := by
  refine ⟨by decide, fun h => ?_⟩
  have hsigned : internalInLeaf.Signed [1, 2, 3, 4] :=
    .keyPath (by decide) ⟨by decide, OrderedSet.add ∅ (List.replicate 32 2), ⟨[1, 2, 3, 4], []⟩,
      by decide, rfl⟩
  exact absurd ((h _ _).1.2 hsigned) (by decide)

end PartiallySignedInput

end Hwi
