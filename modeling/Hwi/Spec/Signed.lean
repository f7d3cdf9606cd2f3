import Hwi.Spec.PsbtInput

/-! `has_fingerprint` and `has_signature` of `psbt.py`: whether a device has a key
in an input, and whether it has signed there. -/

namespace Hwi

namespace PartiallySignedInput

def hasFingerprint (self : PartiallySignedInput) (fingerprint : Bytes) : Bool :=
  self.hdKeypaths.values.any (fun origin => origin.fingerprint = fingerprint) ||
    self.tapBip32Paths.values.any fun (_, origin) => origin.fingerprint = fingerprint

def hasSignature (self : PartiallySignedInput) (fingerprint : Bytes) : Bool :=
  self.hdKeypaths.items.any (fun (pubkey, origin) =>
    origin.fingerprint = fingerprint && self.partialSigs.contains pubkey) ||
  self.tapBip32Paths.items.any fun (pubkey, leafHashes, origin) =>
    origin.fingerprint = fingerprint &&
      (leafHashes.elems.isEmpty && !self.tapKeySig.isEmpty ||
        leafHashes.elems.any fun leafHash => self.tapScriptSigs.contains (pubkey, leafHash))

end PartiallySignedInput

end Hwi
