import Hwi.Spec.Bitbox02Sign

/-! What a signing request of the BitBox02 says about the PSBT it is made for. -/

namespace Hwi

namespace Bitbox02

/-- The paths of a signing request with one third element. -/
def SignRequest.SharesAccount (sign : SignRequest) (account : ℤ) : Prop :=
  (∀ entry ∈ sign.inputs, entry.keypath[2]? = some account) ∧
    ∀ keypath value index, .internal keypath value index ∈ sign.outputs →
      keypath[2]? = some account

/-- Nothing has been sent to be signed. -/
def Unsigned (s : Session) : Prop := ∀ sign, .btcSign sign ∉ s.requests

/-- A session after some requests that are not for signatures. -/
def Asks (s s' : Session) : Prop :=
  ∃ requests, s' = { s with requests := s.requests ++ requests } ∧
    ∀ sign, .btcSign sign ∉ requests

end Bitbox02

namespace Bitbox02Client

open Bitbox02

section Sending

variable (R : Runtime) (chain : Chain) (device : Device)
  (policyScriptConfig : Option BTCScriptConfigWithKeypath) (masterFp : Bytes) (psbt : PSBT)

/-- A call that computed a configuration, before some requests had been made. -/
def Computed (config : BTCScriptConfigWithKeypath) (output : CTxOut) (keypath : List ℤ)
    (redeemScript witnessScript : Bytes) (requests : List Request) : Prop :=
  ∃ s s', (scriptConfigFromUtxo R chain device policyScriptConfig psbt.xpub output keypath
    redeemScript witnessScript).run s = .ok config s' ∧ s.requests <+: s'.requests ∧
      s'.requests <+: requests

/-- An input and its entry in the request. -/
def InputSent (s : Session) (x : PartiallySignedInput × ℕ) (entry : BTCInput) : Prop :=
  ∃ found config, findInput x.2 masterFp x.1 = .ok found ∧ s.bip44Account = some found.account ∧
    Computed R chain device policyScriptConfig psbt config found.utxo found.keypath
      x.1.redeemScript x.1.witnessScript s.requests ∧
    s.scriptConfigs[entry.scriptConfigIndex]? = some config ∧
    entry = inputEntry x.1 found entry.scriptConfigIndex

/-- An output and its entry in the request. -/
def OutputSent (s : Session) (x : PartiallySignedOutput × ℕ) (output : BTCOutput) : Prop :=
  (∃ txOut keypath config index, findOutput masterFp x.1 = .ok (txOut, some keypath) ∧
    Computed R chain device policyScriptConfig psbt config txOut keypath x.1.redeemScript
      x.1.witnessScript s.requests ∧
    s.scriptConfigs[index]? = some config ∧ output = .internal keypath txOut.nValue index) ∨
  ∃ txOut, findOutput masterFp x.1 = .ok (txOut, none) ∧ externalOutput x.2 txOut = .ok output

/-- The key that was found for an input. -/
def PubkeyFound (x : PartiallySignedInput × ℕ) (pubkey : Bytes) : Prop :=
  ∃ found, findInput x.2 masterFp x.1 = .ok found ∧ pubkey = found.foundPubkey

/-- What is gathered from some inputs and outputs. -/
structure Gathered (ins : List (PartiallySignedInput × ℕ)) (outs : List (PartiallySignedOutput × ℕ))
    (s : Session) : Prop where
  unchanged : s.psbt = psbt
  unsigned : Unsigned s
  nodup : s.scriptConfigs.Nodup
  inputs : List.Forall₂ (InputSent R chain device policyScriptConfig masterFp psbt s) ins s.inputs
  pubkeys : List.Forall₂ (PubkeyFound masterFp) ins s.foundPubkeys
  outputs : List.Forall₂ (OutputSent R chain device policyScriptConfig masterFp psbt s) outs s.outputs
  account : ins = [] → s.bip44Account = none

/-- A request for signatures made from a session in which the whole PSBT had been
gathered. -/
structure Sent (s : Session) (sign : SignRequest) : Prop where
  gathered : Gathered R chain device policyScriptConfig masterFp psbt psbt.inputs.zipIdx
    psbt.outputs.zipIdx s
  account : s.bip44Account ≠ none
  scriptConfigs : sign.scriptConfigs = s.scriptConfigs
  inputs : sign.inputs = s.inputs
  outputs : sign.outputs = s.outputs

/-- The configurations of a request are the ones of its inputs and of its outputs that
are treated as change, each once. -/
structure Refers (requests : List Request) (sign : SignRequest) : Prop where
  nodup : sign.scriptConfigs.Nodup
  inputs : ∀ (i : ℕ) psbtIn, psbt.inputs[i]? = some psbtIn → ∃ found entry config,
    findInput i masterFp psbtIn = .ok found ∧ sign.inputs[i]? = some entry ∧
      entry.keypath = found.keypath ∧
      sign.scriptConfigs[entry.scriptConfigIndex]? = some config ∧
      Computed R chain device policyScriptConfig psbt config found.utxo found.keypath
        psbtIn.redeemScript psbtIn.witnessScript requests
  change : ∀ (i : ℕ) psbtOut txOut keypath, psbt.outputs[i]? = some psbtOut →
    findOutput masterFp psbtOut = .ok (txOut, some keypath) → ∃ index config,
      sign.outputs[i]? = some (BTCOutput.internal keypath txOut.nValue index) ∧
        sign.scriptConfigs[index]? = some config ∧
        Computed R chain device policyScriptConfig psbt config txOut keypath psbtOut.redeemScript
          psbtOut.witnessScript requests
  inputs_length : sign.inputs.length = psbt.inputs.length
  outputs_length : sign.outputs.length = psbt.outputs.length

end Sending

/-- An input with a signature in it: under the key, or as the key path signature of a
Taproot input. -/
def StoredIn (sig pubkey : Bytes) (psbtIn psbtIn' : PartiallySignedInput) : Prop :=
  (psbtIn.tapInternalKey ≠ [] ∧ psbtIn' = { psbtIn with tapKeySig := sig }) ∨
    psbtIn.tapInternalKey = [] ∧ ∃ der, serSigDer (sig.take 32) ((sig.take 64).drop 32) = .ok der ∧
      psbtIn' = { psbtIn with partialSigs := psbtIn.partialSigs.set pubkey der }

/-- Each input has the signature of its index and no other. -/
structure Stores (masterFp : Bytes) (psbt : PSBT) (sigs : List (ℕ × Bytes)) (signed : PSBT) : Prop where
  unchanged : signed = { psbt with inputs := signed.inputs }
  length : signed.inputs.length = psbt.inputs.length
  stored : ∀ (i : ℕ) psbtIn found, psbt.inputs[i]? = some psbtIn →
    findInput i masterFp psbtIn = .ok found → ∀ n sig, sigs[i]? = some (n, sig) → ∃ psbtIn', signed.inputs[i]? = some psbtIn' ∧
      StoredIn sig found.foundPubkey psbtIn psbtIn'
  unsigned : ∀ (i : ℕ), sigs[i]? = none → signed.inputs[i]? = psbt.inputs[i]?

section Call

variable (R : Runtime) (chain : Chain) (device : Device) (registered : List RegisteredDescriptor)
  (psbt : PSBT)

/-- The policy and the fingerprint that a call for a PSBT goes on with. -/
def SignsWith (policyScriptConfig : Option BTCScriptConfigWithKeypath) (masterFp : Bytes) : Prop :=
  ∃ s, (findPolicy R chain device registered).run { psbt } = .ok policyScriptConfig s ∧
    device s.requests .rootFingerprint = .ok masterFp

end Call

end Bitbox02Client

end Hwi
