import Hwi.Format.Multisig
import Hwi.Format.Spend

/-! What a signing call with a Trezor is to do: the type an input is sent with,
and where its signature is kept. -/

namespace Hwi

open Trezor

/-! ### Signature kinds -/

/-- A native Taproot output. -/
def PaysTaproot (spent : CTxOut) : Prop :=
  ∃ prog, WitnessProgram spent.scriptPubKey 1 prog ∧ prog.length = 32

/-- The type an input is to be sent with, for the output it spends. -/
structure RightType (spent : CTxOut) (redeemScript : Bytes) (scriptType : InputScriptType) : Prop where
  taproot : scriptType = .SPENDTAPROOT ↔ PaysTaproot spent
  witness : scriptType = .SPENDWITNESS ↔ ∃ prog, WitnessProgram spent.scriptPubKey 0 prog
  p2shWitness : scriptType = .SPENDP2SHWITNESS ↔
    isP2sh spent.scriptPubKey = true ∧ ∃ prog, WitnessProgram redeemScript 0 prog
  legacy : scriptType = .SPENDADDRESS ∨ scriptType = .SPENDMULTISIG →
    ∀ v prog, ¬WitnessProgram (spendScript spent redeemScript) v prog

/-- The witness programs there is a type for. -/
def TypedProgram (spent : CTxOut) (redeemScript : Bytes) : Prop :=
  ∀ v prog, WitnessProgram (spendScript spent redeemScript) v prog →
    v = 0 ∨ v = 1 ∧ isP2sh spent.scriptPubKey = false ∧ prog.length = 32

/-- A signature goes where its type belongs: a Taproot signature adds no partial
signature, any other leaves `tap_key_sig` as it is. -/
structure RightKind (scriptType : InputScriptType) (before after : PartiallySignedInput) : Prop where
  taproot : scriptType = .SPENDTAPROOT → after.partialSigs = before.partialSigs
  ecdsa : scriptType ≠ .SPENDTAPROOT → after.tapKeySig = before.tapKeySig

/-- The keys of the device without a partial signature, in the order of
`hd_keypaths`. -/
def unsignedKeys (masterFp : Bytes) (psbtIn : PartiallySignedInput) : List (Bytes × KeyOriginInfo) :=
  psbtIn.hdKeypaths.items.filter fun e =>
    e.2.fingerprint = masterFp && !psbtIn.partialSigs.contains e.1

/-- The input has no field of the other kind that draws a signature. -/
structure UncrossedFields (masterFp : Bytes) (schnorr : Prop) (sig : Bytes)
    (psbtIn : PartiallySignedInput) : Prop where
  taproot : schnorr → unsignedKeys masterFp psbtIn = []
  ecdsa : ¬schnorr → psbtIn.tapInternalKey = [] ∨ psbtIn.tapKeySig ≠ [] ∨ sig = []

namespace TrezorClient

/-! ### Ignored inputs -/

/-- A script the driver takes for a multisig script. -/
def TakenForMultisig (script : Bytes) : Prop :=
  37 ≤ script.length ∧ ∃ keys, MultisigShaped script keys

/-- The script has no witness program. -/
def NoProgram (script : Bytes) : Prop := ∀ v prog, ¬WitnessProgram script v prog

/-- An input with a script the driver does not sign: a bare multisig script, an
unknown script, or an unknown witness script. -/
inductive IgnoredScript (psbtIn : PartiallySignedInput) (spent : CTxOut) : Prop
  | bareMultisig (hprogram : NoProgram spent.scriptPubKey) (hp2sh : isP2sh spent.scriptPubKey = false)
      (hmultisig : TakenForMultisig spent.scriptPubKey) : IgnoredScript psbtIn spent
  | unknown (hprogram : NoProgram (spendScript spent psbtIn.redeemScript))
      (hp2pkh : isP2pkh (spendScript spent psbtIn.redeemScript) = false)
      (hmultisig : ¬TakenForMultisig (spendScript spent psbtIn.redeemScript)) :
      IgnoredScript psbtIn spent
  | unknownWitness (hp2wsh : isP2wsh (spendScript spent psbtIn.redeemScript) = true)
      (hmultisig : ¬TakenForMultisig psbtIn.witnessScript) : IgnoredScript psbtIn spent

/-- The input is signed as a Taproot input. -/
def SignsTaproot (psbtIn : PartiallySignedInput) (spent : CTxOut) : Prop :=
  ∃ prog, WitnessProgram (spendScript spent psbtIn.redeemScript) 1 prog

/-- The internal key is the device's. -/
def OwnInternalKey (masterFp : Bytes) (psbtIn : PartiallySignedInput) : Prop :=
  ∃ e ∈ psbtIn.tapBip32Paths.items, e.1 = psbtIn.tapInternalKey ∧ e.2.2.fingerprint = masterFp

/-- There is no key of the device to sign with: none of those in `hd_keypaths` is
without a signature, or the internal key is not one. -/
structure NoKeyLeft (masterFp : Bytes) (psbtIn : PartiallySignedInput) (spent : CTxOut) : Prop where
  taproot : SignsTaproot psbtIn spent → ¬OwnInternalKey masterFp psbtIn
  ecdsa : ¬SignsTaproot psbtIn spent → unsignedKeys masterFp psbtIn = []

/-- The UTXO and the scripts of an input are there, so that it is not skipped. -/
def Streamable (psbtIn : PartiallySignedInput) : Prop :=
  ∃ spent, spentOutput psbtIn = some spent ∧
    (isP2sh spent.scriptPubKey = true → psbtIn.redeemScript ≠ []) ∧
    (isP2wsh (spendScript spent psbtIn.redeemScript) = true → psbtIn.witnessScript ≠ [])

/-- An input that is streamed without being signed. -/
def SignatureIgnored (masterFp : Bytes) (psbtIn : PartiallySignedInput) : Prop :=
  Streamable psbtIn ∧ ∃ spent, spentOutput psbtIn = some spent ∧
    (IgnoredScript psbtIn spent ∨ NoKeyLeft masterFp psbtIn spent)

/-! ### Passes -/

/-- The input that is streamed at a place of a call with the output it spends,
and its signature with the input of the PSBT that gets it, before and after. -/
structure SignedAt (pass : Pass) (k : ℕ) (st : Streamed) (psbtIn : PartiallySignedInput)
    (spent : CTxOut) (sig : Bytes) (before after : PartiallySignedInput) : Prop where
  sent : pass.call.1.inputs[k]? = some st.txinputtype
  input : pass.psbt.inputs[st.inputNum]? = some psbtIn
  spent : spentOutput psbtIn = some spent
  returned : pass.call.2[k]? = some sig
  before : pass.psbt.inputs[k]? = some before
  after : pass.psbtAfter.inputs[k]? = some after

/-- Passes one after the other, from a first PSBT to a last one. -/
inductive Passes (masterFp : Bytes) (psbt : PSBT) : List Pass → PSBT → Prop
  | nil : Passes masterFp psbt [] psbt
  | snoc {passes : List Pass} {pass : Pass} (h : Passes masterFp psbt passes pass.psbt)
      (hfp : pass.masterFp = masterFp) : Passes masterFp psbt (passes ++ [pass]) pass.psbtAfter

/-! ### Signing every key -/

/-- An input that gets an ECDSA signature in a pass. -/
def Streamed.ecdsa (st : Streamed) : Prop :=
  st.ignored = false ∧ st.txinputtype.scriptType ≠ .SPENDTAPROOT

instance (st : Streamed) : Decidable st.ecdsa := inferInstanceAs (Decidable (_ ∧ _))

/-- The keys of the device that are to sign an input. -/
def keysToSign (pass : Pass) (st : Streamed) : ℕ :=
  if st.ecdsa then
    match pass.psbt.inputs[st.inputNum]? with
    | none => 0
    | some psbtIn => (unsignedKeys pass.masterFp psbtIn).length
  else 0

/-- An input before and after a call, as it is streamed in the first pass. -/
structure KeysSigned (masterFp : Bytes) (st : Streamed) (before after : PartiallySignedInput) :
    Prop where
  every : st.ecdsa → ∀ key origin, before.hdKeypaths.get? key = some origin →
    origin.fingerprint = masterFp → after.partialSigs.contains key = true
  kept : ∀ key sig, before.partialSigs.get? key = some sig → after.partialSigs.get? key = some sig
  unowned : (∀ e ∈ before.hdKeypaths.items, e.2.fingerprint ≠ masterFp) →
    after.partialSigs = before.partialSigs

/-- A partial signature that is new after a pass is the one the device returned
for the path of its key. -/
def Credited (pass : Pass) : Prop :=
  ∀ (k : ℕ) (st : Streamed) (before after : PartiallySignedInput) (key sig : Bytes),
    pass.streamed[k]? = some st → st.txinputtype.scriptType ≠ .SPENDTAPROOT →
    pass.psbt.inputs[k]? = some before → pass.psbtAfter.inputs[k]? = some after →
    before.partialSigs.get? key = none → after.partialSigs.get? key = some sig →
    ∃ origin returned, before.hdKeypaths.get? key = some origin ∧
      pass.call.1.inputs[k]? = some st.txinputtype ∧ st.txinputtype.addressN = origin.path ∧
      pass.call.2[k]? = some returned ∧ sig = returned ++ [0x01]

/-- The fingerprint `sign_tx` takes for that of the device. -/
def MasterFp (device : Device) (masterFp : Bytes) : Prop :=
  ∃ masterKey data, device.masterXpub = .ok masterKey ∧ Base58.decode masterKey = .ok data ∧
    masterFp = (data.drop 5).take 4

/-- A call that returns signs every key once. -/
structure EveryKeyOnce (device : Device) (psbt : PSBT) (first : Pass) (s : State) : Prop where
  masterFp : MasterFp device first.masterFp
  passes : Passes first.masterFp psbt s.passes s.psbt
  head : s.passes.head? = some first
  count : s.passes.length = first.streamed.foldl (fun n st => max n (keysToSign first st)) 1
  signed : ∀ (k : ℕ) (before : PartiallySignedInput), psbt.inputs[k]? = some before →
    ∃ st after, first.streamed[k]? = some st ∧ s.psbt.inputs[k]? = some after ∧
      KeysSigned first.masterFp st before after
  credited : ∀ pass ∈ s.passes, Credited pass

end TrezorClient

end Hwi
