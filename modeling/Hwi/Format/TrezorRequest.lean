import Hwi.Format.Trezor
import Hwi.Proofs.ExtendedKey
import Hwi.Proofs.UnsignedTx

/-! For which PSBTs a Trezor is asked for signatures, and which ones end the call
before with an exception that is not reported. -/

namespace Hwi

open Trezor

/-- An exception `sign_tx` raises as an `HWWError`: one already, or a `ValueError`
that its decorator turns into one. -/
def Rejected (e : Exc) : Prop := e.isHWWError = true ∨ e.isValueError = true

namespace TrezorClient

/-! ### Multisig scripts -/

/-- A global xpub that ends inside its fields. -/
structure XpubCut (xpub : Bytes) : Prop where
  version : xpub.take 4 ∈ ExtendedKey.versions
  length : xpub.length < 13

/-- The xpubs up to the first that a derivation starts at are extended keys. -/
def XpubsRead (derivation : KeyOriginInfo) : List (Bytes × KeyOriginInfo) → Prop :=
  UpTo (fun e => StartsAt derivation e.2) fun e => ExtendedKey.Readable e.1

/-- One that is cut off comes first. -/
def XpubsCut (derivation : KeyOriginInfo) : List (Bytes × KeyOriginInfo) → Prop :=
  FirstBad (fun e => ExtendedKey.Readable e.1 ∧ ¬StartsAt derivation e.2) fun e => XpubCut e.1

section

variable (xpub hdKeypaths : Dict Bytes KeyOriginInfo)

def KeyRead (key : Bytes) : Prop :=
  ∀ derivation, hdKeypaths.get? key = some derivation → XpubsRead derivation xpub.items

def KeyCut (key : Bytes) : Prop :=
  ∃ derivation, hdKeypaths.get? key = some derivation ∧ XpubsCut derivation xpub.items

/-- A script the driver gets to the end of, with the xpubs of its keys. -/
structure ScriptRead (script : Bytes) : Prop where
  whole : 37 ≤ script.length → ¬MultisigCut script
  keys : 37 ≤ script.length → ∀ keys, MultisigShaped script keys →
    ∀ key ∈ keys, KeyRead xpub hdKeypaths key

/-- A script that is cut off, or has a key of which an xpub is. -/
inductive ScriptCut (script : Bytes) : Prop
  | script (hlen : 37 ≤ script.length) (hcut : MultisigCut script) : ScriptCut script
  | key {keys : List Bytes} (hlen : 37 ≤ script.length) (hkeys : MultisigShaped script keys)
      (hcut : FirstBad (KeyRead xpub hdKeypaths) (KeyCut xpub hdKeypaths) keys) : ScriptCut script

end

/-! ### Inputs -/

/-- The input says which output it spends, and its transaction has that output. -/
structure Located (psbtIn : PartiallySignedInput) : Prop where
  prevOut : psbtIn.prevOut ≠ none
  sequence : psbtIn.sequence ≠ none
  hash : ∀ prev, psbtIn.nonWitnessUtxo = some prev → prev.hash = some psbtIn.prevTxid
  index : ∀ prev n, psbtIn.nonWitnessUtxo = some prev → psbtIn.prevOut = some n → n < prev.vout.length

/-- The input is streamed, spending this output. -/
structure Streams (psbtIn : PartiallySignedInput) (spent : CTxOut) : Prop where
  located : Located psbtIn
  streamable : Streamable psbtIn
  spent : spentOutput psbtIn = some spent

/-- One of the keys is the device's. -/
structure OwnKey (masterFp : Bytes) (psbtIn : PartiallySignedInput) (spent : CTxOut) : Prop where
  taproot : SignsTaproot psbtIn spent → OwnInternalKey masterFp psbtIn
  ecdsa : ¬SignsTaproot psbtIn spent → ∃ e ∈ psbtIn.hdKeypaths.items, e.2.fingerprint = masterFp

/-- An input with a key of the device to sign with, or one it can leave to others. -/
inductive Handled (external : Bool) (masterFp : Bytes) (psbtIn : PartiallySignedInput)
    (spent : CTxOut) : Prop
  | own (hscript : ¬IgnoredScript psbtIn spent) (hkey : OwnKey masterFp psbtIn spent) :
      Handled external masterFp psbtIn spent
  | ignored (hexternal : external = true) (hscript : IgnoredScript psbtIn spent) :
      Handled external masterFp psbtIn spent
  | foreign (hexternal : external = true) (hkey : ¬OwnKey masterFp psbtIn spent)
      (hsig : SignsTaproot psbtIn spent → psbtIn.tapKeySig = []) :
      Handled external masterFp psbtIn spent

section

variable (external : Bool) (masterFp : Bytes) (xpub : Dict Bytes KeyOriginInfo)

/-- The loop over the inputs gets past the input. -/
structure InputPasses (psbtIn : PartiallySignedInput) : Prop where
  located : Located psbtIn
  script : ∀ spent, Streams psbtIn spent →
    ScriptRead xpub psbtIn.hdKeypaths (scriptCode psbtIn spent)
  handled : ∀ spent, Streams psbtIn spent → Handled external masterFp psbtIn spent

/-- The input ends the loop with an exception that is not reported: it has not all
its fields, its transaction has not its output, its script or an xpub is cut off, or
it is a Taproot input that is signed though its internal key is not the device's. -/
inductive InputFault (psbtIn : PartiallySignedInput) : Prop
  | unset (h : psbtIn.prevOut = none ∨ psbtIn.sequence = none) : InputFault psbtIn
  | index {prev : CTransaction} {n : ℕ} (hseq : psbtIn.sequence ≠ none)
      (hprev : psbtIn.nonWitnessUtxo = some prev) (hout : psbtIn.prevOut = some n)
      (hhash : prev.hash = some psbtIn.prevTxid) (hindex : prev.vout.length ≤ n) : InputFault psbtIn
  | script {spent : CTxOut} (hstreams : Streams psbtIn spent)
      (hcut : ScriptCut xpub psbtIn.hdKeypaths (scriptCode psbtIn spent)) : InputFault psbtIn
  | signed {spent : CTxOut} (hstreams : Streams psbtIn spent)
      (hscript : ScriptRead xpub psbtIn.hdKeypaths (scriptCode psbtIn spent))
      (htaproot : SignsTaproot psbtIn spent) (hkey : ¬OwnInternalKey masterFp psbtIn)
      (hsig : psbtIn.tapKeySig ≠ []) : InputFault psbtIn

end

/-! ### Outputs -/

/-- A script that is neither an address nor OP_RETURN. -/
structure UnknownScript (script : Bytes) : Prop where
  witness : NoProgram script
  p2pkh : isP2pkh script = false
  p2sh : isP2sh script = false
  opReturn : script.head? ≠ some 0x6a

/-- The script in which an output names its keys. -/
def outputScript (psbtOut : PartiallySignedOutput) : Bytes :=
  if psbtOut.witnessScript ≠ [] then psbtOut.witnessScript else psbtOut.redeemScript

section

variable (xpub : Dict Bytes KeyOriginInfo)

/-- The loop over the outputs gets past the output. -/
structure OutputPasses (psbtOut : PartiallySignedOutput) : Prop where
  amount : psbtOut.amount ≠ none
  script : psbtOut.script ≠ []
  known : ¬UnknownScript psbtOut.script
  read : ScriptRead xpub psbtOut.hdKeypaths (outputScript psbtOut)

/-- The output ends the loop with an exception that is not reported. -/
inductive OutputFault (psbtOut : PartiallySignedOutput) : Prop
  | unset (h : psbtOut.amount = none ∨ psbtOut.script = []) : OutputFault psbtOut
  | script (hknown : ¬UnknownScript psbtOut.script)
      (hcut : ScriptCut xpub psbtOut.hdKeypaths (outputScript psbtOut)) : OutputFault psbtOut

end

/-! ### The call -/

/-- The device says what its master key is. -/
structure Started (device : Device) (masterFp : Bytes) : Prop where
  unlocked : device.checkUnlocked = .ok ()
  fingerprint : MasterFp device masterFp

/-- The transaction has a version, and those before it their hashes. -/
structure TxComplete (psbt : PSBT) : Prop where
  version : psbt.txVersion ≠ none
  previous : ∀ psbtIn ∈ psbt.inputs, ∀ prev, psbtIn.nonWitnessUtxo = some prev → prev.sha256 ≠ none

/-- The call asks for signatures. -/
structure Requested (device : Device) (psbt : PSBT) (masterFp : Bytes) : Prop where
  started : Started device masterFp
  inputs : ∀ psbtIn ∈ psbt.inputs, InputPasses (supportsExternal device) masterFp psbt.xpub psbtIn
  outputs : ∀ psbtOut ∈ psbt.outputs, OutputPasses psbt.xpub psbtOut
  complete : TxComplete psbt
  locks : ¬psbt.LocksClash

/-- The call ends before it with an exception that is not reported: one of the device,
or for the first input or output that it does not get past, or for a transaction that
is not complete. -/
inductive Broken (device : Device) (psbt : PSBT) : Prop
  | locked {e : Exc} (h : device.checkUnlocked = .error e) (he : ¬Rejected e) : Broken device psbt
  | masterXpub {e : Exc} (hunlocked : device.checkUnlocked = .ok ()) (h : device.masterXpub = .error e)
      (he : ¬Rejected e) : Broken device psbt
  | input {masterFp : Bytes} (hstart : Started device masterFp)
      (h : FirstBad (InputPasses (supportsExternal device) masterFp psbt.xpub)
        (InputFault masterFp psbt.xpub) psbt.inputs) : Broken device psbt
  | output {masterFp : Bytes} (hstart : Started device masterFp)
      (hinputs : ∀ psbtIn ∈ psbt.inputs,
        InputPasses (supportsExternal device) masterFp psbt.xpub psbtIn)
      (h : FirstBad (OutputPasses psbt.xpub) (OutputFault psbt.xpub) psbt.outputs) :
      Broken device psbt
  | incomplete {masterFp : Bytes} (hstart : Started device masterFp)
      (hinputs : ∀ psbtIn ∈ psbt.inputs,
        InputPasses (supportsExternal device) masterFp psbt.xpub psbtIn)
      (houtputs : ∀ psbtOut ∈ psbt.outputs, OutputPasses psbt.xpub psbtOut)
      (h : ¬TxComplete psbt) : Broken device psbt

end TrezorClient

end Hwi
