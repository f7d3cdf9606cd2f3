import Hwi.Lib.Procedure
import Hwi.Spec.Bech32
import Hwi.Spec.ExtendedKey
import Hwi.Spec.Psbt
import Hwi.Spec.Script

/-! `sign_tx` of `trezor.py`. A call of `btc.sign_tx` either raises or returns one
signature for every input it was given. -/

namespace Hwi

/-! ### Messages -/

namespace Trezor

inductive InputScriptType
  | SPENDADDRESS | SPENDMULTISIG | SPENDWITNESS | SPENDP2SHWITNESS | SPENDTAPROOT
deriving DecidableEq, Repr

inductive OutputScriptType
  | PAYTOADDRESS | PAYTOMULTISIG | PAYTOOPRETURN | PAYTOWITNESS | PAYTOP2SHWITNESS | PAYTOTAPROOT
deriving DecidableEq, Repr

structure HDNodeType where
  depth : ℕ
  fingerprint : ℕ
  childNum : ℕ
  chainCode : Bytes
  publicKey : Bytes
deriving DecidableEq, Repr

structure HDNodePathType where
  node : HDNodeType
  addressN : List ℤ
deriving DecidableEq, Repr

structure MultisigRedeemScriptType where
  m : ℕ
  signatures : List Bytes
  pubkeys : List HDNodePathType
deriving DecidableEq, Repr

structure TxInputType where
  addressN : List ℤ := []
  prevHash : Bytes
  prevIndex : ℕ
  sequence : ℕ
  scriptType : InputScriptType := .SPENDADDRESS
  multisig : Option MultisigRedeemScriptType := none
  amount : Option ℤ := none
deriving DecidableEq, Repr

structure TxOutputType where
  address : Option Str := none
  addressN : List ℤ := []
  amount : ℤ
  scriptType : OutputScriptType := .PAYTOADDRESS
  multisig : Option MultisigRedeemScriptType := none
  opReturnData : Option Bytes := none
deriving DecidableEq, Repr

structure PrevInput where
  prevHash : Bytes
  prevIndex : ℕ
  scriptSig : Bytes
  sequence : ℕ
deriving DecidableEq, Repr

structure TransactionType where
  version : ℤ
  lockTime : ℕ
  inputs : List PrevInput
  binOutputs : List CTxOut
deriving DecidableEq, Repr

/-- The arguments of `btc.sign_tx`. -/
structure SignTx where
  coinName : String
  inputs : List TxInputType
  outputs : List TxOutputType
  prevTxes : Dict Bytes TransactionType
  version : ℤ
  lockTime : ℕ
deriving DecidableEq

/-- A call of `btc.sign_tx` with the signatures it returned. -/
abbrev Call := SignTx × List Bytes

/-- The device: whether `_check_unlocked` passes, the master key it returns, its
model and firmware version, and what it signs after some calls. -/
structure Device where
  checkUnlocked : Except Exc Unit
  masterXpub : Except Exc Str
  model : String
  version : ℕ × ℕ × ℕ
  sign : List Call → SignTx → Except Exc (ℕ → Bytes)

def versionLe : ℕ × ℕ × ℕ → ℕ × ℕ × ℕ → Bool
  | (a, b, c), (a', b', c') => a < a' ∨ a = a' ∧ (b < b' ∨ b = b' ∧ c ≤ c')

/-- `_supports_external` -/
def supportsExternal (device : Device) : Bool :=
  device.model = "1" ∧ versionLe device.version (1, 10, 5) ∨
    device.model = "T" ∧ versionLe device.version (2, 4, 3) ∨ device.model = "K1-14AM"

end Trezor

open Trezor

namespace TrezorClient

/-! ### Multisig scripts -/

/-- The node of a key that is not known as an xpub. -/
def plainNode (key : Bytes) : HDNodePathType :=
  { node := {
      depth := 0, fingerprint := 0, childNum := 0, chainCode := List.replicate 32 0,
      publicKey := key }
    addressN := [] }

/-- Check if we know a corresponding xpub from the global scope. -/
def findNode (R : Runtime) (derivation : KeyOriginInfo) (pub : HDNodePathType) :
    List (Bytes × KeyOriginInfo) → Except Exc HDNodePathType
  | [] => .ok pub
  | (xpub, origin) :: rest => do
    let hd ← ExtendedKey.deserialize (Base58.encode (xpub ++ (R.hash256 xpub).take 4))
    -- check fingerprint and derivation
    if origin.fingerprint = derivation.fingerprint ∧
        origin.path = derivation.path.take origin.path.length then
      return {
        addressN := derivation.path.drop origin.path.length
        node := {
          depth := hd.depth.toNat, fingerprint := Base58.toInt hd.parentFingerprint,
          childNum := hd.childNum, chainCode := hd.chaincode, publicKey := hd.pubkey } }
    else findNode R derivation pub rest

/-- `parse_multisig`: `none` for a script that is not a multisig script. Only
handles up to 15 of 15. -/
def parseMultisig (R : Runtime) (script : Bytes) (txXpubs hdKeypaths : Dict Bytes KeyOriginInfo) :
    Except Exc (Option MultisigRedeemScriptType) := do
  -- at least OP_M pub OP_N OP_CHECKMULTISIG
  if script.length < 37 then return none
  match ← Hwi.parseMultisig script with
  | none => return none
  | some (m, keys) =>
    let pubkeys ← keys.mapM fun key => match hdKeypaths.get? key with
      | none => pure (plainNode key)
      | some derivation => findNode R derivation (plainNode key) txXpubs.items
    return some { m, signatures := List.replicate keys.length [], pubkeys }

/-! ### Inputs -/

/-- The output an input spends, with the check of its non-witness UTXO. -/
def findUtxo (inputNum : ℕ) (psbtIn : PartiallySignedInput) (prevOut : ℕ) :
    Except Exc (Option CTxOut) :=
  match psbtIn.nonWitnessUtxo with
  | none => .ok psbtIn.witnessUtxo
  | some nonWitnessUtxo =>
    if some psbtIn.prevTxid ≠ nonWitnessUtxo.hash then
      .error (.badArgumentError
        ("Input " ++ toString inputNum ++ " has a non_witness_utxo with the wrong hash"))
    else match nonWitnessUtxo.vout[prevOut]? with
      | none => .error .indexError
      | some utxo => .ok (some utxo)

/-- What is known of an input once its scripts are found. -/
structure Spend where
  scriptcode : Bytes
  isWit : Bool
  p2wsh : Bool
  scriptType : InputScriptType
deriving DecidableEq, Repr

/-- The spend type of a script; a witness program of a version above 1 leaves
the default of the message. -/
def spendType (p2sh isWit : Bool) (witVer : ℕ) : InputScriptType :=
  if isWit then
    if witVer = 0 then if p2sh then .SPENDP2SHWITNESS else .SPENDWITNESS
    else if witVer = 1 then .SPENDTAPROOT
    else .SPENDADDRESS
  else .SPENDADDRESS

/-- The script code and the type, from the script of the output or the redeem
script; `none` where the witness script is missing. -/
def findWitnessScript (psbtIn : PartiallySignedInput) (p2sh : Bool) (scriptcode : Bytes) :
    Option Spend :=
  let (isWit, witVer, _) := isWitness scriptcode
  let scriptType := spendType p2sh isWit witVer
  if isP2wsh scriptcode then
    -- Look up witnessscript
    if psbtIn.witnessScript.length = 0 then none
    else some { scriptcode := psbtIn.witnessScript, isWit, p2wsh := true, scriptType }
  else some { scriptcode, isWit, p2wsh := false, scriptType }

/-- Look up the scripts; `none` where one is missing. -/
def findSpend (psbtIn : PartiallySignedInput) (utxo : CTxOut) : Option Spend :=
  if isP2sh utxo.scriptPubKey then
    -- Look up redeemscript
    if psbtIn.redeemScript.length = 0 then none
    else findWitnessScript psbtIn true psbtIn.redeemScript
  else findWitnessScript psbtIn false utxo.scriptPubKey

/-- The result of the search for a key: the path to sign with, whether one of
our keys has signed, the number of our keys that can, and the path of the last
key that is ours. -/
structure KeySearch where
  found : Option (List ℤ) := none
  foundInSigs : Bool := false
  ourKeys : ℕ := 0
  pathLastOurs : Option (List ℤ) := none
deriving DecidableEq, Repr

/-- The search in `hd_keypaths`. -/
def searchEcdsa (masterFp : Bytes) (partialSigs : Dict Bytes Bytes) :
    List (Bytes × KeyOriginInfo) → KeySearch → KeySearch
  | [], k => k
  | (key, keypath) :: rest, k =>
    searchEcdsa masterFp partialSigs rest
      (if keypath.fingerprint = masterFp then
        if partialSigs.contains key then -- This key already has a signature
          { k with pathLastOurs := some keypath.path, foundInSigs := true }
        else
          { k with
            pathLastOurs := some keypath.path
            found := some (k.found.getD keypath.path)
            ourKeys := k.ourKeys + 1 }
      else k)

/-- The search in `tap_bip32_paths`. -/
def searchSchnorr (masterFp tapInternalKey : Bytes) :
    List (Bytes × OrderedSet Bytes × KeyOriginInfo) → KeySearch → KeySearch
  | [], k => k
  | (key, _, origin) :: rest, k =>
    -- TODO: Support script path signing
    if key = tapInternalKey ∧ origin.fingerprint = masterFp then
      { k with pathLastOurs := some origin.path, found := some origin.path, ourKeys := k.ourKeys + 1 }
    else searchSchnorr masterFp tapInternalKey rest k

/-- Find key to sign with. -/
def searchKey (masterFp : Bytes) (psbtIn : PartiallySignedInput) (scriptType : InputScriptType) :
    KeySearch :=
  if scriptType = .SPENDTAPROOT then
    searchSchnorr masterFp psbtIn.tapInternalKey psbtIn.tapBip32Paths.items
      { foundInSigs := psbtIn.tapKeySig.length > 0 }
  else searchEcdsa masterFp psbtIn.partialSigs psbtIn.hdKeypaths.items {}

/-- An input as it is streamed, whether its signature is going to be ignored,
and how many of our keys can sign it. -/
structure Streamed where
  inputNum : ℕ
  txinputtype : TxInputType
  ignored : Bool
  ourKeys : ℕ
deriving DecidableEq, Repr

/-- `ignore_input` -/
def ignoreInput (chain : Chain) (inputNum : ℕ) (txinputtype : TxInputType) : Streamed :=
  { inputNum
    txinputtype := { txinputtype with
      addressN := [harden 84, harden (if chain = .main then 0 else 1), harden 0, 0, 0]
      multisig := none
      scriptType := .SPENDWITNESS }
    ignored := true
    ourKeys := 0 }

/-- Find the key of an input whose type is determined. -/
def prepareKey (chain : Chain) (external : Bool) (masterFp : Bytes) (inputNum : ℕ)
    (psbtIn : PartiallySignedInput) (txinputtype : TxInputType) : Except Exc Streamed :=
  let k := searchKey masterFp psbtIn txinputtype.scriptType
  match k.found with
  | some addressN =>
    .ok {
      inputNum, txinputtype := { txinputtype with addressN }, ignored := false,
      ourKeys := k.ourKeys }
  | none =>
    if !k.foundInSigs then
      -- This input is not one of ours
      if !external then .error (.badArgumentError "Cannot sign external inputs")
      else .ok (ignoreInput chain inputNum txinputtype)
    else match k.pathLastOurs with
      -- All of our keys are in partial_sigs
      | none => .error .assertionError
      | some addressN =>
        .ok {
          inputNum, txinputtype := { txinputtype with addressN }, ignored := true,
          ourKeys := k.ourKeys }

/-- Check for multisig, and for scripts that cannot be signed: the message with
the multisig script, and whether the input is ignored. -/
def checkScript (R : Runtime) (external : Bool) (xpub hdKeypaths : Dict Bytes KeyOriginInfo)
    (utxo : CTxOut) (spend : Spend) (txinputtype : TxInputType) : Except Exc (TxInputType × Bool) := do
  match ← parseMultisig R spend.scriptcode xpub hdKeypaths with
  | some multisig =>
    -- Add to txinputtype
    let txinputtype := { txinputtype with multisig := some multisig }
    if !spend.isWit then
      if isP2sh utxo.scriptPubKey then
        return ({ txinputtype with scriptType := .SPENDMULTISIG }, false)
      -- Cannot sign bare multisig, ignore it
      else if !external then throw (.badArgumentError "Cannot sign bare multisig")
      else return (txinputtype, true)
    else return (txinputtype, false)
  | none =>
    if !spend.isWit && !isP2pkh spend.scriptcode then
      -- Cannot sign unknown spk, ignore it
      if !external then throw (.badArgumentError "Cannot sign unknown scripts")
      else return (txinputtype, true)
    else if spend.isWit && spend.p2wsh then
      -- Cannot sign unknown witness script, ignore it
      if !external then throw (.badArgumentError "Cannot sign unknown witness versions")
      else return (txinputtype, true)
    else return (txinputtype, false)

/-- Prepare an input; `none` where it is not streamed. -/
def prepareInput (R : Runtime) (chain : Chain) (external : Bool) (masterFp : Bytes)
    (xpub : Dict Bytes KeyOriginInfo) (inputNum : ℕ) (psbtIn : PartiallySignedInput) :
    Except Exc (Option Streamed) :=
  match psbtIn.prevOut, psbtIn.sequence with
  | some prevOut, some sequence => do
    match ← findUtxo inputNum psbtIn prevOut with
    | none => return none
    | some utxo =>
      match findSpend psbtIn utxo with
      | none => return none
      | some spend => do
        let (txinputtype, ignored) ← checkScript R external xpub psbtIn.hdKeypaths utxo spend {
          prevHash := psbtIn.prevTxid.reverse, prevIndex := prevOut, sequence,
          scriptType := spend.scriptType, amount := some utxo.nValue }
        if ignored then return some (ignoreInput chain inputNum txinputtype)
        else
          let streamed ← prepareKey chain external masterFp inputNum psbtIn txinputtype
          return some streamed
  | _, _ => .error .assertionError

/-- Prepare inputs, from an input number on. -/
def prepareInputs (R : Runtime) (chain : Chain) (external : Bool) (masterFp : Bytes)
    (xpub : Dict Bytes KeyOriginInfo) : ℕ → List PartiallySignedInput → Except Exc (List Streamed)
  | _, [] => .ok []
  | inputNum, psbtIn :: rest => do
    let streamed ← prepareInput R chain external masterFp xpub inputNum psbtIn
    let more ← prepareInputs R chain external masterFp xpub (inputNum + 1) rest
    return streamed.toList ++ more

/-! ### Outputs -/

def p2pkhVersion (chain : Chain) : Bytes := if chain ≠ .main then [0x6f] else [0x00]

def p2shVersion (chain : Chain) : Bytes := if chain ≠ .main then [0xc4] else [0x05]

def bech32Hrp (chain : Chain) : Str := if chain ≠ .main then "tb".toList else "bc".toList

/-- The output as an address or as OP_RETURN data. -/
def payTo (R : Runtime) (chain : Chain) (out : CTxOut) : Except Exc TxOutputType := do
  let txoutput : TxOutputType := { amount := out.nValue }
  let (wit, ver, prog) := isWitness out.scriptPubKey
  if wit then return { txoutput with address := Bech32.encode (bech32Hrp chain) ver prog }
  else if isP2pkh out.scriptPubKey then
    return { txoutput with
      address := some (Base58.toAddress R ((out.scriptPubKey.drop 3).take 20) (p2pkhVersion chain)) }
  else if isP2sh out.scriptPubKey then
    return { txoutput with
      address := some (Base58.toAddress R ((out.scriptPubKey.drop 2).take 20) (p2shVersion chain)) }
  else if ← isOpreturn out.scriptPubKey then
    return { txoutput with
      scriptType := .PAYTOOPRETURN, opReturnData := some (out.scriptPubKey.drop 2) }
  else throw (.badArgumentError "Output is not an address")

/-- The change path for one of our keys, and whether the script last looked at
is a witness program. -/
def changePath (out : CTxOut) (redeemScript : Bytes) (path : List ℤ) (txoutput : TxOutputType) :
    TxOutputType × Bool :=
  let wit := (isWitness out.scriptPubKey).1
  if isP2pkh out.scriptPubKey then ({ txoutput with addressN := path, address := none }, wit)
  else if wit then
    ({ txoutput with scriptType := .PAYTOWITNESS, addressN := path, address := none }, wit)
  else if isP2sh out.scriptPubKey ∧ redeemScript ≠ [] then
    let (wit, _, prog) := isWitness redeemScript
    if wit ∧ prog.length ∈ [20, 32] then
      ({ txoutput with scriptType := .PAYTOP2SHWITNESS, addressN := path, address := none }, wit)
    else (txoutput, wit)
  else (txoutput, wit)

/-- The loop over `hd_keypaths` of an output. -/
def addChangePaths (masterFp : Bytes) (out : CTxOut) (redeemScript : Bytes) :
    List (Bytes × KeyOriginInfo) → TxOutputType × Bool → TxOutputType × Bool
  | [], r => r
  | (_, keypath) :: rest, r =>
    addChangePaths masterFp out redeemScript rest
      (if keypath.fingerprint ≠ masterFp then r else changePath out redeemScript keypath.path r.1)

/-- The loop over `tap_bip32_paths` of an output. -/
def addTaprootPath (masterFp tapInternalKey : Bytes) :
    List (Bytes × OrderedSet Bytes × KeyOriginInfo) → TxOutputType → TxOutputType
  | [], txoutput => txoutput
  | (key, _, origin) :: rest, txoutput =>
    -- TODO: Support script path change
    if key = tapInternalKey ∧ origin.fingerprint = masterFp then
      { txoutput with addressN := origin.path, scriptType := .PAYTOTAPROOT, address := none }
    else addTaprootPath masterFp tapInternalKey rest txoutput

/-- Add the derivation path for change. -/
def addChange (masterFp : Bytes) (out : CTxOut) (psbtOut : PartiallySignedOutput)
    (txoutput : TxOutputType) : TxOutputType × Bool :=
  let (wit, ver, _) := isWitness out.scriptPubKey
  if !wit || ver = 0 then
    addChangePaths masterFp out psbtOut.redeemScript psbtOut.hdKeypaths.items (txoutput, wit)
  else if ver = 1 then
    (addTaprootPath masterFp psbtOut.tapInternalKey psbtOut.tapBip32Paths.items txoutput, wit)
  else (txoutput, wit)

/-- Prepare an output. -/
def prepareOutput (R : Runtime) (chain : Chain) (masterFp : Bytes) (xpub : Dict Bytes KeyOriginInfo)
    (psbtOut : PartiallySignedOutput) : Except Exc TxOutputType := do
  let out ← psbtOut.getTxout
  let txoutput ← payTo R chain out
  let (txoutput, wit) := addChange masterFp out psbtOut txoutput
  -- add multisig info
  let script := if psbtOut.witnessScript ≠ [] then psbtOut.witnessScript else psbtOut.redeemScript
  if script ≠ [] then
    match ← parseMultisig R script xpub psbtOut.hdKeypaths with
    | none => return txoutput
    | some multisig => return { txoutput with
        multisig := some multisig
        scriptType := if !wit then .PAYTOMULTISIG else txoutput.scriptType }
  else return txoutput

/-! ### Signing -/

def prevTx (prev : CTransaction) : TransactionType :=
  { version := prev.nVersion
    lockTime := prev.nLockTime
    inputs := prev.vin.map fun vin => {
      prevHash := (serUint256 vin.prevout.hash).reverse, prevIndex := vin.prevout.n,
      scriptSig := vin.scriptSig, sequence := vin.nSequence }
    binOutputs := prev.vout }

/-- Prepare prev txs. -/
def prepareTxs : List PartiallySignedInput → Dict Bytes TransactionType →
    Except Exc (Dict Bytes TransactionType)
  | [], prevtxs => .ok prevtxs
  | psbtIn :: rest, prevtxs =>
    match psbtIn.nonWitnessUtxo with
    | none => prepareTxs rest prevtxs
    | some prev => match prev.hash, prev.sha256 with
      | some _, some sha256 =>
        prepareTxs rest (prevtxs.set (serUint256 sha256).reverse (prevTx prev))
      | _, _ => .error .assertionError

/-- A pass: the fingerprint of the master key, the PSBT before it, the inputs
streamed, the call, and the PSBT after it. -/
structure Pass where
  masterFp : Bytes
  psbt : PSBT
  streamed : List Streamed
  call : Call
  psbtAfter : PSBT

/-- The caller's PSBT, the passes made, and the calls of `btc.sign_tx` that were
begun. -/
structure State where
  psbt : PSBT
  passes : List Pass := []
  requests : List SignTx := []

abbrev Method := Procedure Exc State

/-- Store the signature of an input. -/
def storeSignature (masterFp : Bytes) (psbtIn : PartiallySignedInput) (sig : Bytes) :
    PartiallySignedInput :=
  let psbtIn := match psbtIn.hdKeypaths.items.find? fun (pubkey, keypath) =>
      keypath.fingerprint = masterFp && !psbtIn.partialSigs.contains pubkey with
    | none => psbtIn
    | some (pubkey, _) =>
      { psbtIn with partialSigs := psbtIn.partialSigs.set pubkey (sig ++ [0x01]) }
  if psbtIn.tapInternalKey.length > 0 ∧ psbtIn.tapKeySig.length = 0 then
    -- TODO: Deal with script path sig
    { psbtIn with tapKeySig := sig }
  else psbtIn

/-- The loop over `zip(psbt.inputs, signed_tx[0])`, from an input number on. -/
def storeSignatures (masterFp : Bytes) (toIgnore : List ℕ) :
    ℕ → List PartiallySignedInput → List Bytes → List PartiallySignedInput
  | inputNum, psbtIn :: rest, sig :: sigs =>
    (if inputNum ∈ toIgnore then psbtIn else storeSignature masterFp psbtIn sig) ::
      storeSignatures masterFp toIgnore (inputNum + 1) rest sigs
  | _, inputs, _ => inputs

/-- Which inputs whose signatures we're going to ignore. -/
def toIgnore (streamed : List Streamed) : List ℕ :=
  (streamed.filter fun st => st.ignored).map fun st => st.inputNum

def coinName (chain : Chain) : String := if chain = .main then "Bitcoin" else "Testnet"

/-- What a pass prepares before the transaction is signed: the inputs, the outputs
and the previous transactions. -/
def prepareRequest (R : Runtime) (chain : Chain) (external : Bool) (masterFp : Bytes) (psbt : PSBT) :
    Except Exc (List Streamed × SignTx) := do
  let streamed ← prepareInputs R chain external masterFp psbt.xpub 0 psbt.inputs
  let outputs ← psbt.outputs.mapM (prepareOutput R chain masterFp psbt.xpub)
  let prevTxes ← prepareTxs psbt.inputs ∅
  match psbt.txVersion with
  | none => throw .assertionError
  | some version => do
    let lockTime ← psbt.computeLockTime
    return (streamed, {
      coinName := coinName chain, inputs := streamed.map fun st => st.txinputtype, outputs, prevTxes,
      version, lockTime })

/-- One pass; returns the number of passes to make. -/
def signPass (R : Runtime) (chain : Chain) (device : Device) (masterFp : Bytes) (passes : ℕ) :
    Method ℕ := do
  let s ← get
  let psbt := s.psbt
  let (streamed, request) ←
    Procedure.ofExcept (prepareRequest R chain (supportsExternal device) masterFp psbt)
  -- Sign the transaction
  modify fun s => { s with requests := s.requests ++ [request] }
  let sign ← Procedure.ofExcept (device.sign (s.passes.map fun pass => pass.call) request)
  let sigs := (List.range streamed.length).map sign
  let psbtAfter := { psbt with
    inputs := storeSignatures masterFp (toIgnore streamed) 0 psbt.inputs sigs }
  modify fun s => { s with
    psbt := psbtAfter
    passes := s.passes ++ [{ masterFp, psbt, streamed, call := (request, sigs), psbtAfter }] }
  return streamed.foldl (fun passes st => max passes st.ourKeys) passes

/-- `while p < passes: ...` -/
def signPasses (R : Runtime) (chain : Chain) (device : Device) (masterFp : Bytes) :
    ℕ → ℕ → ℕ → Method Unit
  | 0, _, _ => return
  | fuel + 1, p, passes =>
    if p < passes then do
      let passes ← signPass R chain device masterFp passes
      signPasses R chain device masterFp fuel (p + 1) passes
    else return

/-- No input has more keys of ours than origins, so this many passes are enough. -/
def maxPasses (psbt : PSBT) : ℕ :=
  psbt.inputs.foldl (fun n psbtIn => max n psbtIn.hdKeypaths.size) 1

/-- `trezor_exception`. What the device raises is taken as it leaves the
decorator. -/
def trezorException {α : Type} (f : Method α) : Method α :=
  EStateM.adaptExcept (fun e => match e with
    | .valueError msg => .badArgumentError msg
    | e => if e.isValueError then .badArgumentError "" else e) f

/-- `sign_tx`: the PSBT is signed in place and returned. -/
def signTx (R : Runtime) (chain : Chain) (device : Device) (registeredDescriptors : Bool) :
    Method Unit :=
  trezorException do
    if registeredDescriptors then
      throw (.unavailableActionError "The Trezor does not support BIP388 policy signing")
    Procedure.ofExcept device.checkUnlocked
    -- Get this devices master key fingerprint
    let masterKey ← Procedure.ofExcept device.masterXpub
    let data ← Procedure.ofExcept (Base58.decode masterKey)
    let masterFp := (data.drop 5).take 4
    -- Do multiple passes for multisig
    let s ← get
    signPasses R chain device masterFp (maxPasses s.psbt) 0 1

end TrezorClient

end Hwi
