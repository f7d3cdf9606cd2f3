import Hwi.Lib.Intern
import Hwi.Spec.Bitbox02

/-! `sign_tx` of `bitbox02.py`. -/

namespace Hwi

namespace Bitbox02Client

open Bitbox02

/-! ### The registered policy -/

/-- `_bip388_script_config` -/
def policyKey (R : Runtime) (pk : PubkeyProvider) : Except Exc PolicyKey := do
  let xpub ← parseXpub R pk.pubkey
  return {
    rootFingerprint := match pk.origin with
      | some origin => origin.fingerprint
      | none => []
    keypath := match pk.origin with
      | some origin => origin.path
      | none => []
    xpub }

def bip388ScriptConfig (R : Runtime) (descriptor : Descriptor) : Except Exc BTCScriptConfig := do
  let keys ← descriptor.getPubkeyProviders.mapM (policyKey R)
  let policy ← descriptor.getBip388Template
  return .policy policy keys

/-- Whether a key of the policy is this device's, and the path of its origin. -/
def ourPolicyKey (R : Runtime) (chain : Chain) (device : Device) (deviceFingerprint : Bytes)
    (pubkey : PubkeyProvider) : Method (Option (List ℤ)) :=
  match pubkey.origin, pubkey.extkey with
  | some origin, some extkey =>
    if origin.fingerprint ≠ deviceFingerprint then return none
    else do
      let xpub ← getXpub chain device origin.path
      let deviceXpub ← Procedure.ofExcept (Base58.decodeCheck R xpub)
      let data ← Procedure.ofExcept extkey.serialize
      return if xpubsEqualIgnoringVersion deviceXpub data then some origin.path else none
  | _, _ => return none

/-- The loop over the keys of the policy. -/
def findAccountKeypath (R : Runtime) (chain : Chain) (device : Device) (deviceFingerprint : Bytes) :
    List PubkeyProvider → Option (List ℤ) → Method (Option (List ℤ))
  | [], accountKeypath => return accountKeypath
  | pubkey :: rest, accountKeypath => do
    match ← ourPolicyKey R chain device deviceFingerprint pubkey with
    | none => findAccountKeypath R chain device deviceFingerprint rest accountKeypath
    | some path =>
      if accountKeypath.isSome then
        throw (.badArgumentError "This BitBox02 occurs more than once in the policy")
      else findAccountKeypath R chain device deviceFingerprint rest (some path)

/-- `policy_script_config` -/
def findPolicy (R : Runtime) (chain : Chain) (device : Device) :
    List RegisteredDescriptor → Method (Option BTCScriptConfigWithKeypath)
  | [] => return none
  | [registered] => do
    let deviceFingerprint ← getMasterFingerprint device
    match ← findAccountKeypath R chain device deviceFingerprint
        registered.descriptor.getPubkeyProviders none with
    | none => throw (.badArgumentError "This BitBox02 is not one of the policy keys")
    | some keypath => do
      let scriptConfig ← Procedure.ofExcept (bip388ScriptConfig R registered.descriptor)
      return some { scriptConfig, keypath }
  | _ => throw (.badArgumentError "The BitBox02 can only sign with one registered policy at a time")

/-! ### Keys and script configurations -/

/-- The first key with the fingerprint of the device, and its path. -/
def findOurKey (masterFp : Bytes) (keypaths : Dict Bytes KeyOriginInfo) : Option (Bytes × List ℤ) :=
  (keypaths.items.find? fun (_, origin) => origin.fingerprint = masterFp).map fun (pubkey, origin) =>
    (pubkey, origin.path)

/-- The loop that adds the Taproot keys to the keypaths to be checked. -/
def addTapKeypaths : List (Bytes × OrderedSet Bytes × KeyOriginInfo) → Dict Bytes KeyOriginInfo →
    Except Exc (Dict Bytes KeyOriginInfo)
  | [], keypaths => .ok keypaths
  | (pubkey, leafHashes, origin) :: rest, keypaths =>
    -- the message ends with the leaf hashes
    if 0 < leafHashes.elems.length then
      .error (.badArgumentError
        "The BitBox02 does not support Taproot script path spending. Found leaf hashes: ")
    else addTapKeypaths rest (keypaths.set pubkey origin)

/-- `key_origin_infos` of an input or an output. -/
def keyOriginInfos (hdKeypaths : Dict Bytes KeyOriginInfo) (tapInternalKey : Bytes)
    (tapBip32Paths : Dict Bytes (OrderedSet Bytes × KeyOriginInfo)) :
    Except Exc (Dict Bytes KeyOriginInfo) :=
  if 0 < tapInternalKey.length then addTapKeypaths tapBip32Paths.items hdKeypaths
  else .ok hdKeypaths

/-- `add_script_config` on the list: the index of the configuration in it. -/
def addScriptConfig (scriptConfig : BTCScriptConfigWithKeypath)
    (scriptConfigs : List BTCScriptConfigWithKeypath) : ℕ × List BTCScriptConfigWithKeypath :=
  intern scriptConfig scriptConfigs

def simpleConfig (simpleType : SimpleType) (keypath : List ℤ) : BTCScriptConfigWithKeypath where
  scriptConfig := .simpleType simpleType
  keypath := keypathHardenedPrefix keypath

/-- The configuration of a multisig output, from all xpubs of the PSBT. -/
def multisigConfigFromUtxo (R : Runtime) (chain : Chain) (device : Device)
    (xpub : Dict Bytes KeyOriginInfo) (output : CTxOut) (witnessScript : Bytes) :
    Method BTCScriptConfigWithKeypath := do
  match ← Procedure.ofExcept (parseMultisig witnessScript) with
  | none => throw (.badArgumentError "Input or change script type not recognized.")
  | some (threshold, _) => do
    let (_, scriptConfig) ← multisigScriptconfig R chain device threshold xpub
      (if isP2wsh output.scriptPubKey then .P2WSH else .P2WSH_P2SH)
    return scriptConfig

def scriptConfigFromUtxo (R : Runtime) (chain : Chain) (device : Device)
    (policyScriptConfig : Option BTCScriptConfigWithKeypath) (xpub : Dict Bytes KeyOriginInfo)
    (output : CTxOut) (keypath : List ℤ) (redeemScript witnessScript : Bytes) :
    Method BTCScriptConfigWithKeypath :=
  match policyScriptConfig with
  | some policyScriptConfig => return policyScriptConfig
  | none =>
    if isP2pkh output.scriptPubKey then
      throw (.badArgumentError "The BitBox02 does not support legacy p2pkh scripts")
    else if isP2wpkh output.scriptPubKey then return simpleConfig .P2WPKH keypath
    else if isP2sh output.scriptPubKey ∧ isP2wpkh redeemScript then
      return simpleConfig .P2WPKH_P2SH keypath
    else if isP2tr output.scriptPubKey then return simpleConfig .P2TR keypath
    -- Check for segwit multisig (p2wsh or p2wsh-p2sh).
    else if isP2wsh output.scriptPubKey ∨ (isP2sh output.scriptPubKey ∧ isP2wsh redeemScript) then
      multisigConfigFromUtxo R chain device xpub output witnessScript
    else throw (.badArgumentError "Input or change script type not recognized.")

/-! ### Inputs -/

def prevTxOf (prevtx : CTransaction) : PrevTx where
  version := prevtx.nVersion
  locktime := prevtx.nLockTime
  inputs := prevtx.vin.map fun prevIn => {
    prevOutHash := serUint256 prevIn.prevout.hash
    prevOutIndex := prevIn.prevout.n
    signatureScript := prevIn.scriptSig
    sequence := prevIn.nSequence }
  outputs := prevtx.vout.map fun prevOut => {
    value := prevOut.nValue
    pubkeyScript := prevOut.scriptPubKey }

/-- The output that an input spends. -/
def findUtxo (inputIndex : ℕ) (psbtIn : PartiallySignedInput) (prevOut : ℕ) : Except Exc CTxOut :=
  match psbtIn.nonWitnessUtxo with
  | some nonWitnessUtxo => match nonWitnessUtxo.sha256 with
    | none => .error .assertionError
    | some sha256 =>
      if psbtIn.prevTxid ≠ serUint256 sha256 then
        .error (.badArgumentError
          ("Input " ++ toString inputIndex ++ " has a non_witness_utxo with the wrong hash"))
      else match nonWitnessUtxo.vout[prevOut]? with
        | none => .error .indexError
        | some utxo => .ok utxo
  | none => match psbtIn.witnessUtxo with
    | none => .error (.badArgumentError ("No utxo found for input " ++ toString inputIndex))
    | some utxo => .ok utxo

/-- An input with the output it spends, the key to sign with, and the third element
of its path. -/
structure FoundInput where
  prevOut : ℕ
  sequence : ℕ
  utxo : CTxOut
  foundPubkey : Bytes
  keypath : List ℤ
  account : ℤ

/-- The key of the device that signs an input. -/
def findInputKey (inputIndex : ℕ) (masterFp : Bytes) (psbtIn : PartiallySignedInput) :
    Except Exc (Bytes × List ℤ) := do
  let keypaths ← keyOriginInfos psbtIn.hdKeypaths psbtIn.tapInternalKey psbtIn.tapBip32Paths
  match findOurKey masterFp keypaths with
  | none => throw (.badArgumentError ("No key found for input " ++ toString inputIndex))
  | some (foundPubkey, keypath) =>
    if foundPubkey = [] then
      throw (.badArgumentError ("No key found for input " ++ toString inputIndex))
    else return (foundPubkey, keypath)

/-- `keypath[2]` -/
def accountOf (keypath : List ℤ) : Except Exc ℤ :=
  match keypath[2]? with
  | none => .error .indexError
  | some account => .ok account

/-- What the loop looks up before it compares the account. -/
def findInput (inputIndex : ℕ) (masterFp : Bytes) (psbtIn : PartiallySignedInput) :
    Except Exc FoundInput :=
  match psbtIn.prevOut, psbtIn.sequence with
  | some prevOut, some sequence =>
    if psbtIn.sighash.getD 0 ≠ 0 ∧ psbtIn.sighash ≠ some 1 then
      .error (.badArgumentError ("The BitBox02 only supports SIGHASH_ALL. Found sighash: " ++
        toString (psbtIn.sighash.getD 0)))
    else do
      let utxo ← findUtxo inputIndex psbtIn prevOut
      let (foundPubkey, keypath) ← findInputKey inputIndex masterFp psbtIn
      let account ← accountOf keypath
      return { prevOut, sequence, utxo, foundPubkey, keypath, account }
  | _, _ => .error .assertionError

/-- The account of the inputs so far, with one more. -/
def checkAccount (bip44Account : Option ℤ) (account : ℤ) : Except Exc (Option ℤ) :=
  match bip44Account with
  | none => .ok (some account)
  | some a =>
    if a ≠ account then
      .error (.badArgumentError "The bip44 account index must be the same for all inputs and changes")
    else .ok (some a)

def inputEntry (psbtIn : PartiallySignedInput) (found : FoundInput) (scriptConfigIndex : ℕ) :
    BTCInput where
  prevOutHash := psbtIn.prevTxid
  prevOutIndex := found.prevOut
  prevOutValue := found.utxo.nValue
  sequence := found.sequence
  keypath := found.keypath
  scriptConfigIndex
  prevTx := psbtIn.nonWitnessUtxo.map prevTxOf

/-- One pass of the loop over the inputs. -/
def signInput (R : Runtime) (chain : Chain) (device : Device)
    (policyScriptConfig : Option BTCScriptConfigWithKeypath) (masterFp : Bytes)
    (psbtIn : PartiallySignedInput) (inputIndex : ℕ) : Method Unit := do
  let found ← Procedure.ofExcept (findInput inputIndex masterFp psbtIn)
  let s ← get
  let bip44Account ← Procedure.ofExcept (checkAccount s.bip44Account found.account)
  let config ← scriptConfigFromUtxo R chain device policyScriptConfig s.psbt.xpub found.utxo
    found.keypath psbtIn.redeemScript psbtIn.witnessScript
  modify fun s =>
    let (scriptConfigIndex, scriptConfigs) := addScriptConfig config s.scriptConfigs
    { s with
      foundPubkeys := s.foundPubkeys ++ [found.foundPubkey]
      bip44Account
      scriptConfigs
      inputs := s.inputs ++ [inputEntry psbtIn found scriptConfigIndex] }

/-! ### Outputs -/

/-- The path of an output that is treated as change: an own key whose path has a 1
as its last element but one. -/
def changeKeypath (masterFp : Bytes) (keypaths : Dict Bytes KeyOriginInfo) :
    Except Exc (Option (List ℤ)) :=
  match findOurKey masterFp keypaths with
  | none => .ok none
  | some (_, keypath) => match keypath.reverse with
    | [] => .ok none
    | [_] => .error .indexError
    | _ :: change :: _ => .ok (if change = 1 then some keypath else none)

def externalOutput (outputIndex : ℕ) (txOut : CTxOut) : Except Exc BTCOutput :=
  let script := txOut.scriptPubKey
  if isP2pkh script then .ok (.external .P2PKH ((script.take 23).drop 3) txOut.nValue)
  else if isP2wpkh script then .ok (.external .P2WPKH (script.drop 2) txOut.nValue)
  else if isP2sh script then .ok (.external .P2SH ((script.take 22).drop 2) txOut.nValue)
  else if isP2wsh script then .ok (.external .P2WSH (script.drop 2) txOut.nValue)
  else if isP2tr script then .ok (.external .P2TR (script.drop 2) txOut.nValue)
  else .error (.badArgumentError ("Output type not recognized of output " ++ toString outputIndex))

/-- An output and its path, if it is treated as change. -/
def findOutput (masterFp : Bytes) (psbtOut : PartiallySignedOutput) :
    Except Exc (CTxOut × Option (List ℤ)) := do
  let txOut ← psbtOut.getTxout
  let keypaths ← keyOriginInfos psbtOut.hdKeypaths psbtOut.tapInternalKey psbtOut.tapBip32Paths
  let change ← changeKeypath masterFp keypaths
  return (txOut, change)

/-- One pass of the loop over the outputs. -/
def signOutput (R : Runtime) (chain : Chain) (device : Device)
    (policyScriptConfig : Option BTCScriptConfigWithKeypath) (masterFp : Bytes)
    (psbtOut : PartiallySignedOutput) (outputIndex : ℕ) : Method Unit := do
  match ← Procedure.ofExcept (findOutput masterFp psbtOut) with
  | (txOut, some keypath) => do
    let s ← get
    let config ← scriptConfigFromUtxo R chain device policyScriptConfig s.psbt.xpub txOut keypath
      psbtOut.redeemScript psbtOut.witnessScript
    modify fun s =>
      let (scriptConfigIndex, scriptConfigs) := addScriptConfig config s.scriptConfigs
      { s with
        scriptConfigs
        outputs := s.outputs ++ [.internal keypath txOut.nValue scriptConfigIndex] }
  | (txOut, none) => do
    let output ← Procedure.ofExcept (externalOutput outputIndex txOut)
    modify fun s => { s with outputs := s.outputs ++ [output] }

/-! ### Signing -/

/-- Register the one configuration if it is a multisig. -/
def registerMultisig (chain : Chain) (device : Device) :
    List BTCScriptConfigWithKeypath → Method Unit
  | [config] => match config.scriptConfig with
    | .multisig _ => maybeRegisterScriptConfig chain device config.scriptConfig config.keypath
    | _ => return
  | _ => return

/-- An input with its signature. -/
def storeIn (sig pubkey : Bytes) (psbtIn : PartiallySignedInput) :
    Except Exc PartiallySignedInput :=
  if 0 < psbtIn.tapInternalKey.length then
    -- taproot keypath input
    .ok { psbtIn with tapKeySig := sig }
  else do
    -- serSigDer adds SIGHASH_ALL
    let der ← serSigDer (sig.take 32) ((sig.take 64).drop 32)
    return { psbtIn with partialSigs := psbtIn.partialSigs.set pubkey der }

/-- `for (_, sig), pubkey, psbt_in in zip(sigs, found_pubkeys, psbt.inputs): ...` -/
def storeSignatures : List (ℕ × Bytes) → List Bytes → List PartiallySignedInput →
    Except Exc (List PartiallySignedInput)
  | (_, sig) :: sigs, pubkey :: pubkeys, psbtIn :: psbtIns => do
    let psbtIn ← storeIn sig pubkey psbtIn
    let psbtIns ← storeSignatures sigs pubkeys psbtIns
    return psbtIn :: psbtIns
  | _, _, psbtIns => .ok psbtIns

/-- The request for signatures. -/
def sendSign (chain : Chain) (device : Device) : Method (List (ℕ × Bytes)) := do
  let s ← get
  match s.psbt.txVersion with
  | none => throw .assertionError
  | some version => do
    let locktime ← Procedure.ofExcept s.psbt.computeLockTime
    makeRequest device (.btcSign {
      coin := getCoin chain
      scriptConfigs := s.scriptConfigs
      inputs := s.inputs
      outputs := s.outputs
      locktime
      version })

/-- `sign_tx`. The signatures of a call that raises while it stores them are lost
with it. -/
def signTx (R : Runtime) (chain : Chain) (device : Device)
    (registeredDescriptors : List RegisteredDescriptor) : Method PSBT :=
  EStateM.adaptExcept (adaptError "sign_tx") do
    let policyScriptConfig ← findPolicy R chain device registeredDescriptors
    let masterFp ← getMasterFingerprint device
    let s ← get
    forM s.psbt.inputs.zipIdx fun (psbtIn, inputIndex) =>
      signInput R chain device policyScriptConfig masterFp psbtIn inputIndex
    forM s.psbt.outputs.zipIdx fun (psbtOut, outputIndex) =>
      signOutput R chain device policyScriptConfig masterFp psbtOut outputIndex
    let s ← get
    if s.bip44Account.isNone then throw .assertionError
    registerMultisig chain device s.scriptConfigs
    let sigs ← sendSign chain device
    let s ← get
    let inputs ← Procedure.ofExcept (storeSignatures sigs s.foundPubkeys s.psbt.inputs)
    modify fun s => { s with psbt := { s.psbt with inputs } }
    let s ← get
    return s.psbt

end Bitbox02Client

end Hwi
