import Hwi.Lib.Procedure
import Hwi.Spec.Psbt
import Hwi.Spec.RegisteredDescriptor
import Hwi.Spec.Script

/-! `bitbox02.py`: multisig addresses and `sign_tx`. A call of the library counts
as one request; that `init` raises is a reply to it. -/

namespace Hwi

/-! ### Messages -/

namespace Bitbox02

inductive BTCCoin
  | BTC | TBTC
deriving DecidableEq, Repr

inductive SimpleType
  | P2WPKH_P2SH | P2WPKH | P2TR
deriving DecidableEq, Repr

inductive ScriptType
  | P2WSH | P2WSH_P2SH
deriving DecidableEq, Repr

/-- `common.XPub` -/
structure XPub where
  depth : Bytes
  parentFingerprint : Bytes
  childNum : ℕ
  chainCode : Bytes
  publicKey : Bytes
deriving DecidableEq, Repr

/-- `common.KeyOriginInfo` -/
structure PolicyKey where
  rootFingerprint : Bytes
  keypath : List ℤ
  xpub : XPub
deriving DecidableEq, Repr

structure Multisig where
  threshold : ℤ
  xpubs : List XPub
  ourXpubIndex : ℕ
  scriptType : ScriptType
deriving DecidableEq, Repr

inductive BTCScriptConfig
  | simpleType (simpleType : SimpleType)
  | multisig (multisig : Multisig)
  | policy (policy : Str) (keys : List PolicyKey)
deriving DecidableEq, Repr

/-- Two of these messages are equal exactly when `SerializeToString` is. -/
structure BTCScriptConfigWithKeypath where
  scriptConfig : BTCScriptConfig
  keypath : List ℤ
deriving DecidableEq, Repr

structure PrevTxInput where
  prevOutHash : Bytes
  prevOutIndex : ℕ
  signatureScript : Bytes
  sequence : ℕ
deriving DecidableEq, Repr

structure PrevTxOutput where
  value : ℤ
  pubkeyScript : Bytes
deriving DecidableEq, Repr

structure PrevTx where
  version : ℤ
  locktime : ℕ
  inputs : List PrevTxInput
  outputs : List PrevTxOutput
deriving DecidableEq, Repr

structure BTCInput where
  prevOutHash : Bytes
  prevOutIndex : ℕ
  prevOutValue : ℤ
  sequence : ℕ
  keypath : List ℤ
  scriptConfigIndex : ℕ
  prevTx : Option PrevTx
deriving DecidableEq, Repr

inductive OutputType
  | P2PKH | P2WPKH | P2SH | P2WSH | P2TR
deriving DecidableEq, Repr

inductive BTCOutput
  | internal (keypath : List ℤ) (value : ℤ) (scriptConfigIndex : ℕ)
  | external (outputType : OutputType) (payload : Bytes) (value : ℤ)
deriving DecidableEq, Repr

structure SignRequest where
  coin : BTCCoin
  scriptConfigs : List BTCScriptConfigWithKeypath
  inputs : List BTCInput
  outputs : List BTCOutput
  locktime : ℕ
  version : ℤ
deriving DecidableEq, Repr

/-- A call of the library. -/
inductive Request
  | rootFingerprint
  | btcXpub (keypath : List ℤ) (coin : BTCCoin)
  | btcIsScriptConfigRegistered (coin : BTCCoin) (scriptConfig : BTCScriptConfig) (keypath : List ℤ)
  | btcRegisterScriptConfig (coin : BTCCoin) (scriptConfig : BTCScriptConfig) (keypath : List ℤ)
      (name : Str)
  | btcAddress (keypath : List ℤ) (coin : BTCCoin) (scriptConfig : BTCScriptConfig)
  | btcSign (sign : SignRequest)
deriving DecidableEq, Repr

/-- What a call returns. -/
def Reply : Request → Type
  | .rootFingerprint => Bytes
  | .btcXpub _ _ => Str
  | .btcIsScriptConfigRegistered _ _ _ => Bool
  | .btcRegisterScriptConfig _ _ _ _ => Unit
  | .btcAddress _ _ _ => Str
  | .btcSign _ => List (ℕ × Bytes)

/-- A device answers from what was requested so far. -/
abbrev Device := List Request → (request : Request) → Except Exc (Reply request)

/-- The caller's PSBT, the requests, and what `sign_tx` has gathered. -/
structure Session where
  psbt : PSBT
  requests : List Request := []
  scriptConfigs : List BTCScriptConfigWithKeypath := []
  bip44Account : Option ℤ := none
  inputs : List BTCInput := []
  outputs : List BTCOutput := []
  foundPubkeys : List Bytes := []

abbrev Method := Procedure Exc Session

def makeRequest (device : Device) (request : Request) : Method (Reply request) := do
  let s ← get
  modify fun s => { s with requests := s.requests ++ [request] }
  Procedure.ofExcept (device s.requests request)

end Bitbox02

namespace Bitbox02Client

open Bitbox02

/-! ### Exceptions -/

def ERR_GENERIC : ℕ := 103
def ERR_INVALID_INPUT : ℕ := 101

/-- The message of a `BitBox02Error`. -/
def bitBox02ErrorMessage (msg : String) : String :=
  "Input error: " ++ msg ++ ". A keypath might be invalid. Supported keypaths are: " ++
    "m/49'/0'/<account'> for p2wpkh-p2sh; " ++
    "m/84'/0'/<account'> for p2wpkh; " ++
    "m/86'/0'/<account'> for p2tr; " ++
    "m/48'/0'/<account'>/2' for p2wsh multisig; " ++
    "m/48'/0'/<account'>/1' for p2wsh-p2sh multisig; " ++
    "m/48'/0'/<account'>' for any supported multisig; " ++
    "account can be between 0' and 99'; " ++
    "For address keypaths, append /0/<address index> for a receive and /1/<change index> for a change address."

/-- The exceptions that `bitbox02_exception` replaces around a function. -/
def adaptError (name : String) : Exc → Exc
  | .userAbortException => .actionCanceledError (name ++ " canceled")
  | .bitbox02Exception code msg =>
    if code = ERR_GENERIC ∨ code = ERR_INVALID_INPUT then
      .unavailableActionError
        (bitBox02ErrorMessage ("error code: " ++ toString code ++ ", message: " ++ msg))
    else .bitbox02Exception code msg
  | .firmwareVersionOutdatedException msg => .deviceNotReadyError msg
  | .valueError msg => .badArgumentError msg
  | e => if e.isValueError then .badArgumentError "" else e

/-! ### Helpers -/

def getCoin (chain : Chain) : BTCCoin := if chain = .main then .BTC else .TBTC

def getMasterFingerprint (device : Device) : Method Bytes := makeRequest device .rootFingerprint

/-- `_get_xpub`. The version of the key follows from the coin. -/
def getXpub (chain : Chain) (device : Device) (keypath : List ℤ) : Method Str :=
  makeRequest device (.btcXpub keypath (getCoin chain))

def keypathHardenedPrefix (keypath : List ℤ) : List ℤ := keypath.takeWhile isHardened

def xpubsEqualIgnoringVersion (xpub1 xpub2 : Bytes) : Bool := xpub1.drop 4 = xpub2.drop 4

def encodeCheck (R : Runtime) (b : Bytes) : Str := Base58.encode (b ++ (R.hash256 b).take 4)

/-- `util.parse_xpub` -/
def parseXpub (R : Runtime) (xpub : Str) : Except Exc XPub := do
  let decoded ← Base58.decodeCheck R xpub
  let decoded := decoded.drop 4
  if (decoded.drop 74).length ≠ 0 then throw .assertionError
  return {
    depth := decoded.take 1
    parentFingerprint := (decoded.drop 1).take 4
    childNum := ofBE 256 (((decoded.drop 5).take 4).map UInt8.toNat)
    chainCode := (decoded.drop 9).take 32
    publicKey := (decoded.drop 41).take 33 }

def maybeRegisterScriptConfig (chain : Chain) (device : Device) (scriptConfig : BTCScriptConfig)
    (keypath : List ℤ) : Method Unit := do
  let isRegistered : Bool ←
    makeRequest device (.btcIsScriptConfigRegistered (getCoin chain) scriptConfig keypath)
  if isRegistered then return
  else makeRequest device (.btcRegisterScriptConfig (getCoin chain) scriptConfig keypath [])

/-- Whether a cosigner is this device. -/
def isOurs (R : Runtime) (chain : Chain) (device : Device) (deviceFingerprint xpub : Bytes)
    (keyinfo : KeyOriginInfo) : Method Bool := do
  if deviceFingerprint = keyinfo.fingerprint ∧ keyinfo.path ≠ [] then do
    let deviceXpub ← getXpub chain device keyinfo.path
    let data ← Procedure.ofExcept (Base58.decodeCheck R deviceXpub)
    return xpubsEqualIgnoringVersion data xpub
  else return false

/-- The loop over the cosigners: the index and the path of the last one that is
this device. -/
def findOurXpub (R : Runtime) (chain : Chain) (device : Device) (deviceFingerprint : Bytes) :
    List (Bytes × KeyOriginInfo) → ℕ → Option (ℕ × List ℤ) → Method (Option (ℕ × List ℤ))
  | [], _, our => return our
  | (xpub, keyinfo) :: rest, i, our => do
    let ours ← isOurs R chain device deviceFingerprint xpub keyinfo
    findOurXpub R chain device deviceFingerprint rest (i + 1)
      (if ours then some (i, keyinfo.path) else our)

/-- `_multisig_scriptconfig`. The keys of a mapping differ, so the check for
duplicates never fails. -/
def multisigScriptconfig (R : Runtime) (chain : Chain) (device : Device) (threshold : ℤ)
    (originInfos : Dict Bytes KeyOriginInfo) (scriptType : ScriptType) :
    Method (Bytes × BTCScriptConfigWithKeypath) := do
  -- Figure out which of the cosigners is us.
  let deviceFingerprint ← getMasterFingerprint device
  match ← findOurXpub R chain device deviceFingerprint originInfos.items 0 none with
  | none => throw (.badArgumentError "This BitBox02 is not one of the cosigners")
  | some (ourXpubIndex, ourAccountKeypath) => do
    let xpubs ← Procedure.ofExcept
      (originInfos.keys.mapM fun xpub => parseXpub R (encodeCheck R xpub))
    return (originInfos.keys.getD ourXpubIndex [], {
      scriptConfig := .multisig { threshold, xpubs, ourXpubIndex, scriptType }
      keypath := ourAccountKeypath })

/-! ### Multisig addresses -/

/-- `set(p.get_deriv_path(0, 0) for p in ...)`: a list cannot be in a set. -/
def pathSuffixes : List PubkeyProvider → Except Exc (List (List ℤ))
  | [] => .ok []
  | p :: _ => do
    let _ ← p.getDerivPath 0 0
    throw .typeError

/-- The origins and the paths of the cosigners by their keys. -/
def cosigners : List PubkeyProvider → Dict Bytes KeyOriginInfo → Dict Bytes Str →
    Except Exc (Dict Bytes KeyOriginInfo × Dict Bytes Str)
  | [], keyOriginInfos, keypaths => .ok (keyOriginInfos, keypaths)
  | pk :: pks, keyOriginInfos, keypaths =>
    match pk.extkey, pk.origin with
    | some extkey, some origin => do
      let data ← extkey.serialize
      let keypath ← pk.getFullDerivationPath 0 0
      cosigners pks (keyOriginInfos.set data origin) (keypaths.set data keypath)
    | _, _ => .error .assertionError

def multisigScriptType : AddressType → Except Exc ScriptType
  | .shWit => .ok .P2WSH_P2SH
  | .wit => .ok .P2WSH
  | _ => .error (.badArgumentError
      "BitBox02 currently only supports the following multisig script types: P2WSH, P2WSH_P2SH")

/-- `keypaths[our_xpub]` -/
def ourKeypath (keypaths : Dict Bytes Str) (ourXpub : Bytes) : Except Exc (List ℤ) :=
  match keypaths.get? ourXpub with
  | none => .error .keyError
  | some keypath => parsePath keypath

def displayMultisigAddress (R : Runtime) (chain : Chain) (device : Device) (addrType : AddressType)
    (multisig : MultisigDescriptor) : Method Str :=
  EStateM.adaptExcept (adaptError "display_multisig_address") do
    if !multisig.isSorted then
      throw (.badArgumentError "BitBox02 only supports sortedmulti descriptors")
    let suffixes ← Procedure.ofExcept (pathSuffixes multisig.pubkeys)
    if suffixes.length ≠ 1 then
      -- the path after the account-level xpub, usually /<change>/<address>
      throw (.badArgumentError "All multisig path suffixes must be the same")
    -- Figure out which of the cosigners is us.
    let (keyOriginInfos, keypaths) ← Procedure.ofExcept (cosigners multisig.pubkeys ∅ ∅)
    let scriptType ← Procedure.ofExcept (multisigScriptType addrType)
    let (ourXpub, config) ←
      multisigScriptconfig R chain device multisig.thresh keyOriginInfos scriptType
    maybeRegisterScriptConfig chain device config.scriptConfig config.keypath
    let keypath ← Procedure.ofExcept (ourKeypath keypaths ourXpub)
    makeRequest device (.btcAddress keypath (getCoin chain) config.scriptConfig)

end Bitbox02Client

end Hwi
