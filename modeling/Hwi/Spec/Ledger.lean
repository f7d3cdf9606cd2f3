import Hwi.Lib.LastWrite
import Hwi.Lib.Procedure
import Hwi.Spec.LedgerWallet
import Hwi.Spec.PsbtVersion
import Hwi.Spec.Script

/-! `sign_tx` of `ledger.py` for the apps that are not legacy, over the client of
`ledger_bitcoin/client.py`. A command counts as one exchange: what the device
answers in the end, and what it yielded on the way. -/

namespace Hwi

namespace LedgerBitcoin

/-- A command of the client. A registration carries the input it is made for,
which is not sent. -/
inductive Request
  | getMasterFingerprint
  | getExtendedPubkey (path : List ℤ) (display : Bool)
  | registerWallet (inputNum : ℕ) (wallet : MultisigWallet)
  | signPsbt (psbt : Bytes) (wallet : WalletPolicy) (walletHmac : Option Bytes)
deriving DecidableEq, Repr

/-- The status word, the response, and the values yielded by the command. -/
structure Response where
  sw : ℕ
  response : Bytes
  yielded : List Bytes := []
deriving DecidableEq, Repr

/-- A transport or the client's command interpreter may raise. -/
abbrev Reply := Except Exc Response

abbrev Exchange := Request × Reply

/-- A device answers from what was exchanged so far. -/
abbrev Device := List Exchange → Request → Reply

/-- A wallet to sign with. -/
structure SigningWallet where
  priority : ℕ
  addrtype : AddressType
  wallet : WalletPolicy
  walletHmac : Option Bytes
deriving DecidableEq, Repr

/-- The caller's PSBT, the working copy, the wallets that sign, and the
exchanges with the device. -/
structure Session where
  psbt : PSBT
  psbt2 : PSBT
  wallets : Dict Bytes SigningWallet := ∅
  exchanges : List Exchange := []

abbrev Method := Procedure Exc Session

/-- `_make_request`, and the check of the status word every command makes. -/
def makeRequest (device : Device) (request : Request) : Method Response := do
  let s ← get
  let reply := device s.exchanges request
  modify fun s => { s with exchanges := s.exchanges ++ [(request, reply)] }
  let r ← Procedure.ofExcept reply
  if r.sw ≠ 0x9000 then throw (.deviceException r.sw)
  return r

/-! ### The client -/

/-- `int(p).to_bytes(4, byteorder="big")` -/
def fitsWord (index : ℤ) : Bool := 0 ≤ index ∧ index < 2 ^ 32

/-- `get_extended_pubkey`. Its path string is made from the hardened indices and
read back. -/
def getExtendedPubkey (device : Device) (path : List ℤ) (display : Bool) : Method Str := do
  if !path.all fitsWord then throw .overflowError
  let r ← makeRequest device (.getExtendedPubkey path display)
  Procedure.ofExcept (utf8Decode r.response)

/-- `register_wallet`: the hmac of the registered wallet. -/
def registerWallet (R : Runtime) (device : Device) (inputNum : ℕ) (wallet : MultisigWallet) :
    Method Bytes := do
  let _ ← Procedure.ofExcept (wallet.serialize R)
  let r ← makeRequest device (.registerWallet inputNum wallet)
  if r.response.length ≠ 64 then
    throw (.runtimeError ("Invalid response length: " ++ toString r.response.length))
  return (r.response.drop 32).take 32

structure PartialSignature where
  pubkey : Bytes
  signature : Bytes
  tapleafHash : Option Bytes := none
deriving DecidableEq, Repr

def makePartialSignature (pubkeyAugm signature : Bytes) : Except Exc PartialSignature :=
  if pubkeyAugm.length = 64 then
    -- tapscript spend: the x-only pubkey and the tapleaf hash
    .ok { signature, pubkey := pubkeyAugm.take 32, tapleafHash := some (pubkeyAugm.drop 32) }
  else if pubkeyAugm.length ∉ [32, 33] then
    .error (.unknownDeviceError ("Invalid pubkey length returned: " ++ toString pubkeyAugm.length))
  else .ok { signature, pubkey := pubkeyAugm }

def readVarint : Read ℕ := do
  let b ← read 1
  match b with
  | [] => throw (.valueError "Can't read prefix: 'b'''!")
  | first :: _ =>
    let n := if first = 0xfd then 2 else if first = 0xfe then 4 else if first = 0xff then 8 else 1
    let b ← if n > 1 then read n else pure b
    if b.length ≠ n then throw (.valueError "Can't read varint!")
    pure (ofLE b)

/-- `_decode_signpsbt_yielded_value`: the input index and the signature. -/
def decodeSignpsbtYieldedValue (res : Bytes) : Except Exc (ℕ × PartialSignature) :=
  runOn (do
    let inputIndex ← readVarint
    let b ← read 1
    if b.length < 1 then throw (.valueError "Can't read u8 in buffer!")
    let pubkeyAugm ← read (ofLE b)
    let signature ← readAll
    let obj ← Reader.ofExcept (makePartialSignature pubkeyAugm signature)
    pure (inputIndex, obj)) res

/-- The signatures of a successful `sign_psbt`. -/
def parseResults (results : List Bytes) : Except Exc (List (ℕ × PartialSignature)) := do
  if results.any fun x => x.length ≤ 1 then throw (.runtimeError "Invalid response")
  results.mapM decodeSignpsbtYieldedValue

/-- `sign_psbt` with a PSBT of version 2. -/
def signPsbt (R : Runtime) (device : Device) (psbt : PSBT) (wallet : WalletPolicy)
    (walletHmac : Option Bytes) : Method (List (ℕ × PartialSignature)) := do
  if psbt.version ≠ 2 then throw .assertionError
  let psbtBytes ← Procedure.ofExcept (psbt.serializeBytes R)
  let _ ← Procedure.ofExcept (wallet.serialize R)
  let r ← makeRequest device (.signPsbt psbtBytes wallet walletHmac)
  Procedure.ofExcept (parseResults r.yielded)

end LedgerBitcoin

open LedgerBitcoin

namespace LedgerClient

/-- Higher number is lower priority. -/
def signingPriority : AddressType → ℕ
  | .tap => 0
  | .wit => 1
  | .shWit => 2
  | .legacy => 3

/-- `ledger_exception`. The client turns the other exceptions the decorator
looks for into status words. -/
def ledgerException {α : Type} (f : Method α) : Method α :=
  EStateM.adaptExcept (fun e => match e with
    | .valueError msg => .badArgumentError msg
    | e => if e.isValueError then .badArgumentError "" else e) f

def getMasterFingerprint (device : Device) : Method Bytes :=
  ledgerException do
    let r ← makeRequest device .getMasterFingerprint
    return r.response

def getPubkeyAtPath (device : Device) (path : List ℤ) : Method ExtendedKey :=
  ledgerException do
    let xpubStr ← tryCatch (getExtendedPubkey device path false) fun e =>
      -- We will get not supported for non-standard paths
      if e = .deviceException 0x6A82 then getExtendedPubkey device path true else throw e
    Procedure.ofExcept (ExtendedKey.deserialize xpubStr)

def singlesigTemplate : AddressType → Str
  | .legacy => "pkh(@0/**)".toList
  | .wit => "wpkh(@0/**)".toList
  | .shWit => "sh(wpkh(@0/**))".toList
  | .tap => "tr(@0/**)".toList

def getSinglesigDefaultWalletPolicy (R : Runtime) (chain : Chain) (device : Device)
    (addrType : AddressType) (account : ℤ) : Method WalletPolicy := do
  let path := [harden (getBip44Purpose addrType), harden (getBip44Chain chain), harden account]
  -- Build a PubkeyProvider for the key we're going to use
  let fingerprint ← getMasterFingerprint device
  let key ← getPubkeyAtPath device path
  let xpub ← Procedure.ofExcept (key.toString R)
  let keyStr ← Procedure.ofExcept (keyExpression { fingerprint, path } xpub)
  return { name := [], descriptorTemplate := singlesigTemplate addrType, keysInfo := [keyStr] }

/-- What the driver asks of a registered descriptor. -/
structure RegisteredDescriptor where
  serialized : Str
  name : Str
  bip388Template : Except Exc Str
  bip388KeyInfo : Except Exc (List Str)
  addressType : Option AddressType
  registration : Bytes

def addWallet (id : Bytes) (wallet : SigningWallet) : Method Unit :=
  modify fun s => { s with wallets := s.wallets.set id wallet }

def addRegistered (R : Runtime) (registered : RegisteredDescriptor) : Method Unit := do
  let descriptorTemplate ← Procedure.ofExcept registered.bip388Template
  let keysInfo ← Procedure.ofExcept registered.bip388KeyInfo
  let wallet : WalletPolicy := { name := registered.name, descriptorTemplate, keysInfo }
  match registered.addressType with
  | none => throw (.badArgumentError "Registered descriptor does not have an address type")
  | some addrtype => do
    let id ← Procedure.ofExcept (wallet.id R)
    addWallet id {
      priority := signingPriority addrtype, addrtype, wallet,
      walletHmac := some registered.registration }

/-! ### Which wallets sign an input -/

/-- The output an input spends, with the check of its non-witness UTXO. -/
def findUtxo (inputNum : ℕ) (psbtIn : PartiallySignedInput) : Except Exc (Option CTxOut) :=
  match psbtIn.nonWitnessUtxo with
  | none => .ok psbtIn.witnessUtxo
  | some nonWitnessUtxo =>
    if some psbtIn.prevTxid ≠ nonWitnessUtxo.hash then
      .error (.badArgumentError
        ("Input " ++ toString inputNum ++ " has a non_witness_utxo with the wrong hash"))
    else match psbtIn.prevOut with
      | none => .error .assertionError
      | some prevOut => match nonWitnessUtxo.vout[prevOut]? with
        | none => .error .indexError
        | some utxo => .ok (some utxo)

/-- The address type of a script code; `none` where the input is skipped. -/
def findScriptAddrtype (p2sh : Bool) (scriptcode : Bytes) : Except Exc (Option AddressType) :=
  let (isWit, witVer, _) := isWitness scriptcode
  if isWit then
    if p2sh then
      if witVer = 0 then .ok (some .shWit)
      else .error (.badArgumentError "Cannot have witness v1+ in p2sh")
    else if witVer = 0 then .ok (some .wit)
    else if witVer = 1 then .ok (some .tap)
    else .ok none
  else .ok (some .legacy)

/-- The script code of an input and its address type, from the script of the
output or the redeem script; `none` where the input is skipped. -/
def findWitnessScript (psbtIn : PartiallySignedInput) (p2sh : Bool) (scriptcode : Bytes) :
    Except Exc (Option (Bytes × AddressType)) :=
  match findScriptAddrtype p2sh scriptcode with
  | .error e => .error e
  | .ok none => .ok none
  | .ok (some scriptAddrtype) =>
    -- Check if P2WSH
    if isP2wsh scriptcode then
      if psbtIn.witnessScript.length = 0 then .ok none
      else .ok (some (psbtIn.witnessScript, scriptAddrtype))
    else .ok (some (scriptcode, scriptAddrtype))

def findScriptcode (psbtIn : PartiallySignedInput) (utxo : CTxOut) :
    Except Exc (Option (Bytes × AddressType)) :=
  if isP2sh utxo.scriptPubKey then
    if psbtIn.redeemScript.length = 0 then .ok none
    else findWitnessScript psbtIn true psbtIn.redeemScript
  else findWitnessScript psbtIn false utxo.scriptPubKey

/-- Whether an xpub is a parent of a key. -/
def isParent (xpubOrigin pkOrigin : KeyOriginInfo) : Bool :=
  xpubOrigin.fingerprint = pkOrigin.fingerprint ∧
    xpubOrigin.path = pkOrigin.path.take xpubOrigin.path.length

/-- The key expression of the first xpub that is a parent of a key. -/
def findXpub (R : Runtime) (pkOrigin : KeyOriginInfo) :
    List (Bytes × KeyOriginInfo) → Except Exc (Option Str)
  | [] => .ok none
  | (xpubBytes, xpubOrigin) :: rest => do
    let xpub ← ExtendedKey.fromBytes xpubBytes
    if isParent xpubOrigin pkOrigin then
      let xpubStr ← xpub.toString R
      let expr ← keyExpression xpubOrigin xpubStr
      return some expr
    else findXpub R pkOrigin rest

/-- What a key of the script adds to the key expressions, and whether it leaves
`ok` as it is. -/
def findKeyExpr (R : Runtime) (xpubs hdKeypaths : Dict Bytes KeyOriginInfo) (pub : Bytes) :
    Except Exc (List Str × Bool) :=
  match hdKeypaths.get? pub with
  | none => .ok ([], true)
  | some pkOrigin => do
    match ← findXpub R pkOrigin xpubs.items with
    | some expr => return ([expr], true)
    -- No xpub, Ledger will not accept this multisig
    | none => return ([], false)

/-- Figure out the parent xpubs: the key expressions, and `ok`. -/
def findKeyExprs (R : Runtime) (xpubs hdKeypaths : Dict Bytes KeyOriginInfo) :
    List Bytes → Except Exc (List Str × Bool)
  | [] => .ok ([], true)
  | pub :: rest => do
    let (keyExpr, found) ← findKeyExpr R xpubs hdKeypaths pub
    let (keyExprs, ok) ← findKeyExprs R xpubs hdKeypaths rest
    return (keyExpr ++ keyExprs, found && ok)

/-- Make and register the wallet of a multisig script. -/
def addMultisig (R : Runtime) (device : Device) (inputNum : ℕ) (psbtIn : PartiallySignedInput)
    (scriptAddrtype : AddressType) (k : ℕ) (msPubkeys : List Bytes) : Method Unit := do
  let s ← get
  let (keyExprs, ok) ← Procedure.ofExcept
    (findKeyExprs R s.psbt2.xpub psbtIn.hdKeypaths msPubkeys)
  if !ok then return
  let name := str k ++ " of ".toList ++ str keyExprs.length ++ " Multisig".toList
  let msw ← Procedure.ofExcept (MultisigWallet.new name scriptAddrtype k keyExprs)
  let mswId ← Procedure.ofExcept (msw.id R)
  if s.wallets.contains mswId then return
  let registeredHmac ← registerWallet R device inputNum msw
  addWallet mswId {
    priority := signingPriority scriptAddrtype, addrtype := scriptAddrtype,
    wallet := msw.toWalletPolicy, walletHmac := some registeredHmac }

/-- `process_origin`. The policy is asked for twice. -/
def processOrigin (R : Runtime) (chain : Chain) (device : Device) (scriptAddrtype : AddressType)
    (origin : KeyOriginInfo) : Method Unit := do
  match origin.path with
  | [_, _, account, _, _] =>
    if isStandardPath origin.path scriptAddrtype chain then
      let policy ← getSinglesigDefaultWalletPolicy R chain device scriptAddrtype account
      let wallet ← getSinglesigDefaultWalletPolicy R chain device scriptAddrtype account
      let id ← Procedure.ofExcept (policy.id R)
      addWallet id {
        priority := signingPriority scriptAddrtype, addrtype := scriptAddrtype, wallet,
        walletHmac := none }
  | _ => return

/-- The origins of the device's keys that sign an input on their own. -/
def ownOrigins (masterFp : Bytes) (psbtIn : PartiallySignedInput) : List KeyOriginInfo :=
  (psbtIn.hdKeypaths.items.filterMap fun (_, origin) =>
    if origin.fingerprint = masterFp then some origin else none) ++
  psbtIn.tapBip32Paths.items.filterMap fun (key, _, origin) =>
    -- TODO: Support script path signing
    if key = psbtIn.tapInternalKey ∧ origin.fingerprint = masterFp then some origin else none

def setWitnessUtxo (inputNum : ℕ) (utxo : CTxOut) (psbt : PSBT) : PSBT :=
  { psbt with inputs := psbt.inputs.modify inputNum fun psbtIn =>
    { psbtIn with witnessUtxo := some utxo } }

/-- The wallets that sign for an output. -/
def findWalletsFor (R : Runtime) (chain : Chain) (device : Device) (masterFp : Bytes)
    (inputNum : ℕ) (psbtIn : PartiallySignedInput) (utxo : CTxOut) : Method Unit := do
  match ← Procedure.ofExcept (findScriptcode psbtIn utxo) with
  | none => return
  | some (scriptcode, scriptAddrtype) =>
    match ← Procedure.ofExcept (parseMultisig scriptcode) with
    | some (k, msPubkeys) => addMultisig R device inputNum psbtIn scriptAddrtype k msPubkeys
    | none => forM (ownOrigins masterFp psbtIn) (processOrigin R chain device scriptAddrtype)

/-- Figure out which wallets sign an input of the working copy. -/
def findWallets (R : Runtime) (chain : Chain) (device : Device) (masterFp : Bytes)
    (inputNum : ℕ) (psbtIn : PartiallySignedInput) : Method Unit := do
  match ← Procedure.ofExcept (findUtxo inputNum psbtIn) with
  | none => return
  | some utxo =>
    -- Make sure that all inputs have witness_utxo too as signing mixed will fail
    if psbtIn.nonWitnessUtxo.isSome then
      modify fun s => { s with psbt2 := setWitnessUtxo inputNum utxo s.psbt2 }
    findWalletsFor R chain device masterFp inputNum psbtIn utxo

/-! ### Signing -/

/-- Remove `witness_utxo` of the legacy inputs. -/
def stripWitnessUtxos (psbt : PSBT) : PSBT :=
  { psbt with inputs := psbt.inputs.map fun psbtIn =>
    match psbtIn.witnessUtxo with
    | none => psbtIn
    | some utxo =>
      if (isWitness utxo.scriptPubKey).1 then psbtIn else { psbtIn with witnessUtxo := none } }

/-- The output an input spends when its signature is stored. -/
def signedUtxo (psbtIn : PartiallySignedInput) : Except Exc CTxOut :=
  match psbtIn.nonWitnessUtxo with
  | some nonWitnessUtxo => match psbtIn.prevOut with
    | none => .error .assertionError
    | some prevOut => match nonWitnessUtxo.vout[prevOut]? with
      | none => .error .indexError
      | some utxo => .ok utxo
  | none => match psbtIn.witnessUtxo with
    | none => .error .assertionError
    | some utxo => .ok utxo

def storeIn (utxo : CTxOut) (yielded : PartialSignature) (psbtIn : PartiallySignedInput) :
    PartiallySignedInput :=
  let (isWit, witVer, _) := isWitness utxo.scriptPubKey
  if isWit ∧ 1 ≤ witVer then
    match yielded.tapleafHash with
    | none => { psbtIn with tapKeySig := yielded.signature }
    | some tapleafHash => { psbtIn with
        tapScriptSigs := psbtIn.tapScriptSigs.set (yielded.pubkey, tapleafHash) yielded.signature }
  else { psbtIn with partialSigs := psbtIn.partialSigs.set yielded.pubkey yielded.signature }

/-- Store a signature in the working copy. -/
def storeSignature (idx : ℕ) (yielded : PartialSignature) : Method Unit := do
  let s ← get
  match s.psbt2.inputs[idx]? with
  | none => throw .indexError
  | some psbtIn =>
    let utxo ← Procedure.ofExcept (signedUtxo psbtIn)
    modify fun s => { s with psbt2 := { s.psbt2 with
      inputs := s.psbt2.inputs.modify idx (storeIn utxo yielded) } }

/-- Sign with a wallet. -/
def signWith (R : Runtime) (device : Device) (wallet : SigningWallet) : Method Unit := do
  if wallet.addrtype = .legacy then
    modify fun s => { s with psbt2 := stripWitnessUtxos s.psbt2 }
  let s ← get
  let inputSigs ← signPsbt R device s.psbt2 wallet.wallet wallet.walletHmac
  forM inputSigs fun (idx, yielded) => storeSignature idx yielded

/-- Extract the sigs of an input of the working copy. -/
def mergeInput (sigIn psbtIn : PartiallySignedInput) : PartiallySignedInput :=
  { psbtIn with
    partialSigs := psbtIn.partialSigs.update sigIn.partialSigs
    tapScriptSigs := psbtIn.tapScriptSigs.update sigIn.tapScriptSigs
    tapKeySig :=
      if sigIn.tapKeySig.length ≠ 0 ∧ psbtIn.tapKeySig.length = 0 then sigIn.tapKeySig
      else psbtIn.tapKeySig }

/-- `for sig_in, psbt_in in zip(psbt2.inputs, psbt.inputs): ...` -/
def mergeInputs : List PartiallySignedInput → List PartiallySignedInput → List PartiallySignedInput
  | sigIn :: sigIns, psbtIn :: psbtIns => mergeInput sigIn psbtIn :: mergeInputs sigIns psbtIns
  | _, psbtIns => psbtIns

/-- The copy of the PSBT, in version 2. -/
def workingCopy (psbt : PSBT) : PSBT :=
  if psbt.version ≠ 2 then
    match PSBT.convertToV2.run psbt with
    | .ok _ psbt2 => psbt2
    | .error _ psbt2 => psbt2
  else psbt

/-- `sign_tx`: the caller's PSBT is changed in place and returned. -/
def signTx (R : Runtime) (chain : Chain) (device : Device)
    (registeredDescriptors : List RegisteredDescriptor) : Method Unit :=
  ledgerException do
    let masterFp ← getMasterFingerprint device
    modify fun s => { s with psbt2 := workingCopy s.psbt }
    -- Figure out which wallets are signing
    forM (registeredDescriptors.insertionSort fun a b => !decide (b.serialized < a.serialized))
      (addRegistered R)
    let s ← get
    forM s.psbt2.inputs.zipIdx fun (psbtIn, inputNum) =>
      findWallets R chain device masterFp inputNum psbtIn
    -- For each wallet, sign
    let s ← get
    forM (s.wallets.values.insertionSort fun a b => a.priority ≤ b.priority) (signWith R device)
    -- Extract the sigs from psbt2 and put them into tx
    modify fun s => { s with psbt := { s.psbt with
      inputs := mergeInputs s.psbt2.inputs s.psbt.inputs } }

/-- The state a call starts from. -/
def start (psbt : PSBT) : Session := { psbt, psbt2 := psbt }

end LedgerClient

end Hwi
