import Hwi.Format.Bitbox02
import Hwi.Format.Multisig
import Hwi.Lib.Outcome

/-! The account of a PSBT, and when `sign_tx` of the BitBox02 ends with a `BadArgumentError`
before the device is asked for signatures: the first thing that the call does not get past
is then one of those that are listed here as refused. -/

namespace Hwi

namespace Bitbox02Client

open Bitbox02

/-! ### Chosen keys -/

/-- The origins of an input or an output; a Taproot one adds those of its Taproot keys. -/
def origins (hdKeypaths : Dict Bytes KeyOriginInfo) (tapInternalKey : Bytes)
    (tapBip32Paths : Dict Bytes (OrderedSet Bytes × KeyOriginInfo)) : Dict Bytes KeyOriginInfo :=
  if tapInternalKey = [] then hdKeypaths
  else tapBip32Paths.items.foldl (fun d e => d.set e.1 e.2.2) hdKeypaths

/-- The first key with the fingerprint of the device, and its path. -/
def Chosen (masterFp : Bytes) (origins : Dict Bytes KeyOriginInfo) (pubkey : Bytes)
    (keypath : List ℤ) : Prop :=
  ∃ before origin after, origins.items = before ++ (pubkey, origin) :: after ∧
    (∀ e ∈ before, e.2.fingerprint ≠ masterFp) ∧ origin.fingerprint = masterFp ∧
    origin.path = keypath

def InputKey (masterFp : Bytes) (psbtIn : PartiallySignedInput) : Bytes → List ℤ → Prop :=
  Chosen masterFp (origins psbtIn.hdKeypaths psbtIn.tapInternalKey psbtIn.tapBip32Paths)

def OutputKey (masterFp : Bytes) (psbtOut : PartiallySignedOutput) : Bytes → List ℤ → Prop :=
  Chosen masterFp (origins psbtOut.hdKeypaths psbtOut.tapInternalKey psbtOut.tapBip32Paths)

/-- A path of a change address. -/
def IsChange (keypath : List ℤ) : Prop := ∃ start address, keypath = start ++ [1, address]

/-- The chosen keys of the inputs and of the outputs that are change have one third element. -/
def SharesAccount (masterFp : Bytes) (psbt : PSBT) : Prop :=
  ∃ account,
    (∀ psbtIn ∈ psbt.inputs, ∀ pubkey keypath, InputKey masterFp psbtIn pubkey keypath →
      keypath[2]? = some account) ∧
    ∀ psbtOut ∈ psbt.outputs, ∀ pubkey keypath, OutputKey masterFp psbtOut pubkey keypath →
      IsChange keypath → keypath[2]? = some account

/-- The exceptions that leave `sign_tx` as a `BadArgumentError`. -/
inductive Refusal : Exc → Prop
  | badArgument (msg : String) : Refusal (.badArgumentError msg)
  | value {e : Exc} (h : e.isValueError = true) : Refusal e

section Answers

variable (R : Runtime) (chain : Chain) (device : Device) (masterFp : Bytes)

/-! ### Answers of the device -/

/-- The device raises such an exception when it is asked. -/
def Refuses (requests : List Request) (request : Request) : Prop :=
  ∃ e, device requests request = .error e ∧ Refusal e

/-- The device has an extended key for a path. -/
def XpubRead (requests : List Request) (keypath : List ℤ) (data : Bytes) : Prop :=
  ∃ xpub, device requests (.btcXpub keypath (getCoin chain)) = .ok xpub ∧
    Base58.decodeCheck R xpub = .ok data

/-- It does not say it, or what it says is not Base58Check. -/
def XpubRefused (requests : List Request) (keypath : List ℤ) : Prop :=
  Refuses device requests (.btcXpub keypath (getCoin chain)) ∨
    ∃ xpub, device requests (.btcXpub keypath (getCoin chain)) = .ok xpub ∧
      ∀ data, Base58.decodeCheck R xpub ≠ .ok data

/-! ### Multisig configurations -/

/-- A cosigner that may be the device. -/
def MayBeOurs (x : Bytes × KeyOriginInfo) : Prop := x.2.fingerprint = masterFp ∧ x.2.path ≠ []

/-- Whether a cosigner is the device, by the key that the device has at its path. The requests
so far and the cosigners so far go with it. -/
inductive CosignerSeen (x : Bytes × KeyOriginInfo) :
    List Request × List Bool → List Request × List Bool → Prop
  | other {requests : List Request} {ours : List Bool} (h : ¬MayBeOurs masterFp x) :
      CosignerSeen x (requests, ours) (requests, ours ++ [false])
  | asked {requests : List Request} {ours : List Bool} {data : Bytes} (h : MayBeOurs masterFp x)
      (hdata : XpubRead R chain device requests x.2.path data) :
      CosignerSeen x (requests, ours)
        (requests ++ [.btcXpub x.2.path (getCoin chain)], ours ++ [decide (data.drop 4 = x.1.drop 4)])

def CosignerRefused (x : Bytes × KeyOriginInfo) (seen : List Request × List Bool) : Prop :=
  MayBeOurs masterFp x ∧ XpubRefused R chain device seen.1 x.2.path

/-- The last of the cosigners that is the device. -/
def lastOurs (cosigners : List (Bytes × KeyOriginInfo)) (ours : List Bool) : Option (ℕ × List ℤ) :=
  (((cosigners.zip ours).zipIdx.filter fun x => x.1.2).getLast?).map fun x => (x.2, x.1.1.2.path)

/-- The fields of an extended key. -/
def xpubFields (data : Bytes) : XPub where
  depth := (data.drop 4).take 1
  parentFingerprint := (data.drop 5).take 4
  childNum := ofBE 256 (((data.drop 9).take 4).map UInt8.toNat)
  chainCode := (data.drop 13).take 32
  publicKey := (data.drop 45).take 33

/-- All cosigners have been seen. -/
def CosignersSeen (xpub : Dict Bytes KeyOriginInfo) (requests requests' : List Request)
    (our : Option (ℕ × List ℤ)) : Prop :=
  device requests .rootFingerprint = .ok masterFp ∧ ∃ ours,
    Steps (CosignerSeen R chain device masterFp) xpub.items (requests ++ [.rootFingerprint], [])
      (requests', ours) ∧ our = lastOurs xpub.items ours

/-- The configuration for a multisig script, of which the device is a cosigner. -/
inductive MultisigFound (xpub : Dict Bytes KeyOriginInfo) (threshold : ℕ) (scriptType : ScriptType)
    (requests : List Request) : BTCScriptConfigWithKeypath → List Request → Prop
  | mk {requests' : List Request} {i : ℕ} {keypath : List ℤ}
      (hcosigners : CosignersSeen R chain device masterFp xpub requests requests' (some (i, keypath)))
      (hlen : ∀ data ∈ xpub.keys, data.length ≤ 78) :
      MultisigFound xpub threshold scriptType requests {
        scriptConfig := .multisig {
          threshold, xpubs := xpub.keys.map xpubFields, ourXpubIndex := i, scriptType }
        keypath } requests'

inductive MultisigRefused (xpub : Dict Bytes KeyOriginInfo) (requests : List Request) : Prop
  | fingerprint (h : Refuses device requests .rootFingerprint)
  | cosigner (hfp : device requests .rootFingerprint = .ok masterFp)
      (h : FirstStop (CosignerSeen R chain device masterFp) (CosignerRefused R chain device masterFp)
        xpub.items (requests ++ [.rootFingerprint], []))
  | stranger {requests' : List Request}
      (h : CosignersSeen R chain device masterFp xpub requests requests' none)

/-! ### Script configurations -/

/-- What the BitBox02 signs for. -/
inductive ScriptKind
  | simple (t : SimpleType)
  | multisig (t : ScriptType)

def scriptKind? (script redeemScript : Bytes) : Option ScriptKind :=
  if isP2wpkh script then some (.simple .P2WPKH)
  else if isP2sh script ∧ isP2wpkh redeemScript then some (.simple .P2WPKH_P2SH)
  else if isP2tr script then some (.simple .P2TR)
  else if isP2wsh script then some (.multisig .P2WSH)
  else if isP2sh script ∧ isP2wsh redeemScript then some (.multisig .P2WSH_P2SH)
  else none

section Config

variable (policyScriptConfig : Option BTCScriptConfigWithKeypath) (xpub : Dict Bytes KeyOriginInfo)
  (script : Bytes) (keypath : List ℤ) (redeemScript witnessScript : Bytes) (requests : List Request)

/-- The configuration for a script, with the requests that it takes. -/
inductive ConfigFound : BTCScriptConfigWithKeypath → List Request → Prop
  | policy {config : BTCScriptConfigWithKeypath} (h : policyScriptConfig = some config) :
      ConfigFound config requests
  | simple {t : SimpleType} (hpolicy : policyScriptConfig = none)
      (hkind : scriptKind? script redeemScript = some (.simple t)) :
      ConfigFound { scriptConfig := .simpleType t, keypath := keypath.takeWhile isHardened } requests
  | multisig {t : ScriptType} {op : UInt8} {keys : List Bytes} {config : BTCScriptConfigWithKeypath}
      {requests' : List Request} (hpolicy : policyScriptConfig = none)
      (hkind : scriptKind? script redeemScript = some (.multisig t))
      (hscript : MultisigShaped witnessScript keys) (hop : witnessScript.head? = some op)
      (h : MultisigFound R chain device masterFp xpub (op.toNat - 80) t requests config requests') :
      ConfigFound config requests'

inductive ConfigRefused : Prop
  | kind (hpolicy : policyScriptConfig = none) (hkind : scriptKind? script redeemScript = none)
  | script {t : ScriptType} (hpolicy : policyScriptConfig = none)
      (hkind : scriptKind? script redeemScript = some (.multisig t)) (hne : witnessScript ≠ [])
      (hcut : ¬MultisigCut witnessScript) (hscript : ∀ keys, ¬MultisigShaped witnessScript keys)
  | multisig {t : ScriptType} {keys : List Bytes} (hpolicy : policyScriptConfig = none)
      (hkind : scriptKind? script redeemScript = some (.multisig t))
      (hscript : MultisigShaped witnessScript keys)
      (h : MultisigRefused R chain device masterFp xpub requests)

end Config

/-! ### The policy -/

/-- A key of the policy that may be the device's. -/
def Candidate (pubkey : PubkeyProvider) (origin : KeyOriginInfo) (extkey : ExtendedKey) : Prop :=
  pubkey.origin = some origin ∧ pubkey.extkey = some extkey ∧ origin.fingerprint = masterFp

/-- What the device says of a key of the policy, with the path of its own key. -/
inductive PolicyKeySeen (pubkey : PubkeyProvider) :
    List Request × Option (List ℤ) → List Request × Option (List ℤ) → Prop
  | other {seen : List Request × Option (List ℤ)}
      (h : ∀ origin extkey, ¬Candidate masterFp pubkey origin extkey) : PolicyKeySeen pubkey seen seen
  | foreign {requests : List Request} {found : Option (List ℤ)} {origin : KeyOriginInfo}
      {extkey : ExtendedKey} {deviceXpub data : Bytes} (h : Candidate masterFp pubkey origin extkey)
      (hread : XpubRead R chain device requests origin.path deviceXpub)
      (hdata : extkey.serialize = .ok data) (hne : deviceXpub.drop 4 ≠ data.drop 4) :
      PolicyKeySeen pubkey (requests, found)
        (requests ++ [.btcXpub origin.path (getCoin chain)], found)
  | ours {requests : List Request} {origin : KeyOriginInfo} {extkey : ExtendedKey}
      {deviceXpub data : Bytes} (h : Candidate masterFp pubkey origin extkey)
      (hread : XpubRead R chain device requests origin.path deviceXpub)
      (hdata : extkey.serialize = .ok data) (heq : deviceXpub.drop 4 = data.drop 4) :
      PolicyKeySeen pubkey (requests, none)
        (requests ++ [.btcXpub origin.path (getCoin chain)], some origin.path)

inductive PolicyKeyRefused (pubkey : PubkeyProvider) (seen : List Request × Option (List ℤ)) : Prop
  | xpub {origin : KeyOriginInfo} {extkey : ExtendedKey} (h : Candidate masterFp pubkey origin extkey)
      (hread : XpubRefused R chain device seen.1 origin.path)
  | keyless {origin : KeyOriginInfo} {extkey : ExtendedKey} {deviceXpub : Bytes}
      (h : Candidate masterFp pubkey origin extkey)
      (hread : XpubRead R chain device seen.1 origin.path deviceXpub)
      (hchild : extkey.childNum < 2 ^ 32) (hprivate : ExtendedKey.isPrivate extkey.version = true)
      (hkey : extkey.privkey = none)
  | twice {origin : KeyOriginInfo} {extkey : ExtendedKey} {deviceXpub data : Bytes}
      (h : Candidate masterFp pubkey origin extkey)
      (hread : XpubRead R chain device seen.1 origin.path deviceXpub)
      (hdata : extkey.serialize = .ok data) (heq : deviceXpub.drop 4 = data.drop 4)
      (hfound : seen.2 ≠ none)

/-- The keys of a policy have been seen. -/
def PolicySeen (descriptor : Descriptor) (requests : List Request) (found : Option (List ℤ)) : Prop :=
  device [] .rootFingerprint = .ok masterFp ∧
    Steps (PolicyKeySeen R chain device masterFp) descriptor.getPubkeyProviders
      ([.rootFingerprint], none) (requests, found)

/-- The key string is Base58Check, of no more bytes than an extended key has. -/
def KeyFits (pubkey : PubkeyProvider) : Prop :=
  ∃ data, Base58.decodeCheck R pubkey.pubkey = .ok data ∧ data.length ≤ 78

def KeyUnread (pubkey : PubkeyProvider) : Prop :=
  ∀ data, Base58.decodeCheck R pubkey.pubkey ≠ .ok data

/-- The policy that a call goes on with, after some requests. -/
inductive PolicyFound : List RegisteredDescriptor → Option BTCScriptConfigWithKeypath →
    List Request → Prop
  | none : PolicyFound [] none []
  | one {registered : RegisteredDescriptor} {requests : List Request} {keypath : List ℤ}
      {scriptConfig : BTCScriptConfig}
      (hseen : PolicySeen R chain device masterFp registered.descriptor requests (some keypath))
      (hconfig : bip388ScriptConfig R registered.descriptor = .ok scriptConfig) :
      PolicyFound [registered] (some { scriptConfig, keypath }) requests

inductive PolicyRefused : List RegisteredDescriptor → Prop
  | several {registered : List RegisteredDescriptor} (h : 2 ≤ registered.length) :
      PolicyRefused registered
  | fingerprint {registered : RegisteredDescriptor} (h : Refuses device [] .rootFingerprint) :
      PolicyRefused [registered]
  | key {registered : RegisteredDescriptor} (hfp : device [] .rootFingerprint = .ok masterFp)
      (h : FirstStop (PolicyKeySeen R chain device masterFp) (PolicyKeyRefused R chain device masterFp)
        registered.descriptor.getPubkeyProviders ([.rootFingerprint], none)) :
      PolicyRefused [registered]
  | stranger {registered : RegisteredDescriptor} {requests : List Request}
      (hseen : PolicySeen R chain device masterFp registered.descriptor requests none) :
      PolicyRefused [registered]
  | config {registered : RegisteredDescriptor} {requests : List Request} {keypath : List ℤ}
      (hseen : PolicySeen R chain device masterFp registered.descriptor requests (some keypath))
      (h : FirstBad (KeyFits R) (KeyUnread R) registered.descriptor.getPubkeyProviders) :
      PolicyRefused [registered]

end Answers

/-! ### Inputs and outputs -/

/-- What the loops have gathered that decides how a call goes on. -/
structure Seen where
  requests : List Request
  account : Option ℤ := none
  configs : List BTCScriptConfigWithKeypath := []

/-- `PSBT_IN_OUTPUT_INDEX` and `PSBT_IN_SEQUENCE` are there. -/
def Given (psbtIn : PartiallySignedInput) : Prop := psbtIn.prevOut ≠ none ∧ psbtIn.sequence ≠ none

def SighashAll (psbtIn : PartiallySignedInput) : Prop :=
  psbtIn.sighash = none ∨ psbtIn.sighash = some 0 ∨ psbtIn.sighash = some 1

/-- The output that an input spends. -/
inductive Spends (psbtIn : PartiallySignedInput) : CTxOut → Prop
  | nonWitness {tx : CTransaction} {sha256 n : ℕ} {utxo : CTxOut}
      (htx : psbtIn.nonWitnessUtxo = some tx) (hsha256 : tx.sha256 = some sha256)
      (hhash : psbtIn.prevTxid = serUint256 sha256) (hn : psbtIn.prevOut = some n)
      (hutxo : tx.vout[n]? = some utxo) : Spends psbtIn utxo
  | witness {utxo : CTxOut} (htx : psbtIn.nonWitnessUtxo = none)
      (hutxo : psbtIn.witnessUtxo = some utxo) : Spends psbtIn utxo

inductive SpendsRefused (psbtIn : PartiallySignedInput) : Prop
  | wrongHash {tx : CTransaction} {sha256 : ℕ} (htx : psbtIn.nonWitnessUtxo = some tx)
      (hsha256 : tx.sha256 = some sha256) (hhash : psbtIn.prevTxid ≠ serUint256 sha256)
  | missing (htx : psbtIn.nonWitnessUtxo = none) (hutxo : psbtIn.witnessUtxo = none)

/-- A Taproot key is recorded for a script path. -/
def ScriptPath (tapInternalKey : Bytes)
    (tapBip32Paths : Dict Bytes (OrderedSet Bytes × KeyOriginInfo)) : Prop :=
  tapInternalKey ≠ [] ∧ ∃ e ∈ tapBip32Paths.items, e.2.1.elems ≠ []

/-- A script that the BitBox02 pays to. -/
def KnownScript (script : Bytes) : Prop :=
  isP2pkh script = true ∨ isP2wpkh script = true ∨ isP2sh script = true ∨ isP2wsh script = true ∨
    isP2tr script = true

section Loops

variable (R : Runtime) (chain : Chain) (device : Device) (masterFp : Bytes)
  (policyScriptConfig : Option BTCScriptConfigWithKeypath) (xpub : Dict Bytes KeyOriginInfo)

/-- An input that the loop gets past. -/
inductive InputPasses (psbtIn : PartiallySignedInput) : Seen → Seen → Prop
  | mk {seen : Seen} {utxo : CTxOut} {pubkey : Bytes} {keypath : List ℤ} {account : ℤ}
      {config : BTCScriptConfigWithKeypath} {requests : List Request} (hgiven : Given psbtIn)
      (hsighash : SighashAll psbtIn) (hutxo : Spends psbtIn utxo)
      (hleaves : ¬ScriptPath psbtIn.tapInternalKey psbtIn.tapBip32Paths)
      (hkey : InputKey masterFp psbtIn pubkey keypath) (hpubkey : pubkey ≠ [])
      (haccount : keypath[2]? = some account) (hsame : ∀ a, seen.account = some a → a = account)
      (hconfig : ConfigFound R chain device masterFp policyScriptConfig xpub utxo.scriptPubKey keypath
        psbtIn.redeemScript psbtIn.witnessScript seen.requests config requests) :
      InputPasses psbtIn seen
        { requests, account := some account, configs := seen.configs ++ [config] }

/-- An input that ends the call with a `BadArgumentError`. -/
inductive InputRefused (psbtIn : PartiallySignedInput) (seen : Seen) : Prop
  | sighash (hgiven : Given psbtIn) (hsighash : ¬SighashAll psbtIn)
  | utxo (hgiven : Given psbtIn) (hsighash : SighashAll psbtIn) (hutxo : SpendsRefused psbtIn)
  | leaves {utxo : CTxOut} (hgiven : Given psbtIn) (hsighash : SighashAll psbtIn)
      (hutxo : Spends psbtIn utxo) (hleaves : ScriptPath psbtIn.tapInternalKey psbtIn.tapBip32Paths)
  | key {utxo : CTxOut} (hgiven : Given psbtIn) (hsighash : SighashAll psbtIn)
      (hutxo : Spends psbtIn utxo) (hleaves : ¬ScriptPath psbtIn.tapInternalKey psbtIn.tapBip32Paths)
      (hkey : ∀ pubkey keypath, InputKey masterFp psbtIn pubkey keypath → pubkey = [])
  | account {utxo : CTxOut} {pubkey : Bytes} {keypath : List ℤ} {account a : ℤ}
      (hgiven : Given psbtIn) (hsighash : SighashAll psbtIn) (hutxo : Spends psbtIn utxo)
      (hleaves : ¬ScriptPath psbtIn.tapInternalKey psbtIn.tapBip32Paths)
      (hkey : InputKey masterFp psbtIn pubkey keypath) (hpubkey : pubkey ≠ [])
      (haccount : keypath[2]? = some account) (hseen : seen.account = some a) (hne : a ≠ account)
  | config {utxo : CTxOut} {pubkey : Bytes} {keypath : List ℤ} {account : ℤ}
      (hgiven : Given psbtIn) (hsighash : SighashAll psbtIn) (hutxo : Spends psbtIn utxo)
      (hleaves : ¬ScriptPath psbtIn.tapInternalKey psbtIn.tapBip32Paths)
      (hkey : InputKey masterFp psbtIn pubkey keypath) (hpubkey : pubkey ≠ [])
      (haccount : keypath[2]? = some account) (hsame : ∀ a, seen.account = some a → a = account)
      (hconfig : ConfigRefused R chain device masterFp policyScriptConfig xpub utxo.scriptPubKey
        psbtIn.redeemScript psbtIn.witnessScript seen.requests)

/-- An output has its amount and its script. -/
def Payable (psbtOut : PartiallySignedOutput) : Prop := psbtOut.amount ≠ none ∧ psbtOut.script ≠ []

/-- An output without an own key, or with one whose path is not one of a change address.
A path of one element is neither. -/
def NotChange (psbtOut : PartiallySignedOutput) : Prop :=
  ∀ pubkey keypath, OutputKey masterFp psbtOut pubkey keypath →
    keypath.length ≠ 1 ∧ ¬IsChange keypath

/-- An output that the loop gets past. -/
inductive OutputPasses (psbtOut : PartiallySignedOutput) : Seen → Seen → Prop
  | change {seen : Seen} {pubkey : Bytes} {keypath : List ℤ} {config : BTCScriptConfigWithKeypath}
      {requests : List Request} (hpayable : Payable psbtOut)
      (hleaves : ¬ScriptPath psbtOut.tapInternalKey psbtOut.tapBip32Paths)
      (hkey : OutputKey masterFp psbtOut pubkey keypath) (hchange : IsChange keypath)
      (hconfig : ConfigFound R chain device masterFp policyScriptConfig xpub psbtOut.script keypath
        psbtOut.redeemScript psbtOut.witnessScript seen.requests config requests) :
      OutputPasses psbtOut seen { seen with requests, configs := seen.configs ++ [config] }
  | external {seen : Seen} (hpayable : Payable psbtOut)
      (hleaves : ¬ScriptPath psbtOut.tapInternalKey psbtOut.tapBip32Paths)
      (hkey : NotChange masterFp psbtOut) (hscript : KnownScript psbtOut.script) :
      OutputPasses psbtOut seen seen

/-- An output that ends the call with a `BadArgumentError`. -/
inductive OutputRefused (psbtOut : PartiallySignedOutput) (seen : Seen) : Prop
  | leaves (hpayable : Payable psbtOut)
      (hleaves : ScriptPath psbtOut.tapInternalKey psbtOut.tapBip32Paths)
  | config {pubkey : Bytes} {keypath : List ℤ} (hpayable : Payable psbtOut)
      (hleaves : ¬ScriptPath psbtOut.tapInternalKey psbtOut.tapBip32Paths)
      (hkey : OutputKey masterFp psbtOut pubkey keypath) (hchange : IsChange keypath)
      (hconfig : ConfigRefused R chain device masterFp policyScriptConfig xpub psbtOut.script
        psbtOut.redeemScript psbtOut.witnessScript seen.requests)
  | external (hpayable : Payable psbtOut)
      (hleaves : ¬ScriptPath psbtOut.tapInternalKey psbtOut.tapBip32Paths)
      (hkey : NotChange masterFp psbtOut) (hscript : ¬KnownScript psbtOut.script)

end Loops

/-! ### Calls -/

section Calls

variable (R : Runtime) (chain : Chain) (device : Device) (registered : List RegisteredDescriptor)
  (masterFp : Bytes) (psbt : PSBT)

/-- The policy and what has been requested when the loop over the inputs starts. -/
def Starts (policyScriptConfig : Option BTCScriptConfigWithKeypath) (seen : Seen) : Prop :=
  ∃ requests, PolicyFound R chain device masterFp registered policyScriptConfig requests ∧
    device requests .rootFingerprint = .ok masterFp ∧
    seen = { requests := requests ++ [.rootFingerprint] }

/-- The only configuration is a multisig, and the device does not register it. -/
inductive RegistrationRefused (seen : Seen) : Prop
  | mk {config : BTCScriptConfigWithKeypath} {multisig : Multisig} (hconfig : config ∈ seen.configs)
      (hone : ∀ c ∈ seen.configs, c = config) (hmultisig : config.scriptConfig = .multisig multisig)
      (h : Refuses device seen.requests (.btcIsScriptConfigRegistered (getCoin chain)
          config.scriptConfig config.keypath) ∨
        device seen.requests (.btcIsScriptConfigRegistered (getCoin chain) config.scriptConfig
          config.keypath) = .ok false ∧
          Refuses device
            (seen.requests ++ [.btcIsScriptConfigRegistered (getCoin chain) config.scriptConfig
              config.keypath])
            (.btcRegisterScriptConfig (getCoin chain) config.scriptConfig config.keypath []))

/-- The first thing that a call does not get past ends it with a `BadArgumentError`, and it
comes before the request for signatures. -/
inductive Refused : Prop
  | policy (h : PolicyRefused R chain device masterFp registered)
  | fingerprint {policyScriptConfig : Option BTCScriptConfigWithKeypath} {requests : List Request}
      (hpolicy : PolicyFound R chain device masterFp registered policyScriptConfig requests)
      (h : Refuses device requests .rootFingerprint)
  | input {policyScriptConfig : Option BTCScriptConfigWithKeypath} {seen : Seen}
      (hstarts : Starts R chain device registered masterFp policyScriptConfig seen)
      (h : FirstStop (InputPasses R chain device masterFp policyScriptConfig psbt.xpub)
        (InputRefused R chain device masterFp policyScriptConfig psbt.xpub) psbt.inputs seen)
  | output {policyScriptConfig : Option BTCScriptConfigWithKeypath} {seen seen' : Seen}
      (hstarts : Starts R chain device registered masterFp policyScriptConfig seen)
      (hinputs : Steps (InputPasses R chain device masterFp policyScriptConfig psbt.xpub) psbt.inputs
        seen seen')
      (h : FirstStop (OutputPasses R chain device masterFp policyScriptConfig psbt.xpub)
        (OutputRefused R chain device masterFp policyScriptConfig psbt.xpub) psbt.outputs seen')
  | registration {policyScriptConfig : Option BTCScriptConfigWithKeypath} {seen seen' seen'' : Seen}
      (hstarts : Starts R chain device registered masterFp policyScriptConfig seen)
      (hinputs : Steps (InputPasses R chain device masterFp policyScriptConfig psbt.xpub) psbt.inputs
        seen seen')
      (houtputs : Steps (OutputPasses R chain device masterFp policyScriptConfig psbt.xpub)
        psbt.outputs seen' seen'')
      (hne : psbt.inputs ≠ []) (h : RegistrationRefused chain device seen'')

/-- What is claimed of a call: a request for signatures is for one account, and a PSBT
whose keys are of several accounts is refused before. -/
structure AccountChecked : Prop where
  sent : ∀ sign, .btcSign sign ∈ ((signTx R chain device registered).after { psbt }).requests →
    ∃ account, sign.SharesAccount account
  refused : ¬SharesAccount masterFp psbt → ∃ msg s,
    (signTx R chain device registered).run { psbt } = .error (.badArgumentError msg) s ∧ Unsigned s

end Calls

end Bitbox02Client

end Hwi
