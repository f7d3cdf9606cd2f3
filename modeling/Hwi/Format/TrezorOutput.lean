import Hwi.Format.TrezorRequest
import Hwi.Lib.LittleEndian

/-! What a signing request is to say of an output, and the outputs of which it
says so. -/

namespace Hwi

open Trezor

/-- The shortest push for data of its length. -/
def pushData (data : Bytes) : Bytes :=
  if data.length < 0x4c then UInt8.ofNat data.length :: data
  else if data.length < 0x100 then 0x4c :: UInt8.ofNat data.length :: data
  else if data.length < 0x10000 then 0x4d :: toLE 2 data.length ++ data
  else 0x4e :: toLE 4 data.length ++ data

/-- The prefixes of addresses. -/
structure AddressPrefixes where
  p2pkh : UInt8
  p2sh : UInt8
  hrp : Str

/-- The prefixes of the coin a request for a chain names. -/
def addressPrefixes : Chain → AddressPrefixes
  | .main => { p2pkh := 0x00, p2sh := 0x05, hrp := "bc".toList }
  | _ => { p2pkh := 0x6f, p2sh := 0xc4, hrp := "tb".toList }

/-- An address, decoded, stands for a script. -/
inductive AddressOf (R : Runtime) (chain : Chain) (addr : Str) : Bytes → Prop
  | p2pkh {hash : Bytes}
      (hdecode : Base58.decodeCheck R addr = .ok ((addressPrefixes chain).p2pkh :: hash))
      (hlen : hash.length = 20) : AddressOf R chain addr (p2pkhScript hash)
  | p2sh {hash : Bytes}
      (hdecode : Base58.decodeCheck R addr = .ok ((addressPrefixes chain).p2sh :: hash))
      (hlen : hash.length = 20) : AddressOf R chain addr (p2shScript hash)
  | segwit {script prog : Bytes} {v : ℕ}
      (hdecode : Bech32.decode (addressPrefixes chain).hrp addr = some (v, prog.map UInt8.toNat))
      (hscript : WitnessProgram script v prog) : AddressOf R chain addr script

/-- A request says which script an output has, or the path that replaces it. -/
structure Determines (R : Runtime) (chain : Chain) (script : Bytes) (txoutput : TxOutputType) :
    Prop where
  address : ∀ addr, txoutput.address = some addr → AddressOf R chain addr script
  opReturn : ∀ data, txoutput.opReturnData = some data → script = 0x6a :: pushData data
  present : txoutput.address = none → txoutput.opReturnData = none → txoutput.addressN ≠ []

namespace TrezorClient

/-! ### The outputs for which it does -/

/-- A script the keys of `hd_keypaths` stand for. -/
def HasKeyPath (script redeemScript : Bytes) : Prop :=
  isP2pkh script = true ∨ (∃ prog, WitnessProgram script 0 prog) ∨
    isP2sh script = true ∧ ∃ v prog, WitnessProgram redeemScript v prog ∧
      (prog.length = 20 ∨ prog.length = 32)

/-- The path of the device's last key among the origins. -/
def lastOwnPath (masterFp : Bytes) (hdKeypaths : Dict Bytes KeyOriginInfo) : Option (List ℤ) :=
  (hdKeypaths.items.filter fun e => e.2.fingerprint = masterFp).getLast?.map fun e => e.2.path

/-- The path of the internal key, if it is the device's. -/
def internalKeyPath (masterFp : Bytes) (psbtOut : PartiallySignedOutput) : Option (List ℤ) :=
  (psbtOut.tapBip32Paths.items.find? fun e =>
    e.1 = psbtOut.tapInternalKey ∧ e.2.2.fingerprint = masterFp).map fun e => e.2.2.path

/-- The path that replaces an output. -/
inductive ReplacedBy (masterFp : Bytes) (psbtOut : PartiallySignedOutput) : List ℤ → Prop
  | key {path : List ℤ} (hscript : HasKeyPath psbtOut.script psbtOut.redeemScript)
      (hpath : lastOwnPath masterFp psbtOut.hdKeypaths = some path) : ReplacedBy masterFp psbtOut path
  | taproot {path : List ℤ} {prog : Bytes} (hscript : WitnessProgram psbtOut.script 1 prog)
      (hpath : internalKeyPath masterFp psbtOut = some path) : ReplacedBy masterFp psbtOut path

/-- A request can say which script the output has. -/
structure Representable (masterFp : Bytes) (psbtOut : PartiallySignedOutput) : Prop where
  opReturn : psbtOut.script.head? = some 0x6a →
    ∃ data, psbtOut.script = 0x6a :: UInt8.ofNat data.length :: data ∧ data.length ≤ 75
  path : ∀ path, ReplacedBy masterFp psbtOut path → path ≠ []
  program : ∀ prog, WitnessProgram psbtOut.script 0 prog →
    prog.length = 20 ∨ prog.length = 32 ∨ ∃ path, ReplacedBy masterFp psbtOut path

/-- The call rejects the PSBT, or asks for signatures, and then the request can say which
script the output has. -/
def Payable (device : Device) (registeredDescriptors : Bool) (psbt : PSBT)
    (psbtOut : PartiallySignedOutput) : Prop :=
  registeredDescriptors = true ∨
    ¬Broken device psbt ∧ ∀ masterFp, Requested device psbt masterFp → Representable masterFp psbtOut

/-! ### What a call makes of an output -/

/-- The call raises an `HWWError` before it asks for signatures, or each time it asks for
them it says which script the output has. -/
structure OutputPaid (R : Runtime) (chain : Chain) (device : Device) (registeredDescriptors : Bool)
    (psbt : PSBT) (k : ℕ) (script : Bytes) : Prop where
  rejected : ((signTx R chain device registeredDescriptors).after { psbt }).requests = [] →
    ∃ e s, (signTx R chain device registeredDescriptors).run { psbt } = .error e s ∧
      e.isHWWError = true
  determined : ∀ request ∈ ((signTx R chain device registeredDescriptors).after { psbt }).requests,
    ∃ txoutput, request.outputs[k]? = some txoutput ∧ Determines R chain script txoutput

end TrezorClient

end Hwi
