import Hwi.Lib.Procedure
import Hwi.Spec.Descriptor
import Hwi.Spec.Ledger

/-! `display_multisig_address` of `ledger.py` for the apps that are not legacy. -/

namespace Hwi

namespace LedgerBitcoin

/-- A command of the client. -/
inductive DisplayRequest
  | registerWallet (wallet : WalletPolicy)
  | getWalletAddress (wallet : WalletPolicy) (walletHmac : Option Bytes) (addressIndex : ℤ)
      (change : ℤ) (display : Bool)
deriving DecidableEq, Repr

abbrev DisplayExchange := DisplayRequest × Reply

abbrev DisplayDevice := List DisplayExchange → DisplayRequest → Reply

/-- The state is what was exchanged with the device. -/
abbrev DisplayMethod := Procedure Exc (List DisplayExchange)

namespace DisplayMethod

def makeRequest (device : DisplayDevice) (request : DisplayRequest) : DisplayMethod Response := do
  let exchanges ← get
  let reply := device exchanges request
  modify fun exchanges => exchanges ++ [(request, reply)]
  let r ← Procedure.ofExcept reply
  if r.sw ≠ 0x9000 then throw (.deviceException r.sw)
  return r

/-- `register_wallet`: the hmac of the registered wallet. -/
def registerWallet (R : Runtime) (device : DisplayDevice) (wallet : WalletPolicy) :
    DisplayMethod Bytes := do
  let _ ← Procedure.ofExcept (wallet.serialize R)
  let r ← makeRequest device (.registerWallet wallet)
  if r.response.length ≠ 64 then
    throw (.runtimeError ("Invalid response length: " ++ toString r.response.length))
  return (r.response.drop 32).take 32

/-- `get_wallet_address` -/
def getWalletAddress (R : Runtime) (device : DisplayDevice) (wallet : WalletPolicy)
    (walletHmac : Option Bytes) (change addressIndex : ℤ) (display : Bool) : DisplayMethod Str := do
  if change ≠ 0 ∧ change ≠ 1 then throw (.valueError "Invalid change")
  let _ ← Procedure.ofExcept (wallet.serialize R)
  if !fitsWord addressIndex then throw .overflowError
  let r ← makeRequest device (.getWalletAddress wallet walletHmac addressIndex change display)
  Procedure.ofExcept (utf8Decode r.response)

end DisplayMethod

end LedgerBitcoin

namespace LedgerClient

open LedgerBitcoin

/-- The exceptions that `ledger_exception` replaces. -/
def adaptError : Exc → Exc
  | .valueError msg => .badArgumentError msg
  | e => if e.isValueError then .badArgumentError "" else e

/-- `step[0]` -/
def stepIndex (step : List ℤ) : Except Exc ℤ :=
  match step with
  | [] => .error .indexError
  | i :: _ => .ok i

def isValidDerPath (pk : PubkeyProvider) : Except Exc Bool :=
  match pk.derivPath with
  | some [_, change, index] =>
    if change ∈ [[0], [1]] then do
      let i ← stepIndex index
      return decide (0 ≤ i ∧ i ≤ 0x7fffffff) && pk.ranged
    else .ok false
  | _ => .ok false

/-- The checks of a descriptor before anything is sent. -/
def checkMultisigDisplay (multisig : MultisigDescriptor) : Except Exc Unit := do
  let invalid ← multisig.pubkeys.anyM fun pk => do
    let valid ← isValidDerPath pk
    return !valid
  if invalid then
    throw (.badArgumentError
      "Ledger Bitcoin app requires derivation paths ending with /0/* or /1/* for multisig")
  if multisig.pubkeys.any fun pk => pk.derivPath ≠ (multisig.pubkeys.head?.bind (·.derivPath)) then
    throw (.badArgumentError
      "Ledger Bitcoin app requires all derivation paths to end with /0/*, or all with /1/* for multisig")
  if multisig.pubkeys.any fun pk => match pk.origin with
      | some origin => 4 < origin.path.length
      | none => false then
    throw (.badArgumentError
      "Ledger Bitcoin app requires extended keys with derivation length at most 4")

def formatKeyInfo (R : Runtime) (pubkey : PubkeyProvider) : Except Exc Str :=
  match pubkey.origin, pubkey.extkey with
  | some origin, some extkey => do
    let xpub ← extkey.toString R
    return ['['] ++ origin.toString '\'' ++ [']'] ++ xpub
  | _, _ => .error .assertionError

/-- A step of the derivation path of the first key. -/
def firstStep (multisig : MultisigDescriptor) (n : ℕ) : Except Exc (List ℤ) :=
  match multisig.pubkeys with
  | [] => .error .indexError
  | pk :: _ => match pk.derivPath with
    | none => .error .assertionError
    | some derivPath => match derivPath[n]? with
      | none => .error .indexError
      | some step => .ok step

def displayMultisigAddress (R : Runtime) (legacy : Bool) (device : DisplayDevice)
    (addrType : AddressType) (multisig : MultisigDescriptor) : DisplayMethod Str :=
  EStateM.adaptExcept adaptError do
    if legacy then
      throw (.badArgumentError
        "Displaying multisignature addresses is not supported by this version of the Bitcoin App")
    Procedure.ofExcept (checkMultisigDisplay multisig)
    let keysInfo ← Procedure.ofExcept (multisig.pubkeys.mapM (formatKeyInfo R))
    let name := str multisig.thresh ++ " of ".toList ++ str keysInfo.length ++ " Multisig".toList
    let multisigWallet ← Procedure.ofExcept
      (MultisigWallet.new name addrType multisig.thresh keysInfo multisig.isSorted)
    let registeredHmac ← DisplayMethod.registerWallet R device multisigWallet.toWalletPolicy
    -- already checked above to be three steps long
    let changeStep ← Procedure.ofExcept (firstStep multisig 3)
    let change := if changeStep = [0] then 0 else 1
    let indexStep ← Procedure.ofExcept (firstStep multisig 2)
    let addressIndex ← Procedure.ofExcept (stepIndex indexStep)
    DisplayMethod.getWalletAddress R device multisigWallet.toWalletPolicy (some registeredHmac) change
      addressIndex true

end LedgerClient

end Hwi
