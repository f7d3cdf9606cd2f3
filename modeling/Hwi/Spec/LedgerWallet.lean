import Hwi.Spec.ExtendedKey
import Hwi.Spec.Merkle

/-! Wallet policies of `ledger_bitcoin`: `wallet.py` in version 2 of the protocol. -/

namespace Hwi

namespace LedgerBitcoin

/-- `s.encode()` -/
def utf8 (s : Str) : Bytes := (String.ofList s).toUTF8.data.toList

/-- `b.decode()` -/
def utf8Decode (b : Bytes) : Except Exc Str :=
  match String.fromUTF8? ⟨b.toArray⟩ with
  | some s => .ok s.toList
  | none => .error .unicodeError

/-! ### Wallet policies -/

/-- A wallet policy, the version being `WALLET_POLICY_V2`. -/
structure WalletPolicy where
  name : Str
  descriptorTemplate : Str
  keysInfo : List Str
deriving DecidableEq, Repr

/-- The length in one byte and the characters in Latin-1. -/
def serializeStr (value : Str) : Except Exc Bytes := do
  if 256 ≤ value.length then throw .overflowError
  if value.any fun c => 256 ≤ c.toNat then throw .unicodeError
  return UInt8.ofNat value.length :: value.map fun c => UInt8.ofNat c.toNat

namespace WalletPolicy

def serialize (R : Runtime) (self : WalletPolicy) : Except Exc Bytes := do
  let name ← serializeStr self.name
  return [0x02] ++ name ++
    serCompactSize (utf8 self.descriptorTemplate).length ++
    R.sha256 (utf8 self.descriptorTemplate) ++
    serCompactSize self.keysInfo.length ++
    (MerkleTree.new R (self.keysInfo.map fun k => elementDigest R (utf8 k))).root

def id (R : Runtime) (self : WalletPolicy) : Except Exc Bytes := do
  let data ← self.serialize R
  return R.sha256 data

end WalletPolicy

structure MultisigWallet extends WalletPolicy where
  threshold : ℤ
deriving DecidableEq, Repr

namespace MultisigWallet

/-- `policy_prefix` and `policy_suffix` -/
def policyAround (addressType : AddressType) (multisigOp : String) : Except Exc (String × String) :=
  match addressType with
  | .legacy => .ok ("sh(" ++ multisigOp ++ "(", "))")
  | .wit => .ok ("wsh(" ++ multisigOp ++ "(", "))")
  | .shWit => .ok ("sh(wsh(" ++ multisigOp ++ "(", ")))")
  | .tap => .error (.valueError "Unexpected address type: tap")

def new (name : Str) (addressType : AddressType) (threshold : ℤ) (keysInfo : List Str)
    (sorted : Bool := true) : Except Exc MultisigWallet := do
  let nKeys := keysInfo.length
  if ¬(1 ≤ threshold ∧ threshold ≤ nKeys ∧ nKeys ≤ 16) then
    throw (.valueError "Invalid threshold or number of keys")
  let multisigOp := if sorted then "sortedmulti" else "multi"
  let (policyPrefix, policySuffix) ← policyAround addressType multisigOp
  let placeholders := (List.range nKeys).map fun (k : ℕ) => ['@'] ++ str k ++ "/**".toList
  return {
    name
    descriptorTemplate := policyPrefix.toList ++ str threshold ++ [','] ++
      List.intercalate [','] placeholders ++ policySuffix.toList
    keysInfo
    threshold }

end MultisigWallet

end LedgerBitcoin

end Hwi
