import Hwi.Lib.Result
import Hwi.Spec.DerivePub
import Hwi.Spec.Trezor

/-! The multisig scripts, and what their two recognisers should say of a script. -/

namespace Hwi

/-- One push of 33 bytes for every key. -/
def pushKeys (keys : List Bytes) : Bytes := keys.flatMap fun key => 33 :: key

/-- `OP_m <keys> OP_n OP_CHECKMULTISIG`, of at most 15 keys. -/
structure IsMultisig (script : Bytes) (m : ℕ) (keys : List Bytes) : Prop where
  script_eq : script =
    UInt8.ofNat (80 + m) :: (pushKeys keys ++ [UInt8.ofNat (80 + keys.length), 174])
  key_length : ∀ key ∈ keys, key.length = 33
  one_le : 1 ≤ m
  m_le : m ≤ keys.length
  le_fifteen : keys.length ≤ 15

/-- A script is recognised as what it is: nothing is raised, and the multisig
scripts are found with their keys. -/
def Recognised (script : Bytes) (result : Except Exc (Option (ℕ × List Bytes))) : Prop :=
  (∃ found, result = .ok found) ∧
    ∀ m keys, result = .ok (some (m, keys)) ↔ IsMultisig script m keys

/-- The first byte is one of `OP_1` to `OP_15`. -/
def IsThreshold (op : UInt8) : Prop := 81 ≤ op.toNat ∧ op.toNat ≤ 95

/-- A script that starts like a multisig script of the keys: any number of them, for
any threshold, with anything behind. -/
def MultisigShaped (script : Bytes) (keys : List Bytes) : Prop :=
  ∃ op n tail, IsThreshold op ∧ (∀ key ∈ keys, key.length = 33) ∧ n.toNat = 80 + keys.length ∧
    script = op :: (pushKeys keys ++ n :: 174 :: tail)

/-- A script that ends before the recognisers know what it is. -/
inductive MultisigCut : Bytes → Prop
  | keysCut {op : UInt8} {keys : List Bytes} {push : Bytes} (hop : IsThreshold op)
      (hkeys : ∀ key ∈ keys, key.length = 33)
      (hpush : push = [] ∨ ∃ key, push = 33 :: key ∧ key.length < 33) :
      MultisigCut (op :: (pushKeys keys ++ push))
  | endCut {op n : UInt8} {keys : List Bytes} (hop : IsThreshold op)
      (hkeys : ∀ key ∈ keys, key.length = 33) (hn : n.toNat = 80 + keys.length) :
      MultisigCut (op :: (pushKeys keys ++ [n]))

/-- The scripts `parse_multisig` indexes past the end of, and those it takes for
a multisig script though they are not. -/
inductive MultisigMisread : Bytes → Prop
  | empty : MultisigMisread []
  | cut {script : Bytes} (h : MultisigCut script) : MultisigMisread script
  | loose {op n : UInt8} {keys : List Bytes} {tail : Bytes} (hop : IsThreshold op)
      (hkeys : ∀ key ∈ keys, key.length = 33) (hn : n.toNat = 80 + keys.length)
      (hloose : keys.length < op.toNat - 80 ∨ 15 < keys.length ∨ tail ≠ []) :
      MultisigMisread (op :: (pushKeys keys ++ n :: 174 :: tail))

namespace TrezorClient

open Trezor

variable (R : Runtime)

/-- The text of the extended key of a global xpub record. -/
def xpubText (xpub : Bytes) : Str := Base58.encode (xpub ++ (R.hash256 xpub).take 4)

/-- The origin is where the path of a derivation starts. -/
def StartsAt (derivation origin : KeyOriginInfo) : Prop :=
  origin.fingerprint = derivation.fingerprint ∧
    origin.path = derivation.path.take origin.path.length

instance (derivation origin : KeyOriginInfo) : Decidable (StartsAt derivation origin) :=
  inferInstanceAs (Decidable (_ ∧ _))

/-- The extended key in a node. -/
def nodeXpub (node : HDNodeType) : KeyObject :=
  KeyObject.new ExtendedKey.MAINNET_PUBLIC node.depth (toLE 4 node.fingerprint).reverse node.childNum
    node.chainCode none node.publicKey

/-- The key a node stands for: the one that its path leads to. -/
def nodeKey (node : HDNodePathType) : Except Exc Bytes := do
  let key ← KeyObject.derivePubPath R (nodeXpub node.node) node.addressN
  return key.pubkey

/-- The driver's recogniser reports the multisig scripts and no others, with
their threshold and their keys in order. -/
def Reported (script : Bytes) (result : Except Exc (Option MultisigRedeemScriptType)) : Prop :=
  (∀ m keys, IsMultisig script m keys → ∃ multisig, result = .ok (some multisig) ∧
    multisig.m = m ∧
    List.Forall₂ (fun key node => nodeKey R node = .ok key) keys multisig.pubkeys) ∧
  ∀ multisig, result = .ok (some multisig) → ∃ m keys, IsMultisig script m keys

/-- The xpubs up to the first one that a derivation starts at are extended keys,
and the key is derived from that one by the rest of its path. -/
def LeadsTo (key : Bytes) (derivation : KeyOriginInfo) : List (Bytes × KeyOriginInfo) → Prop :=
  UpTo (fun e => StartsAt derivation e.2) fun e =>
    ∃ hd, KeyObject.deserialize (xpubText R e.1) = .ok hd ∧ (StartsAt derivation e.2 →
      ∃ child, KeyObject.derivePubPath R hd (derivation.path.drop e.2.path.length) = .ok child ∧
        child.pubkey = key)

end TrezorClient

end Hwi
