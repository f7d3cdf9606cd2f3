import Hwi.Format.Input
import Hwi.Spec.PsbtOutput

/-! What an output map says, entry by entry. -/

namespace Hwi

inductive OutputField
  | redeemScript | witnessScript | hdKeypath | amount | script | tapInternalKey | tapTree
  | tapBip32Path | musig2ParticipantPubkeys | unknown
deriving DecidableEq, Repr

namespace OutputField

open PartiallySignedOutput in
def ofType : ℕ → OutputField
  | PSBT_OUT_REDEEM_SCRIPT => redeemScript
  | PSBT_OUT_WITNESS_SCRIPT => witnessScript
  | PSBT_OUT_BIP32_DERIVATION => hdKeypath
  | PSBT_OUT_AMOUNT => amount
  | PSBT_OUT_SCRIPT => script
  | PSBT_OUT_TAP_INTERNAL_KEY => tapInternalKey
  | PSBT_OUT_TAP_TREE => tapTree
  | PSBT_OUT_TAP_BIP32_DERIVATION => tapBip32Path
  | PSBT_OUT_MUSIG2_PARTICIPANT_PUBKEYS => musig2ParticipantPubkeys
  | _ => unknown

def all : List OutputField :=
  [redeemScript, witnessScript, hdKeypath, amount, script, tapInternalKey, tapTree, tapBip32Path,
    musig2ParticipantPubkeys, unknown]

/-- The fields version 0 keeps in the global transaction. -/
def isV2 : OutputField → Bool
  | amount | script => true
  | _ => false

end OutputField

inductive OutputEntry
  | redeemScript (script : Bytes)
  | witnessScript (script : Bytes)
  | hdKeypath (pubkey : Bytes) (origin : KeyOriginInfo)
  | amount (n : ℤ)
  | script (script : Bytes)
  | tapInternalKey (xonly : Bytes)
  | tapTree (tree : Bytes)
  | tapBip32Path (xonly : Bytes) (leafHashes : OrderedSet Bytes) (origin : KeyOriginInfo)
  | musig2ParticipantPubkeys (aggregate : Bytes) (pubkeys : List Bytes)
  | unknown (key value : Bytes)
deriving DecidableEq

namespace OutputEntry

def field : OutputEntry → OutputField
  | redeemScript .. => .redeemScript
  | witnessScript .. => .witnessScript
  | hdKeypath .. => .hdKeypath
  | amount .. => .amount
  | script .. => .script
  | tapInternalKey .. => .tapInternalKey
  | tapTree .. => .tapTree
  | tapBip32Path .. => .tapBip32Path
  | musig2ParticipantPubkeys .. => .musig2ParticipantPubkeys
  | unknown .. => .unknown

/-- The slot an entry fills: the entry without its value. -/
def slot : OutputEntry → OutputEntry
  | redeemScript _ => redeemScript []
  | witnessScript _ => witnessScript []
  | hdKeypath pubkey _ => hdKeypath pubkey ⟨[], []⟩
  | amount _ => amount 0
  | script _ => script []
  | tapInternalKey _ => tapInternalKey []
  | tapTree _ => tapTree []
  | tapBip32Path xonly _ _ => tapBip32Path xonly ∅ ⟨[], []⟩
  | musig2ParticipantPubkeys aggregate _ => musig2ParticipantPubkeys aggregate []
  | unknown key _ => unknown key []

/-- The values the object cannot tell from an absent field. -/
def null : OutputEntry → Bool
  | redeemScript v | witnessScript v | script v | tapInternalKey v | tapTree v => v.isEmpty
  | _ => false

/-! ### The record of an entry -/

def key : OutputEntry → Bytes
  | redeemScript _ => [0x00]
  | witnessScript _ => [0x01]
  | hdKeypath pubkey _ => 0x02 :: pubkey
  | amount _ => [0x03]
  | script _ => [0x04]
  | tapInternalKey _ => [0x05]
  | tapTree _ => [0x06]
  | tapBip32Path xonly _ _ => 0x07 :: xonly
  | musig2ParticipantPubkeys aggregate _ => 0x08 :: aggregate
  | unknown key _ => key

def value : OutputEntry → Bytes
  | redeemScript v | witnessScript v | script v | tapInternalKey v | tapTree v | unknown _ v => v
  | hdKeypath _ origin => origin.bytes
  | amount n => toSignedLE 8 n
  | tapBip32Path _ leafHashes origin => tapPathBytes leafHashes origin
  | musig2ParticipantPubkeys _ pubkeys => pubkeys.flatten

def record (e : OutputEntry) : MapRecord := (e.key, e.value)

/-- The rules for the key and the value of each kind of record. -/
def Valid : OutputEntry → Prop
  | redeemScript v | witnessScript v | script v | tapTree v => v ≠ []
  | hdKeypath pubkey origin => (pubkey.length = 33 ∨ pubkey.length = 65) ∧ origin.Valid
  | amount n => SignedFits 8 n
  | tapInternalKey v => v.length = 32
  | tapBip32Path xonly leafHashes origin => xonly.length = 32 ∧ TapPathValid leafHashes origin
  | musig2ParticipantPubkeys aggregate pubkeys =>
    aggregate.length = 33 ∧ pubkeys ≠ [] ∧ ∀ pubkey ∈ pubkeys, pubkey.length = 33
  | unknown key _ => ∃ t, runOn deserCompactSize key = .ok t ∧ OutputField.ofType t = .unknown

/-- The entry as it is written: a set of leaf hashes in the order it is iterated. -/
def written (R : Runtime) : OutputEntry → OutputEntry
  | tapBip32Path xonly leafHashes origin => tapBip32Path xonly (leafHashes.iterated R) origin
  | e => e

/-- The entry a record of a field is read as. -/
def ofRecord (key v : Bytes) : OutputField → Option OutputEntry
  | .redeemScript => some (redeemScript v)
  | .witnessScript => some (witnessScript v)
  | .hdKeypath => (KeyOriginInfo.deserialize v).toOption.map (hdKeypath (key.drop 1))
  | .amount => (unpackSigned 8 v).toOption.map amount
  | .script => some (script v)
  | .tapInternalKey => if v.length = 32 then some (tapInternalKey v) else none
  | .tapTree => some (tapTree v)
  | .tapBip32Path => (tapBip32Value v).toOption.map fun (leafHashes, origin) =>
    tapBip32Path ((key.drop 1).take 32) leafHashes origin
  | .musig2ParticipantPubkeys =>
    (musig2Pubkeys v).toOption.map (musig2ParticipantPubkeys (key.drop 1))
  | .unknown => some (unknown key v)

end OutputEntry

namespace PartiallySignedOutput

def add (self : PartiallySignedOutput) : OutputEntry → PartiallySignedOutput
  | .redeemScript v => { self with redeemScript := v }
  | .witnessScript v => { self with witnessScript := v }
  | .hdKeypath pubkey origin => { self with hdKeypaths := self.hdKeypaths.set pubkey origin }
  | .amount n => { self with amount := some n }
  | .script v => { self with script := v }
  | .tapInternalKey v => { self with tapInternalKey := v }
  | .tapTree v => { self with tapTree := v }
  | .tapBip32Path xonly leafHashes origin =>
    { self with tapBip32Paths := self.tapBip32Paths.set xonly (leafHashes, origin) }
  | .musig2ParticipantPubkeys aggregate pubkeys => { self with
    musig2ParticipantPubkeys := self.musig2ParticipantPubkeys.set aggregate pubkeys }
  | .unknown key v => { self with unknown := self.unknown.set key v }

/-- The entries a field holds. -/
def contents (self : PartiallySignedOutput) : OutputField → List OutputEntry
  | .redeemScript => listEntries .redeemScript self.redeemScript
  | .witnessScript => listEntries .witnessScript self.witnessScript
  | .hdKeypath => dictEntries .hdKeypath self.hdKeypaths
  | .amount => optionEntries .amount self.amount
  | .script => listEntries .script self.script
  | .tapInternalKey => listEntries .tapInternalKey self.tapInternalKey
  | .tapTree => listEntries .tapTree self.tapTree
  | .tapBip32Path => dictEntries (fun k v => .tapBip32Path k v.1 v.2) self.tapBip32Paths
  | .musig2ParticipantPubkeys => dictEntries .musig2ParticipantPubkeys self.musig2ParticipantPubkeys
  | .unknown => dictEntries .unknown self.unknown

end PartiallySignedOutput

end Hwi
