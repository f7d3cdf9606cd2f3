import Hwi.Format.Tx
import Hwi.Lib.FieldStore
import Hwi.Spec.PsbtInput

/-! What an input map says, entry by entry: the entries, the record that spells
each of them, the rules an entry has to meet, and the entry a record is read as. -/

namespace Hwi

/-- The set in the order the runtime iterates it. -/
def OrderedSet.iterated (R : Runtime) (s : OrderedSet Bytes) : OrderedSet Bytes :=
  ⟨R.setOrder s.elems, (R.setOrder_perm s.elems).nodup_iff.2 s.nodup⟩

/-- A MuSig2 session key: the providing key, the aggregate key, the leaf hash. -/
abbrev Musig2Key := Bytes × Bytes × Option Bytes

structure Musig2Key.Valid (k : Musig2Key) : Prop where
  pubkey : k.1.length = 33
  aggregate : k.2.1.length = 33
  leafHash : ∀ h ∈ k.2.2, h.length = 32

/-- The leaf hashes of a taproot key and its origin. -/
def tapPathBytes (leafHashes : OrderedSet Bytes) (origin : KeyOriginInfo) : Bytes :=
  serCompactSize leafHashes.elems.length ++ leafHashes.elems.flatten ++ origin.bytes

structure TapPathValid (leafHashes : OrderedSet Bytes) (origin : KeyOriginInfo) : Prop where
  size : leafHashes.elems.length < 2 ^ 64
  leafHash : ∀ h ∈ leafHashes, h.length = 32
  origin : origin.Valid

inductive InputField
  | nonWitnessUtxo | witnessUtxo | partialSig | sighash | redeemScript | witnessScript | hdKeypath
  | finalScriptSig | finalScriptWitness | prevTxid | prevOut | sequence | timeLocktime
  | heightLocktime | tapKeySig | tapScriptSig | tapScript | tapBip32Path | tapInternalKey
  | tapMerkleRoot | musig2ParticipantPubkeys | musig2PubNonce | musig2PartialSig | unknown
deriving DecidableEq, Repr

namespace InputField

open PartiallySignedInput in
def ofType : ℕ → InputField
  | PSBT_IN_NON_WITNESS_UTXO => nonWitnessUtxo
  | PSBT_IN_WITNESS_UTXO => witnessUtxo
  | PSBT_IN_PARTIAL_SIG => partialSig
  | PSBT_IN_SIGHASH_TYPE => sighash
  | PSBT_IN_REDEEM_SCRIPT => redeemScript
  | PSBT_IN_WITNESS_SCRIPT => witnessScript
  | PSBT_IN_BIP32_DERIVATION => hdKeypath
  | PSBT_IN_FINAL_SCRIPTSIG => finalScriptSig
  | PSBT_IN_FINAL_SCRIPTWITNESS => finalScriptWitness
  | PSBT_IN_PREVIOUS_TXID => prevTxid
  | PSBT_IN_OUTPUT_INDEX => prevOut
  | PSBT_IN_SEQUENCE => sequence
  | PSBT_IN_REQUIRED_TIME_LOCKTIME => timeLocktime
  | PSBT_IN_REQUIRED_HEIGHT_LOCKTIME => heightLocktime
  | PSBT_IN_TAP_KEY_SIG => tapKeySig
  | PSBT_IN_TAP_SCRIPT_SIG => tapScriptSig
  | PSBT_IN_TAP_LEAF_SCRIPT => tapScript
  | PSBT_IN_TAP_BIP32_DERIVATION => tapBip32Path
  | PSBT_IN_TAP_INTERNAL_KEY => tapInternalKey
  | PSBT_IN_TAP_MERKLE_ROOT => tapMerkleRoot
  | PSBT_IN_MUSIG2_PARTICIPANT_PUBKEYS => musig2ParticipantPubkeys
  | PSBT_IN_MUSIG2_PUB_NONCE => musig2PubNonce
  | PSBT_IN_MUSIG2_PARTIAL_SIG => musig2PartialSig
  | _ => unknown

def all : List InputField :=
  [nonWitnessUtxo, witnessUtxo, partialSig, sighash, redeemScript, witnessScript, hdKeypath,
    finalScriptSig, finalScriptWitness, prevTxid, prevOut, sequence, timeLocktime, heightLocktime,
    tapKeySig, tapScriptSig, tapScript, tapBip32Path, tapInternalKey, tapMerkleRoot,
    musig2ParticipantPubkeys, musig2PubNonce, musig2PartialSig, unknown]

/-- The fields version 0 keeps in the global transaction. -/
def isV2 : InputField → Bool
  | prevTxid | prevOut | sequence | timeLocktime | heightLocktime => true
  | _ => false

/-- The fields a final input does not write. -/
def isSigning : InputField → Bool
  | partialSig | sighash | redeemScript | witnessScript | hdKeypath | tapKeySig | tapScriptSig
  | tapScript | tapBip32Path | tapInternalKey | tapMerkleRoot => true
  | _ => false

end InputField

inductive InputEntry
  | nonWitnessUtxo (tx : CTransaction)
  | witnessUtxo (txout : CTxOut)
  | partialSig (pubkey sig : Bytes)
  | sighash (n : ℕ)
  | redeemScript (script : Bytes)
  | witnessScript (script : Bytes)
  | hdKeypath (pubkey : Bytes) (origin : KeyOriginInfo)
  | finalScriptSig (script : Bytes)
  | finalScriptWitness (wit : CTxInWitness)
  | prevTxid (txid : Bytes)
  | prevOut (n : ℕ)
  | sequence (n : ℕ)
  | timeLocktime (n : ℕ)
  | heightLocktime (n : ℕ)
  | tapKeySig (sig : Bytes)
  | tapScriptSig (xonly leafHash sig : Bytes)
  | tapScript (controlBlock script : Bytes) (leafVer : UInt8)
  | tapBip32Path (xonly : Bytes) (leafHashes : OrderedSet Bytes) (origin : KeyOriginInfo)
  | tapInternalKey (xonly : Bytes)
  | tapMerkleRoot (root : Bytes)
  | musig2ParticipantPubkeys (aggregate : Bytes) (pubkeys : List Bytes)
  | musig2PubNonce (k : Musig2Key) (nonces : Bytes)
  | musig2PartialSig (k : Musig2Key) (sig : Bytes)
  | unknown (key value : Bytes)
deriving DecidableEq

namespace InputEntry

def field : InputEntry → InputField
  | nonWitnessUtxo .. => .nonWitnessUtxo
  | witnessUtxo .. => .witnessUtxo
  | partialSig .. => .partialSig
  | sighash .. => .sighash
  | redeemScript .. => .redeemScript
  | witnessScript .. => .witnessScript
  | hdKeypath .. => .hdKeypath
  | finalScriptSig .. => .finalScriptSig
  | finalScriptWitness .. => .finalScriptWitness
  | prevTxid .. => .prevTxid
  | prevOut .. => .prevOut
  | sequence .. => .sequence
  | timeLocktime .. => .timeLocktime
  | heightLocktime .. => .heightLocktime
  | tapKeySig .. => .tapKeySig
  | tapScriptSig .. => .tapScriptSig
  | tapScript .. => .tapScript
  | tapBip32Path .. => .tapBip32Path
  | tapInternalKey .. => .tapInternalKey
  | tapMerkleRoot .. => .tapMerkleRoot
  | musig2ParticipantPubkeys .. => .musig2ParticipantPubkeys
  | musig2PubNonce .. => .musig2PubNonce
  | musig2PartialSig .. => .musig2PartialSig
  | unknown .. => .unknown

/-- The slot an entry fills: the entry without its value. A leaf script is all
slot, since a control block is stored under its script. -/
def slot : InputEntry → InputEntry
  | nonWitnessUtxo _ => nonWitnessUtxo {}
  | witnessUtxo _ => witnessUtxo {}
  | partialSig pubkey _ => partialSig pubkey []
  | sighash _ => sighash 0
  | redeemScript _ => redeemScript []
  | witnessScript _ => witnessScript []
  | hdKeypath pubkey _ => hdKeypath pubkey ⟨[], []⟩
  | finalScriptSig _ => finalScriptSig []
  | finalScriptWitness _ => finalScriptWitness {}
  | prevTxid _ => prevTxid []
  | prevOut _ => prevOut 0
  | sequence _ => sequence 0
  | timeLocktime _ => timeLocktime 0
  | heightLocktime _ => heightLocktime 0
  | tapKeySig _ => tapKeySig []
  | tapScriptSig xonly leafHash _ => tapScriptSig xonly leafHash []
  | tapScript controlBlock script leafVer => tapScript controlBlock script leafVer
  | tapBip32Path xonly _ _ => tapBip32Path xonly ∅ ⟨[], []⟩
  | tapInternalKey _ => tapInternalKey []
  | tapMerkleRoot _ => tapMerkleRoot []
  | musig2ParticipantPubkeys aggregate _ => musig2ParticipantPubkeys aggregate []
  | musig2PubNonce k _ => musig2PubNonce k []
  | musig2PartialSig k _ => musig2PartialSig k []
  | unknown key _ => unknown key []

/-- The values the object cannot tell from an absent field. -/
def null : InputEntry → Bool
  | redeemScript v | witnessScript v | finalScriptSig v | prevTxid v | tapKeySig v
  | tapInternalKey v | tapMerkleRoot v => v.isEmpty
  | finalScriptWitness wit => wit.isNull
  | _ => false

/-! ### The record of an entry -/

def key : InputEntry → Bytes
  | nonWitnessUtxo _ => [0x00]
  | witnessUtxo _ => [0x01]
  | partialSig pubkey _ => 0x02 :: pubkey
  | sighash _ => [0x03]
  | redeemScript _ => [0x04]
  | witnessScript _ => [0x05]
  | hdKeypath pubkey _ => 0x06 :: pubkey
  | finalScriptSig _ => [0x07]
  | finalScriptWitness _ => [0x08]
  | prevTxid _ => [0x0e]
  | prevOut _ => [0x0f]
  | sequence _ => [0x10]
  | timeLocktime _ => [0x11]
  | heightLocktime _ => [0x12]
  | tapKeySig _ => [0x13]
  | tapScriptSig xonly leafHash _ => 0x14 :: (xonly ++ leafHash)
  | tapScript controlBlock _ _ => 0x15 :: controlBlock
  | tapBip32Path xonly _ _ => 0x16 :: xonly
  | tapInternalKey _ => [0x17]
  | tapMerkleRoot _ => [0x18]
  | musig2ParticipantPubkeys aggregate _ => 0x1a :: aggregate
  | musig2PubNonce k _ => 0x1b :: serMusig2Key k
  | musig2PartialSig k _ => 0x1c :: serMusig2Key k
  | unknown key _ => key

def value : InputEntry → Bytes
  | nonWitnessUtxo tx => tx.witnessBytes
  | witnessUtxo txout => txout.bytes
  | sighash n | prevOut n | sequence n | timeLocktime n | heightLocktime n => toLE 4 n
  | redeemScript v | witnessScript v | finalScriptSig v | prevTxid v | tapKeySig v
  | tapInternalKey v | tapMerkleRoot v => v
  | partialSig _ v | tapScriptSig _ _ v | musig2PubNonce _ v | musig2PartialSig _ v
  | unknown _ v => v
  | hdKeypath _ origin => origin.bytes
  | finalScriptWitness wit => wit.serialize
  | tapScript _ script leafVer => script ++ [leafVer]
  | tapBip32Path _ leafHashes origin => tapPathBytes leafHashes origin
  | musig2ParticipantPubkeys _ pubkeys => pubkeys.flatten

def record (e : InputEntry) : MapRecord := (e.key, e.value)

/-- The rules for the key and the value of each kind of record. -/
def Valid : InputEntry → Prop
  | nonWitnessUtxo tx => tx.Valid ∧ tx.vin ≠ []
  | witnessUtxo txout => txout.Valid
  | partialSig pubkey _ => pubkey.length = 33 ∨ pubkey.length = 65
  | sighash n | prevOut n | sequence n => n < 2 ^ 32
  | redeemScript v | witnessScript v | finalScriptSig v => v ≠ []
  | hdKeypath pubkey origin => (pubkey.length = 33 ∨ pubkey.length = 65) ∧ origin.Valid
  | finalScriptWitness wit => wit.Valid ∧ wit.stack ≠ []
  | prevTxid v | tapInternalKey v | tapMerkleRoot v => v.length = 32
  | timeLocktime n => 500000000 ≤ n ∧ n < 2 ^ 32
  | heightLocktime n => 0 < n ∧ n < 500000000
  | tapKeySig v => 64 ≤ v.length ∧ v.length ≤ 65
  | tapScriptSig xonly leafHash sig =>
    xonly.length = 32 ∧ leafHash.length = 32 ∧ 64 ≤ sig.length ∧ sig.length ≤ 65
  | tapScript controlBlock _ _ => 33 ≤ controlBlock.length ∧ (controlBlock.length - 1) % 32 = 0
  | tapBip32Path xonly leafHashes origin => xonly.length = 32 ∧ TapPathValid leafHashes origin
  | musig2ParticipantPubkeys aggregate pubkeys =>
    aggregate.length = 33 ∧ pubkeys ≠ [] ∧ ∀ pubkey ∈ pubkeys, pubkey.length = 33
  | musig2PubNonce k nonces => k.Valid ∧ nonces.length = 66
  | musig2PartialSig k sig => k.Valid ∧ sig.length = 32
  | unknown key _ => ∃ t, runOn deserCompactSize key = .ok t ∧ InputField.ofType t = .unknown

/-- The entry as the parser stores it: a transaction is read back with its id. -/
def stored (R : Runtime) : InputEntry → InputEntry
  | nonWitnessUtxo tx => nonWitnessUtxo (tx.asRead.hashed R)
  | e => e

/-- The entry as it is written: a set of leaf hashes in the order it is iterated. -/
def written (R : Runtime) : InputEntry → InputEntry
  | tapBip32Path xonly leafHashes origin => tapBip32Path xonly (leafHashes.iterated R) origin
  | e => e

/-- The entry a record of a field is read as. -/
def ofRecord (R : Runtime) (key v : Bytes) : InputField → Option InputEntry
  | .nonWitnessUtxo => do
    let tx ← (runOn (CTransaction.deserialize R {}) v).toOption
    let tx ← (tx.rehash R).toOption
    return nonWitnessUtxo tx
  | .witnessUtxo => (runOn (CTxOut.deserialize R) v).toOption.map witnessUtxo
  | .partialSig => some (partialSig (key.drop 1) v)
  | .sighash => (unpack 4 v).toOption.map sighash
  | .redeemScript => some (redeemScript v)
  | .witnessScript => some (witnessScript v)
  | .hdKeypath => (KeyOriginInfo.deserialize v).toOption.map (hdKeypath (key.drop 1))
  | .finalScriptSig => some (finalScriptSig v)
  | .finalScriptWitness => (runOn (CTxInWitness.deserialize R) v).toOption.map finalScriptWitness
  | .prevTxid => if v.length = 32 then some (prevTxid v) else none
  | .prevOut => (unpack 4 v).toOption.map prevOut
  | .sequence => (unpack 4 v).toOption.map sequence
  | .timeLocktime => do
    let n ← (unpack 4 v).toOption
    if n < 500000000 then none else some (timeLocktime n)
  | .heightLocktime => do
    let n ← (unpack 4 v).toOption
    if n = 0 ∨ n ≥ 500000000 then none else some (heightLocktime n)
  | .tapKeySig => if 64 ≤ v.length ∧ v.length ≤ 65 then some (tapKeySig v) else none
  | .tapScriptSig => if 64 ≤ v.length ∧ v.length ≤ 65 then
      some (tapScriptSig ((key.drop 1).take 32) ((key.drop 33).take 32) v) else none
  | .tapScript => v.getLast?.map (tapScript (key.drop 1) v.dropLast)
  | .tapBip32Path => (tapBip32Value v).toOption.map fun (leafHashes, origin) =>
    tapBip32Path ((key.drop 1).take 32) leafHashes origin
  | .tapInternalKey => if v.length = 32 then some (tapInternalKey v) else none
  | .tapMerkleRoot => if v.length = 32 then some (tapMerkleRoot v) else none
  | .musig2ParticipantPubkeys =>
    (musig2Pubkeys v).toOption.map (musig2ParticipantPubkeys (key.drop 1))
  | .musig2PubNonce => if v.length = 66 then some (musig2PubNonce (musig2Key key) v) else none
  | .musig2PartialSig => if v.length = 32 then some (musig2PartialSig (musig2Key key) v) else none
  | .unknown => some (unknown key v)

end InputEntry

namespace PartiallySignedInput

def add (self : PartiallySignedInput) : InputEntry → PartiallySignedInput
  | .nonWitnessUtxo tx => { self with nonWitnessUtxo := some tx }
  | .witnessUtxo txout => { self with witnessUtxo := some txout }
  | .partialSig pubkey sig => { self with partialSigs := self.partialSigs.set pubkey sig }
  | .sighash n => { self with sighash := some n }
  | .redeemScript v => { self with redeemScript := v }
  | .witnessScript v => { self with witnessScript := v }
  | .hdKeypath pubkey origin => { self with hdKeypaths := self.hdKeypaths.set pubkey origin }
  | .finalScriptSig v => { self with finalScriptSig := v }
  | .finalScriptWitness wit => { self with finalScriptWitness := wit }
  | .prevTxid v => { self with prevTxid := v }
  | .prevOut n => { self with prevOut := some n }
  | .sequence n => { self with sequence := some n }
  | .timeLocktime n => { self with timeLocktime := some n }
  | .heightLocktime n => { self with heightLocktime := some n }
  | .tapKeySig v => { self with tapKeySig := v }
  | .tapScriptSig xonly leafHash sig =>
    { self with tapScriptSigs := self.tapScriptSigs.set (xonly, leafHash) sig }
  | .tapScript controlBlock script leafVer =>
    { self with tapScripts := self.tapScripts.addPair (script, leafVer) controlBlock }
  | .tapBip32Path xonly leafHashes origin =>
    { self with tapBip32Paths := self.tapBip32Paths.set xonly (leafHashes, origin) }
  | .tapInternalKey v => { self with tapInternalKey := v }
  | .tapMerkleRoot v => { self with tapMerkleRoot := v }
  | .musig2ParticipantPubkeys aggregate pubkeys => { self with
    musig2ParticipantPubkeys := self.musig2ParticipantPubkeys.set aggregate pubkeys }
  | .musig2PubNonce k nonces => { self with musig2PubNonces := self.musig2PubNonces.set k nonces }
  | .musig2PartialSig k sig =>
    { self with musig2PartialSigs := self.musig2PartialSigs.set k sig }
  | .unknown key v => { self with unknown := self.unknown.set key v }

/-- The entries a field holds. -/
def contents (self : PartiallySignedInput) : InputField → List InputEntry
  | .nonWitnessUtxo => optionEntries .nonWitnessUtxo self.nonWitnessUtxo
  | .witnessUtxo => optionEntries .witnessUtxo self.witnessUtxo
  | .partialSig => dictEntries .partialSig self.partialSigs
  | .sighash => optionEntries .sighash self.sighash
  | .redeemScript => listEntries .redeemScript self.redeemScript
  | .witnessScript => listEntries .witnessScript self.witnessScript
  | .hdKeypath => dictEntries .hdKeypath self.hdKeypaths
  | .finalScriptSig => listEntries .finalScriptSig self.finalScriptSig
  | .finalScriptWitness => if self.finalScriptWitness.isNull then []
    else [.finalScriptWitness self.finalScriptWitness]
  | .prevTxid => listEntries .prevTxid self.prevTxid
  | .prevOut => optionEntries .prevOut self.prevOut
  | .sequence => optionEntries .sequence self.sequence
  | .timeLocktime => optionEntries .timeLocktime self.timeLocktime
  | .heightLocktime => optionEntries .heightLocktime self.heightLocktime
  | .tapKeySig => listEntries .tapKeySig self.tapKeySig
  | .tapScriptSig => dictEntries (fun k => .tapScriptSig k.1 k.2) self.tapScriptSigs
  | .tapScript => self.tapScripts.pairs.map fun e => .tapScript e.2 e.1.1 e.1.2
  | .tapBip32Path => dictEntries (fun k v => .tapBip32Path k v.1 v.2) self.tapBip32Paths
  | .tapInternalKey => listEntries .tapInternalKey self.tapInternalKey
  | .tapMerkleRoot => listEntries .tapMerkleRoot self.tapMerkleRoot
  | .musig2ParticipantPubkeys => dictEntries .musig2ParticipantPubkeys self.musig2ParticipantPubkeys
  | .musig2PubNonce => dictEntries .musig2PubNonce self.musig2PubNonces
  | .musig2PartialSig => dictEntries .musig2PartialSig self.musig2PartialSigs
  | .unknown => dictEntries .unknown self.unknown

end PartiallySignedInput

end Hwi
