import Hwi.Lib.Dict
import Hwi.Spec.KeyOrigin
import Hwi.Spec.Tx
import Mathlib.Data.List.Sort

/-! The input map of `psbt.py`, and the record loop the three maps share. -/

namespace Hwi

/-- Read a value out of `BytesIO(s)`, leaving the rest of `s` unread. -/
def runOn {α : Type} (r : Read α) (s : Bytes) : Except Exc α :=
  match r s with
  | .ok a _ => .ok a
  | .error e _ => .error e

/-- `sorted(d.items())`; the keys differ, so the values are never compared. -/
def sortedItems {ν : Type} (d : Dict Bytes ν) : List (Bytes × ν) :=
  d.items.insertionSort fun a b => !decide (b.1 < a.1)

/-- What a branch of a read loop does once it knows the key: the checks before
the value is read, and what it stores. The two count records of the global map
read their value past its length prefix. -/
inductive Branch (σ : Type)
  | value (check : Except Exc Unit) (store : Bytes → Except Exc σ)
  | count (check : Except Exc Unit) (store : ℕ → σ)

def Branch.read {σ : Type} (R : Runtime) : Branch σ → Read σ
  | .value check store => do
    Reader.ofExcept check
    let v ← deserString R
    Reader.ofExcept (store v)
  | .count check store => do
    Reader.ofExcept check
    let _ ← deserCompactSize
    let n ← deserCompactSize
    pure (store n)

/-- Read the key of the next record. A read that raises ends the map, and so
does an empty key. -/
def nextKey (R : Runtime) (f : Bytes) : Option Bytes × Bytes :=
  match deserString R f with
  | .error _ f' => (none, f')
  | .ok key f' => if key.length = 0 then (none, f') else (some key, f')

/-- The read loop of a map: `branch` is its chain of tests on the key type. -/
def readMap {σ : Type} (R : Runtime) (branch : Bytes → List Bytes → σ → ℕ → Branch σ) (self : σ) :
    Read σ :=
  fun f => readLoop (nextKey R) (fun key keyLookup self => do
    let keyType ← Reader.ofExcept (runOn deserCompactSize key)
    (branch key keyLookup self keyType).read R) (f.length + 1) self [] f

/-- `if key in key_lookup: raise ... elif len(key) ...: raise ...` -/
def checkKey (key : Bytes) (keyLookup : List Bytes) (dup : String) (badLength : Bool)
    (length : String) : Except Exc Unit :=
  if key ∈ keyLookup then .error (.psbtSerializationError dup)
  else if badLength then .error (.psbtSerializationError length)
  else .ok ()

/-- `if len(v) != n: raise ...` before the integer is unpacked. -/
def fixedInt (n : ℕ) (msg : String) (v : Bytes) : Except Exc ℕ :=
  if v.length ≠ n then .error (.psbtSerializationError msg) else unpack n v

def notInV0 (version : ℕ) (field : String) : Except Exc Unit :=
  if version = 0 then .error (.psbtSerializationError (field ++ " is not allowed in PSBTv0"))
  else .ok ()

/-- `DeserializeHDKeypath` up to the read of the value. -/
def hdKeypathCheck (key : Bytes) (hdKeypaths : Dict Bytes KeyOriginInfo) (expectedSizes : List ℕ) :
    Except Exc Unit :=
  if key.length ∉ expectedSizes then
    .error (.psbtSerializationError
      ("Size of key was not the expected size for the type partial signature pubkey. Length: " ++
        toString key.length))
  else if hdKeypaths.contains (key.drop 1) then
    .error (.psbtSerializationError
      "Duplicate key, input partial signature for pubkey already provided")
  else .ok ()

def hdKeypathStore (key : Bytes) (hdKeypaths : Dict Bytes KeyOriginInfo) (v : Bytes) :
    Except Exc (Dict Bytes KeyOriginInfo) := do
  let origin ← KeyOriginInfo.deserialize v
  return hdKeypaths.set (key.drop 1) origin

/-- The key and the value of a record. -/
abbrev MapRecord := Bytes × Bytes

/-- `r += ser_string(key); r += ser_string(value)` -/
def serRecord (r : MapRecord) : Bytes := serString r.1 ++ serString r.2

/-- The record of a field that may be `None`. -/
def optionRecord {α : Type} (type : ℕ) (serialize : α → Except Exc Bytes) :
    Option α → Except Exc (List MapRecord)
  | none => .ok []
  | some a => do
    let v ← serialize a
    return [(serCompactSize type, v)]

/-- The record of a byte string field; the empty string is not written. -/
def bytesRecord (type : ℕ) (v : Bytes) : List MapRecord :=
  if v.length ≠ 0 then [(serCompactSize type, v)] else []

/-- One record for each item of a dictionary, its key appended to the type.
`SerializeHDKeypath` is the case of a dictionary of key origins. -/
def dictRecords {κ ν : Type} (type : ℕ) (keyData : κ → Bytes) (serialize : ν → Except Exc Bytes)
    (items : List (κ × ν)) : Except Exc (List MapRecord) :=
  items.mapM fun (k, v) => do
    let v ← serialize v
    return (serCompactSize type ++ keyData k, v)

/-- Write the records of all fields one after the other, then the separator. -/
def serializeMap (sections : List (Except Exc (List MapRecord))) : Except Exc Bytes := do
  let records ← sections.mapM id
  return records.flatten.flatMap serRecord ++ [0x00]

/-- The value of a taproot derivation record. -/
def tapBip32Value (v : Bytes) : Except Exc (OrderedSet Bytes × KeyOriginInfo) :=
  runOn (do
    let numHashes ← deserCompactSize
    let hashes ← Reader.readN (read 32) numHashes
    let rest ← readAll
    let origin ← Reader.ofExcept (KeyOriginInfo.deserialize rest)
    pure (hashes.foldl OrderedSet.add ∅, origin)) v

def serTapBip32Value (R : Runtime) (leafHashes : OrderedSet Bytes) (origin : KeyOriginInfo) :
    Except Exc Bytes := do
  let packed ← origin.serialize
  return serCompactSize leafHashes.elems.length ++ (R.setOrder leafHashes.elems).flatten ++ packed

/-- The value of a participant list, cut every 33 bytes. -/
def musig2Pubkeys (v : Bytes) : Except Exc (List Bytes) :=
  if v.length = 0 then
    .error (.psbtSerializationError "The list of compressed pubkeys for Musig2 cannot be empty")
  else if v.length % 33 ≠ 0 then
    .error (.psbtSerializationError
      "The compressed pubkeys for Musig2 must be exactly 33 bytes long")
  else .ok ((List.range (v.length / 33)).map fun i => (v.drop (33 * i)).take 33)

/-- The providing key, the aggregate key and the optional leaf hash in a key. -/
def musig2Key (key : Bytes) : Bytes × Bytes × Option Bytes :=
  ((key.drop 1).take 33, (key.drop 34).take 33,
    if key.length = 1 + 33 + 33 then none else some (key.drop 67))

/-- `pk + aggpk + (tapleaf_hash or b'')` -/
def serMusig2Key (k : Bytes × Bytes × Option Bytes) : Bytes := k.1 ++ k.2.1 ++ k.2.2.getD []

/-- An input map; empty byte strings stand for absent fields. -/
structure PartiallySignedInput where
  nonWitnessUtxo : Option CTransaction := none
  witnessUtxo : Option CTxOut := none
  partialSigs : Dict Bytes Bytes := ∅
  sighash : Option ℕ := none
  redeemScript : Bytes := []
  witnessScript : Bytes := []
  hdKeypaths : Dict Bytes KeyOriginInfo := ∅
  finalScriptSig : Bytes := []
  finalScriptWitness : CTxInWitness := {}
  prevTxid : Bytes := []
  prevOut : Option ℕ := none
  sequence : Option ℕ := none
  timeLocktime : Option ℕ := none
  heightLocktime : Option ℕ := none
  tapKeySig : Bytes := []
  tapScriptSigs : Dict (Bytes × Bytes) Bytes := ∅
  tapScripts : Dict (Bytes × UInt8) (OrderedSet Bytes) := ∅
  tapBip32Paths : Dict Bytes (OrderedSet Bytes × KeyOriginInfo) := ∅
  tapInternalKey : Bytes := []
  tapMerkleRoot : Bytes := []
  musig2ParticipantPubkeys : Dict Bytes (List Bytes) := ∅
  musig2PubNonces : Dict (Bytes × Bytes × Option Bytes) Bytes := ∅
  musig2PartialSigs : Dict (Bytes × Bytes × Option Bytes) Bytes := ∅
  unknown : Dict Bytes Bytes := ∅
  version : ℕ
deriving DecidableEq

namespace PartiallySignedInput

@[match_pattern] abbrev PSBT_IN_NON_WITNESS_UTXO : ℕ := 0x00
@[match_pattern] abbrev PSBT_IN_WITNESS_UTXO : ℕ := 0x01
@[match_pattern] abbrev PSBT_IN_PARTIAL_SIG : ℕ := 0x02
@[match_pattern] abbrev PSBT_IN_SIGHASH_TYPE : ℕ := 0x03
@[match_pattern] abbrev PSBT_IN_REDEEM_SCRIPT : ℕ := 0x04
@[match_pattern] abbrev PSBT_IN_WITNESS_SCRIPT : ℕ := 0x05
@[match_pattern] abbrev PSBT_IN_BIP32_DERIVATION : ℕ := 0x06
@[match_pattern] abbrev PSBT_IN_FINAL_SCRIPTSIG : ℕ := 0x07
@[match_pattern] abbrev PSBT_IN_FINAL_SCRIPTWITNESS : ℕ := 0x08
@[match_pattern] abbrev PSBT_IN_PREVIOUS_TXID : ℕ := 0x0e
@[match_pattern] abbrev PSBT_IN_OUTPUT_INDEX : ℕ := 0x0f
@[match_pattern] abbrev PSBT_IN_SEQUENCE : ℕ := 0x10
@[match_pattern] abbrev PSBT_IN_REQUIRED_TIME_LOCKTIME : ℕ := 0x11
@[match_pattern] abbrev PSBT_IN_REQUIRED_HEIGHT_LOCKTIME : ℕ := 0x12
@[match_pattern] abbrev PSBT_IN_TAP_KEY_SIG : ℕ := 0x13
@[match_pattern] abbrev PSBT_IN_TAP_SCRIPT_SIG : ℕ := 0x14
@[match_pattern] abbrev PSBT_IN_TAP_LEAF_SCRIPT : ℕ := 0x15
@[match_pattern] abbrev PSBT_IN_TAP_BIP32_DERIVATION : ℕ := 0x16
@[match_pattern] abbrev PSBT_IN_TAP_INTERNAL_KEY : ℕ := 0x17
@[match_pattern] abbrev PSBT_IN_TAP_MERKLE_ROOT : ℕ := 0x18
@[match_pattern] abbrev PSBT_IN_MUSIG2_PARTICIPANT_PUBKEYS : ℕ := 0x1a
@[match_pattern] abbrev PSBT_IN_MUSIG2_PUB_NONCE : ℕ := 0x1b
@[match_pattern] abbrev PSBT_IN_MUSIG2_PARTIAL_SIG : ℕ := 0x1c

open Exc in
/-- The branch of the read loop for a key type. -/
def branch (R : Runtime) (key : Bytes) (keyLookup : List Bytes) (self : PartiallySignedInput) :
    ℕ → Branch PartiallySignedInput
  | PSBT_IN_NON_WITNESS_UTXO => .value
      (checkKey key keyLookup "Duplicate Key, input non witness utxo already provided"
        (key.length ≠ 1) "non witness utxo key is more than one byte type")
      fun v => do
        let tx ← runOn (CTransaction.deserialize R {}) v
        let tx ← tx.rehash R
        return { self with nonWitnessUtxo := some tx }
  | PSBT_IN_WITNESS_UTXO => .value
      (checkKey key keyLookup "Duplicate Key, input witness utxo already provided"
        (key.length ≠ 1) "witness utxo key is more than one byte type")
      fun v => do
        let txout ← runOn (CTxOut.deserialize R) v
        return { self with witnessUtxo := some txout }
  | PSBT_IN_PARTIAL_SIG => .value
      (if key.length ≠ 34 ∧ key.length ≠ 66 then
        .error (psbtSerializationError
          "Size of key was not the expected size for the type partial signature pubkey")
      else if self.partialSigs.contains (key.drop 1) then
        .error (psbtSerializationError
          "Duplicate key, input partial signature for pubkey already provided")
      else .ok ())
      fun sig => .ok { self with partialSigs := self.partialSigs.set (key.drop 1) sig }
  | PSBT_IN_SIGHASH_TYPE => .value
      (checkKey key keyLookup "Duplicate key, input sighash type already provided"
        (key.length ≠ 1) "sighash key is more than one byte type")
      fun v => do
        let sighash ← unpack 4 v
        return { self with sighash := some sighash }
  | PSBT_IN_REDEEM_SCRIPT => .value
      (checkKey key keyLookup "Duplicate key, input redeemScript already provided"
        (key.length ≠ 1) "redeemScript key is more than one byte type")
      fun v => .ok { self with redeemScript := v }
  | PSBT_IN_WITNESS_SCRIPT => .value
      (checkKey key keyLookup "Duplicate key, input witnessScript already provided"
        (key.length ≠ 1) "witnessScript key is more than one byte type")
      fun v => .ok { self with witnessScript := v }
  | PSBT_IN_BIP32_DERIVATION => .value (hdKeypathCheck key self.hdKeypaths [34, 66])
      fun v => do
        let hdKeypaths ← hdKeypathStore key self.hdKeypaths v
        return { self with hdKeypaths }
  | PSBT_IN_FINAL_SCRIPTSIG => .value
      (checkKey key keyLookup "Duplicate key, input final scriptSig already provided"
        (key.length ≠ 1) "final scriptSig key is more than one byte type")
      fun v => .ok { self with finalScriptSig := v }
  | PSBT_IN_FINAL_SCRIPTWITNESS => .value
      (checkKey key keyLookup "Duplicate key, input final scriptWitness already provided"
        (key.length ≠ 1) "final scriptWitness key is more than one byte type")
      fun v => do
        let wit ← runOn (CTxInWitness.deserialize R) v
        return { self with finalScriptWitness := wit }
  | PSBT_IN_PREVIOUS_TXID => .value
      (do
        notInV0 self.version "PSBT_IN_PREVIOUS_TXID"
        checkKey key keyLookup "Duplicate key, input previous txid is already provided"
          (key.length ≠ 1) "Previous txid key is more than one byte type")
      fun txid =>
        if txid.length ≠ 32 then .error (psbtSerializationError "Previous txid is not 32 bytes")
        else .ok { self with prevTxid := txid }
  | PSBT_IN_OUTPUT_INDEX => .value
      (do
        notInV0 self.version "PSBT_IN_OUTPUT_INDEX"
        checkKey key keyLookup "Duplicate key, input previous output index is already provided"
          (key.length ≠ 1) "Previous output index key is more than one byte type")
      fun v => do
        let prevOut ← fixedInt 4 "Previous output index is not 4 bytes" v
        return { self with prevOut := some prevOut }
  | PSBT_IN_SEQUENCE => .value
      (do
        notInV0 self.version "PSBT_IN_SEQUENCE"
        checkKey key keyLookup "Duplicate key, input sequence is already provided"
          (key.length ≠ 1) "Input sequence key is more than one byte type")
      fun v => do
        let sequence ← fixedInt 4 "Input sequence is not 4 bytes" v
        return { self with sequence := some sequence }
  | PSBT_IN_REQUIRED_TIME_LOCKTIME => .value
      (do
        notInV0 self.version "PSBT_IN_REQUIRED_TIME_LOCKTIME"
        checkKey key keyLookup
          "Duplicate key, input required time based locktime is already provided"
          (key.length ≠ 1) "Input time based locktime key is more than one byte type")
      fun v => do
        let timeLocktime ← fixedInt 4 "Input time based locktime is not 4 bytes" v
        if timeLocktime < 500000000 then
          throw (psbtSerializationError "Input time based locktime is less than 500000000")
        return { self with timeLocktime := some timeLocktime }
  | PSBT_IN_REQUIRED_HEIGHT_LOCKTIME => .value
      (do
        notInV0 self.version "PSBT_IN_REQUIRED_HEIGHT_LOCKTIME"
        checkKey key keyLookup
          "Duplicate key, input required height based locktime index is already provided"
          (key.length ≠ 1) "Input height based locktime key is more than one byte type")
      fun v => do
        let heightLocktime ← fixedInt 4 "Input height based locktime is not 4 bytes" v
        if heightLocktime = 0 ∨ heightLocktime ≥ 500000000 then
          throw (psbtSerializationError
            "Input height based locktime is not greater than 0 and less than 500000000")
        return { self with heightLocktime := some heightLocktime }
  | PSBT_IN_TAP_KEY_SIG => .value
      (checkKey key keyLookup "Duplicate key, input Taproot key signature already provided"
        (key.length ≠ 1) "Input Taproot key signature key is more than one byte type")
      fun v =>
        if v.length < 64 then
          .error (psbtSerializationError
            "Input Taproot key path signature is shorter than 64 bytes")
        else if v.length > 65 then
          .error (psbtSerializationError "Input Taproot key path signature is longer than 65 bytes")
        else .ok { self with tapKeySig := v }
  | PSBT_IN_TAP_SCRIPT_SIG => .value
      (checkKey key keyLookup "Duplicate key, input Taproot script signature already provided"
        (key.length ≠ 65) "Input Taproot script signature key is not 65 bytes")
      fun sig =>
        if sig.length < 64 then
          .error (psbtSerializationError
            "Input Taproot script path signature is shorter than 64 bytes")
        else if sig.length > 65 then
          .error (psbtSerializationError
            "Input Taproot script path signature is longer than 65 bytes")
        else .ok { self with
          tapScriptSigs := self.tapScriptSigs.set ((key.drop 1).take 32, (key.drop 33).take 32) sig }
  | PSBT_IN_TAP_LEAF_SCRIPT => .value
      (if key ∈ keyLookup then
        .error (psbtSerializationError "Duplicate key, input Taproot leaf script already provided")
      else if key.length < 34 then
        .error (psbtSerializationError "Input Taproot leaf script key is not at least 34 bytes")
      else if (key.length - 2) % 32 ≠ 0 then
        .error (psbtSerializationError
          "Input Taproot leaf script key's control block is not valid")
      else .ok ())
      fun script =>
        match script.getLast? with
        | none => .error (psbtSerializationError "Input Taproot leaf script cannot be empty")
        | some leafVer =>
          let leafScript := (script.dropLast, leafVer)
          let controlBlocks := (self.tapScripts.get? leafScript).getD ∅
          .ok { self with tapScripts := self.tapScripts.set leafScript (controlBlocks.add (key.drop 1)) }
  | PSBT_IN_TAP_BIP32_DERIVATION => .value
      (checkKey key keyLookup "Duplicate key, input Taproot BIP 32 keypath already provided"
        (key.length ≠ 33) "Input Taproot BIP 32 keypath key is not 33 bytes")
      fun value => do
        let keypath ← tapBip32Value value
        return { self with tapBip32Paths := self.tapBip32Paths.set ((key.drop 1).take 32) keypath }
  | PSBT_IN_TAP_INTERNAL_KEY => .value
      (checkKey key keyLookup "Duplicate key, input Taproot internal key already provided"
        (key.length ≠ 1) "Input Taproot internal key key is more than one byte type")
      fun v =>
        if v.length ≠ 32 then
          .error (psbtSerializationError "Input Taproot internal key is not 32 bytes")
        else .ok { self with tapInternalKey := v }
  | PSBT_IN_TAP_MERKLE_ROOT => .value
      (checkKey key keyLookup "Duplicate key, input Taproot merkle root already provided"
        (key.length ≠ 1) "Input Taproot merkle root key is more than one byte type")
      fun v =>
        if v.length ≠ 32 then
          .error (psbtSerializationError "Input Taproot merkle root is not 32 bytes")
        else .ok { self with tapMerkleRoot := v }
  | PSBT_IN_MUSIG2_PARTICIPANT_PUBKEYS => .value
      (checkKey key keyLookup "Duplicate key, input Musig2 participant pubkeys already provided"
        (key.length ≠ 1 + 33) "Input Musig2 aggregate compressed pubkey is not 33 bytes")
      fun pubkeysCat => do
        let pubkeys ← musig2Pubkeys pubkeysCat
        return { self with
          musig2ParticipantPubkeys := self.musig2ParticipantPubkeys.set (key.drop 1) pubkeys }
  | PSBT_IN_MUSIG2_PUB_NONCE => .value
      (checkKey key keyLookup "Duplicate key, Musig2 public nonce already provided"
        (key.length ∉ [1 + 33 + 33, 1 + 33 + 33 + 32])
        "Invalid key length for Musig2 public nonce")
      fun publicNonces =>
        if publicNonces.length ≠ 66 then
          .error (psbtSerializationError
            "The length of the public nonces in Musig2 must be exactly 66 bytes")
        else .ok { self with
          musig2PubNonces := self.musig2PubNonces.set (musig2Key key) publicNonces }
  | PSBT_IN_MUSIG2_PARTIAL_SIG => .value
      (checkKey key keyLookup "Duplicate key, Musig2 partial signature already provided"
        (key.length ∉ [1 + 33 + 33, 1 + 33 + 33 + 32])
        "Invalid key length for Musig2 partial signature")
      fun partialSig =>
        if partialSig.length ≠ 32 then
          .error (psbtSerializationError
            "The length of the partial signature in Musig2 must be exactly 32 bytes")
        else .ok { self with
          musig2PartialSigs := self.musig2PartialSigs.set (musig2Key key) partialSig }
  | _ => .value
      (if self.unknown.contains key then
        .error (psbtSerializationError "Duplicate key, key for unknown value already provided")
      else .ok ())
      fun unknownBytes => .ok { self with unknown := self.unknown.set key unknownBytes }

/-- Make sure required PSBTv2 fields are present. -/
def requireV2 (self : PartiallySignedInput) : Except Exc Unit :=
  if self.version ≥ 2 then
    if self.prevTxid.length = 0 then
      .error (.psbtSerializationError "Previous TXID is required in PSBTv2")
    else if self.prevOut = none then
      .error (.psbtSerializationError "Previous output's index is required in PSBTv2")
    else .ok ()
  else .ok ()

/-- Deserialize a serialized PSBT input. -/
def deserialize (R : Runtime) (self : PartiallySignedInput) : Read PartiallySignedInput := do
  let self ← readMap R (branch R) self
  Reader.ofExcept self.requireV2
  pure self

/-- `len(self.final_script_sig) == 0 and self.final_script_witness.is_null()` -/
def isUnfinalised (self : PartiallySignedInput) : Bool :=
  self.finalScriptSig.length = 0 ∧ self.finalScriptWitness.isNull

/-- The records of the fields only an input that is not final writes. -/
def signingSections (R : Runtime) (self : PartiallySignedInput) :
    List (Except Exc (List MapRecord)) :=
  [dictRecords PSBT_IN_PARTIAL_SIG id .ok (sortedItems self.partialSigs),
    optionRecord PSBT_IN_SIGHASH_TYPE (fun n : ℕ => pack 4 n) self.sighash,
    .ok (bytesRecord PSBT_IN_REDEEM_SCRIPT self.redeemScript),
    .ok (bytesRecord PSBT_IN_WITNESS_SCRIPT self.witnessScript),
    dictRecords PSBT_IN_BIP32_DERIVATION id KeyOriginInfo.serialize (sortedItems self.hdKeypaths),
    .ok (bytesRecord PSBT_IN_TAP_KEY_SIG self.tapKeySig),
    dictRecords PSBT_IN_TAP_SCRIPT_SIG (fun k => k.1 ++ k.2) .ok self.tapScriptSigs.items,
    .ok (self.tapScripts.items.flatMap fun ((script, leafVer), controlBlocks) =>
      (R.setOrder controlBlocks.elems).map fun controlBlock =>
        (serCompactSize PSBT_IN_TAP_LEAF_SCRIPT ++ controlBlock, script ++ [leafVer])),
    dictRecords PSBT_IN_TAP_BIP32_DERIVATION id (fun v => serTapBip32Value R v.1 v.2)
      self.tapBip32Paths.items,
    .ok (bytesRecord PSBT_IN_TAP_INTERNAL_KEY self.tapInternalKey),
    .ok (bytesRecord PSBT_IN_TAP_MERKLE_ROOT self.tapMerkleRoot)]

/-- The records only a version 2 input writes. -/
def v2Sections (self : PartiallySignedInput) : List (Except Exc (List MapRecord)) :=
  [.ok (bytesRecord PSBT_IN_PREVIOUS_TXID self.prevTxid),
    optionRecord PSBT_IN_OUTPUT_INDEX (fun n : ℕ => pack 4 n) self.prevOut,
    optionRecord PSBT_IN_SEQUENCE (fun n : ℕ => pack 4 n) self.sequence,
    optionRecord PSBT_IN_REQUIRED_TIME_LOCKTIME (fun n : ℕ => pack 4 n) self.timeLocktime,
    optionRecord PSBT_IN_REQUIRED_HEIGHT_LOCKTIME (fun n : ℕ => pack 4 n) self.heightLocktime]

/-- The records of an input, field by field in the order they are written. -/
def sections (R : Runtime) (self : PartiallySignedInput) : List (Except Exc (List MapRecord)) :=
  [optionRecord PSBT_IN_NON_WITNESS_UTXO CTransaction.serializeWithWitness self.nonWitnessUtxo,
    optionRecord PSBT_IN_WITNESS_UTXO CTxOut.serialize self.witnessUtxo] ++
  (if self.isUnfinalised then self.signingSections R else []) ++
  [.ok (bytesRecord PSBT_IN_FINAL_SCRIPTSIG self.finalScriptSig),
    .ok (if !self.finalScriptWitness.isNull then
      [(serCompactSize PSBT_IN_FINAL_SCRIPTWITNESS, self.finalScriptWitness.serialize)] else []),
    dictRecords PSBT_IN_MUSIG2_PARTICIPANT_PUBKEYS id (fun pubkeys => .ok pubkeys.flatten)
      self.musig2ParticipantPubkeys.items,
    dictRecords PSBT_IN_MUSIG2_PUB_NONCE serMusig2Key .ok self.musig2PubNonces.items,
    dictRecords PSBT_IN_MUSIG2_PARTIAL_SIG serMusig2Key .ok self.musig2PartialSigs.items] ++
  (if self.version ≥ 2 then self.v2Sections else []) ++
  [.ok (sortedItems self.unknown)]

/-- Serialize this PSBT input. -/
def serialize (R : Runtime) (self : PartiallySignedInput) : Except Exc Bytes :=
  serializeMap (self.sections R)

end PartiallySignedInput

end Hwi
