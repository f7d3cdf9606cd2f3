import Hwi.Spec.PsbtInput

/-! The output map of `psbt.py`. -/

namespace Hwi

structure PartiallySignedOutput where
  redeemScript : Bytes := []
  witnessScript : Bytes := []
  hdKeypaths : Dict Bytes KeyOriginInfo := ∅
  amount : Option ℤ := none
  script : Bytes := []
  tapInternalKey : Bytes := []
  tapTree : Bytes := []
  tapBip32Paths : Dict Bytes (OrderedSet Bytes × KeyOriginInfo) := ∅
  musig2ParticipantPubkeys : Dict Bytes (List Bytes) := ∅
  unknown : Dict Bytes Bytes := ∅
  version : ℕ
deriving DecidableEq

namespace PartiallySignedOutput

@[match_pattern] abbrev PSBT_OUT_REDEEM_SCRIPT : ℕ := 0x00
@[match_pattern] abbrev PSBT_OUT_WITNESS_SCRIPT : ℕ := 0x01
@[match_pattern] abbrev PSBT_OUT_BIP32_DERIVATION : ℕ := 0x02
@[match_pattern] abbrev PSBT_OUT_AMOUNT : ℕ := 0x03
@[match_pattern] abbrev PSBT_OUT_SCRIPT : ℕ := 0x04
@[match_pattern] abbrev PSBT_OUT_TAP_INTERNAL_KEY : ℕ := 0x05
@[match_pattern] abbrev PSBT_OUT_TAP_TREE : ℕ := 0x06
@[match_pattern] abbrev PSBT_OUT_TAP_BIP32_DERIVATION : ℕ := 0x07
@[match_pattern] abbrev PSBT_OUT_MUSIG2_PARTICIPANT_PUBKEYS : ℕ := 0x08

open Exc in
/-- The branch of the read loop for a key type. -/
def branch (key : Bytes) (keyLookup : List Bytes) (self : PartiallySignedOutput) :
    ℕ → Branch PartiallySignedOutput
  | PSBT_OUT_REDEEM_SCRIPT => .value
      (checkKey key keyLookup "Duplicate key, output redeemScript already provided"
        (key.length ≠ 1) "Output redeemScript key is more than one byte type")
      fun v => .ok { self with redeemScript := v }
  | PSBT_OUT_WITNESS_SCRIPT => .value
      (checkKey key keyLookup "Duplicate key, output witnessScript already provided"
        (key.length ≠ 1) "Output witnessScript key is more than one byte type")
      fun v => .ok { self with witnessScript := v }
  | PSBT_OUT_BIP32_DERIVATION => .value (hdKeypathCheck key self.hdKeypaths [34, 66])
      fun v => do
        let hdKeypaths ← hdKeypathStore key self.hdKeypaths v
        return { self with hdKeypaths }
  | PSBT_OUT_AMOUNT => .value
      (do
        notInV0 self.version "PSBT_OUT_AMOUNT"
        checkKey key keyLookup "Duplicate key, output amount already provided"
          (key.length ≠ 1) "Output amount key is more than one byte type")
      fun v =>
        if v.length ≠ 8 then .error (psbtSerializationError "Output amount is not 8 bytes")
        else do
          let amount ← unpackSigned 8 v
          return { self with amount := some amount }
  | PSBT_OUT_SCRIPT => .value
      (do
        notInV0 self.version "PSBT_OUT_SCRIPT"
        checkKey key keyLookup "Duplicate key, output script already provided"
          (key.length ≠ 1) "Output script key is more than one byte type")
      fun v => .ok { self with script := v }
  | PSBT_OUT_TAP_INTERNAL_KEY => .value
      (checkKey key keyLookup "Duplicate key, output Taproot internal key already provided"
        (key.length ≠ 1) "Output Taproot internal key key is more than one byte type")
      fun v =>
        if v.length ≠ 32 then
          .error (psbtSerializationError "Output Taproot internal key is not 32 bytes")
        else .ok { self with tapInternalKey := v }
  | PSBT_OUT_TAP_TREE => .value
      (checkKey key keyLookup "Duplicate key, output Taproot tree already provided"
        (key.length ≠ 1) "Output Taproot tree key is more than one byte type")
      fun v => .ok { self with tapTree := v }
  | PSBT_OUT_TAP_BIP32_DERIVATION => .value
      (checkKey key keyLookup "Duplicate key, output Taproot BIP 32 keypath already provided"
        (key.length ≠ 33) "Output Taproot BIP 32 keypath key is not 33 bytes")
      fun value => do
        let keypath ← tapBip32Value value
        return { self with tapBip32Paths := self.tapBip32Paths.set ((key.drop 1).take 32) keypath }
  | PSBT_OUT_MUSIG2_PARTICIPANT_PUBKEYS => .value
      (checkKey key keyLookup "Duplicate key, output Musig2 participant pubkeys already provided"
        (key.length ≠ 1 + 33) "Output Musig2 aggregate compressed pubkey is not 33 bytes")
      fun pubkeysCat => do
        let pubkeys ← musig2Pubkeys pubkeysCat
        return { self with
          musig2ParticipantPubkeys := self.musig2ParticipantPubkeys.set (key.drop 1) pubkeys }
  | _ => .value
      (if self.unknown.contains key then
        .error (psbtSerializationError "Duplicate key, key for unknown value already provided")
      else .ok ())
      fun value => .ok { self with unknown := self.unknown.set key value }

/-- Make sure required PSBTv2 fields are present. -/
def requireV2 (self : PartiallySignedOutput) : Except Exc Unit :=
  if self.version ≥ 2 then
    if self.amount = none then
      .error (.psbtSerializationError "PSBT_OUTPUT_AMOUNT is required in PSBTv2")
    else if self.script.length = 0 then
      .error (.psbtSerializationError "PSBT_OUTPUT_SCRIPT is required in PSBTv2")
    else .ok ()
  else .ok ()

/-- Deserialize a serialized PSBT output map. -/
def deserialize (R : Runtime) (self : PartiallySignedOutput) : Read PartiallySignedOutput := do
  let self ← readMap R branch self
  Reader.ofExcept self.requireV2
  pure self

/-- The records of an output, field by field in the order they are written. -/
def sections (R : Runtime) (self : PartiallySignedOutput) : List (Except Exc (List MapRecord)) :=
  [.ok (bytesRecord PSBT_OUT_REDEEM_SCRIPT self.redeemScript),
    .ok (bytesRecord PSBT_OUT_WITNESS_SCRIPT self.witnessScript),
    dictRecords PSBT_OUT_BIP32_DERIVATION id KeyOriginInfo.serialize
      (sortedItems self.hdKeypaths)] ++
  (if self.version ≥ 2 then
    [optionRecord PSBT_OUT_AMOUNT (packSigned 8) self.amount,
      .ok (bytesRecord PSBT_OUT_SCRIPT self.script)]
  else []) ++
  [.ok (bytesRecord PSBT_OUT_TAP_INTERNAL_KEY self.tapInternalKey),
    .ok (bytesRecord PSBT_OUT_TAP_TREE self.tapTree),
    dictRecords PSBT_OUT_TAP_BIP32_DERIVATION id (fun v => serTapBip32Value R v.1 v.2)
      self.tapBip32Paths.items,
    dictRecords PSBT_OUT_MUSIG2_PARTICIPANT_PUBKEYS id (fun pubkeys => .ok pubkeys.flatten)
      self.musig2ParticipantPubkeys.items,
    .ok (sortedItems self.unknown)]

/-- Serialize this PSBT output. -/
def serialize (R : Runtime) (self : PartiallySignedOutput) : Except Exc Bytes :=
  serializeMap (self.sections R)

/-- Creates a `CTxOut` for this output. -/
def getTxout (self : PartiallySignedOutput) : Except Exc CTxOut :=
  match self.amount with
  | none => .error .assertionError
  | some amount =>
    if self.script.length ≠ 0 then .ok { nValue := amount, scriptPubKey := self.script }
    else .error .assertionError

end PartiallySignedOutput

end Hwi
