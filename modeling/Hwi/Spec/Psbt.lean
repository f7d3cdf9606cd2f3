import Hwi.Lib.Base64
import Hwi.Spec.PsbtOutput

/-! The `PSBT` object of `psbt.py`. -/

namespace Hwi

/-- `str.isspace` of one character. -/
def isSpace (c : Char) : Bool :=
  c.toNat ∈ [0x09, 0x0a, 0x0b, 0x0c, 0x0d, 0x1c, 0x1d, 0x1e, 0x1f, 0x20, 0x85, 0xa0, 0x1680, 0x2028,
    0x2029, 0x202f, 0x205f, 0x3000] ∨ (0x2000 ≤ c.toNat ∧ c.toNat ≤ 0x200a)

/-- `s.strip()` -/
def strip (s : Str) : Str := ((s.dropWhile isSpace).reverse.dropWhile isSpace).reverse

/-- `base64.b64decode` of a `str`, which has to be ASCII. -/
def b64decode (s : Str) : Except Exc Bytes :=
  if s.any (fun c => 128 ≤ c.toNat) then .error (.valueError "string argument should contain only ASCII characters")
  else match Base64.decode s with
    | some b => .ok b
    | none => .error .binasciiError

def b64encode (b : Bytes) : Str := Base64.encode b

/-- A PSBT. The fresh object has version 0. -/
structure PSBT where
  tx : CTransaction := {}
  inputs : List PartiallySignedInput := []
  outputs : List PartiallySignedOutput := []
  unknown : Dict Bytes Bytes := ∅
  xpub : Dict Bytes KeyOriginInfo := ∅
  txVersion : Option ℤ := none
  fallbackLocktime : Option ℕ := none
  txModifiable : Option ℕ := none
  version : ℕ := 0
  explicitVersion : Bool := false
deriving DecidableEq

namespace PSBT

@[match_pattern] abbrev PSBT_GLOBAL_UNSIGNED_TX : ℕ := 0x00
@[match_pattern] abbrev PSBT_GLOBAL_XPUB : ℕ := 0x01
@[match_pattern] abbrev PSBT_GLOBAL_TX_VERSION : ℕ := 0x02
@[match_pattern] abbrev PSBT_GLOBAL_FALLBACK_LOCKTIME : ℕ := 0x03
@[match_pattern] abbrev PSBT_GLOBAL_INPUT_COUNT : ℕ := 0x04
@[match_pattern] abbrev PSBT_GLOBAL_OUTPUT_COUNT : ℕ := 0x05
@[match_pattern] abbrev PSBT_GLOBAL_TX_MODIFIABLE : ℕ := 0x06
@[match_pattern] abbrev PSBT_GLOBAL_VERSION : ℕ := 0xFB

/-- `b"psbt\xff"` -/
def magic : Bytes := [0x70, 0x73, 0x62, 0x74, 0xff]

/-- The object and the local variables of `deserialize` in the global loop. -/
structure Global where
  psbt : PSBT
  inputCount : Option ℕ := none
  outputCount : Option ℕ := none
  foundUnsignedTx : Bool := false
deriving DecidableEq

/-- The value of the global unsigned transaction record. -/
def unsignedTx (R : Runtime) (v : Bytes) : Except Exc CTransaction :=
  match CTransaction.deserializeWithoutWitness R v with
  | .error _ _ => .error (.psbtSerializationError "Global unsigned tx is invalid")
  | .ok tx rest =>
    if (rest.take 1).length > 0 then
      .error (.psbtSerializationError "Global unsigned tx is not serialized without witness")
    else if tx.vin.any fun txin => decide (txin.scriptSig.length ≠ 0) || !tx.witIsNull then
      .error (.psbtSerializationError "Unsigned tx does not have empty scriptSigs and scriptWitnesses")
    else .ok tx

open Exc in
/-- The branch of the global read loop for a key type. -/
def branch (R : Runtime) (key : Bytes) (keyLookup : List Bytes) (g : Global) : ℕ → Branch Global
  | PSBT_GLOBAL_UNSIGNED_TX => .value
      (checkKey key keyLookup "Duplicate key, unsigned tx already provided"
        (key.length > 1) "Global unsigned tx key is more than one byte type")
      fun v => do
        let tx ← unsignedTx R v
        return { g with psbt := { g.psbt with tx }, foundUnsignedTx := true }
  | PSBT_GLOBAL_XPUB => .value (hdKeypathCheck key g.psbt.xpub [79])
      fun v => do
        let xpub ← hdKeypathStore key g.psbt.xpub v
        return { g with psbt := { g.psbt with xpub } }
  | PSBT_GLOBAL_TX_VERSION => .value
      (checkKey key keyLookup "Duplicate key, global transaction version is already provided"
        (key.length > 1) "Global transaction version key is more than one byte type")
      fun v => do
        let txVersion ← fixedInt 4 "Global transaction version is not 4 bytes" v
        return { g with psbt := { g.psbt with txVersion := some txVersion } }
  | PSBT_GLOBAL_FALLBACK_LOCKTIME => .value
      (checkKey key keyLookup "Duplicate key, global fallback locktime is already provided"
        (key.length > 1) "Global fallback locktime key is more than one byte type")
      fun v => do
        let fallbackLocktime ← fixedInt 4 "Global fallback locktime is not 4 bytes" v
        return { g with psbt := { g.psbt with fallbackLocktime := some fallbackLocktime } }
  | PSBT_GLOBAL_INPUT_COUNT => .count
      (checkKey key keyLookup "Duplicate key, global input count is already provided"
        (key.length > 1) "Global input count key is more than one byte type")
      fun n => { g with inputCount := some n }
  | PSBT_GLOBAL_OUTPUT_COUNT => .count
      (checkKey key keyLookup "Duplicate key, global output count is already provided"
        (key.length > 1) "Global output count key is more than one byte type")
      fun n => { g with outputCount := some n }
  | PSBT_GLOBAL_TX_MODIFIABLE => .value
      (checkKey key keyLookup "Duplicate key, global tx modifiable flags is already provided"
        (key.length > 1) "Global tx modifiable flags key is more than one byte type")
      fun v => do
        let txModifiable ← fixedInt 1 "Global tx modifiable flags is not 1 bytes" v
        return { g with psbt := { g.psbt with txModifiable := some txModifiable } }
  | PSBT_GLOBAL_VERSION => .value
      (checkKey key keyLookup "Duplicate key, global PSBT version is already provided"
        (key.length > 1) "Global PSBT version key is more than one byte type")
      fun v => do
        let version ← fixedInt 4 "Global PSBT version is not 1 bytes" v
        return { g with psbt := { g.psbt with version, explicitVersion := true } }
  | _ => .value
      (if g.psbt.unknown.contains key then
        .error (psbtSerializationError "Duplicate key, key for unknown value already provided")
      else .ok ())
      fun unknownBytes => .ok
        { g with psbt := { g.psbt with unknown := g.psbt.unknown.set key unknownBytes } }

open Exc in
/-- Check PSBT version constraints. -/
def checkVersion (g : Global) : Except Exc Unit := do
  let self := g.psbt
  if self.version = 0 then
    -- make sure that we got an unsigned tx
    if !g.foundUnsignedTx then
      throw (psbtSerializationError "No unsigned transaction was provided")
    -- Make sure no v2 fields are present
    if self.txVersion.isSome then
      throw (psbtSerializationError "PSBT_GLOBAL_TX_VERSION is not allowed in PSBTv0")
    if self.fallbackLocktime.isSome then
      throw (psbtSerializationError "PSBT_GLOBAL_FALLBACK_LOCKTIME is not allowed in PSBTv0")
    if g.inputCount.isSome then
      throw (psbtSerializationError "PSBT_GLOBAL_INPUT_COUNT is not allowed in PSBTv0")
    if g.outputCount.isSome then
      throw (psbtSerializationError "PSBT_GLOBAL_OUTPUT_COUNT is not allowed in PSBTv0")
    if self.txModifiable.isSome then
      throw (psbtSerializationError "PSBT_GLOBAL_TX_MODIFIABLE is not allowed in PSBTv0")
  -- Disallow v1
  if self.version = 1 then
    throw (psbtSerializationError "There is no PSBT version 1")
  if self.version ≥ 2 then
    -- Tx version, input, and output counts are required
    if self.txVersion = none then
      throw (psbtSerializationError "PSBT_GLOBAL_TX_VERSION is required in PSBTv2")
    if g.inputCount = none then
      throw (psbtSerializationError "PSBT_GLOBAL_INPUT_COUNT is required in PSBTv2")
    if g.outputCount = none then
      throw (psbtSerializationError "PSBT_GLOBAL_OUTPUT_COUNT is required in PSBTv2")
    -- Unsigned tx is disallowed
    if g.foundUnsignedTx then
      throw (psbtSerializationError "PSBT_GLOBAL_UNSIGNED_TX is not allowed in PSBTv2")

/-- The transaction id input `i` has to match. -/
def prevTxid (self : PSBT) (i : ℕ) (psbtIn : PartiallySignedInput) : Except Exc Bytes :=
  if self.version ≥ 2 then .ok psbtIn.prevTxid
  else match self.tx.vin[i]? with
    | some txin => .ok (serUint256 txin.prevout.hash)
    | none => .error .indexError

/-- The check of a non-witness UTXO against its outpoint. -/
def checkUtxoHash (R : Runtime) (prevTxid : Bytes) (psbtIn : PartiallySignedInput) :
    Except Exc PartiallySignedInput :=
  match psbtIn.nonWitnessUtxo with
  | none => .ok psbtIn
  | some tx => do
    let tx ← tx.rehash R
    if tx.hash ≠ some prevTxid then
      throw (.psbtSerializationError "Non-witness UTXO does not match outpoint hash")
    return { psbtIn with nonWitnessUtxo := some tx }

def readInput (R : Runtime) (self : PSBT) (i : ℕ) : Read PartiallySignedInput := do
  let psbtIn ← PartiallySignedInput.deserialize R { version := self.version }
  let prevTxid ← Reader.ofExcept (prevTxid self i psbtIn)
  Reader.ofExcept (checkUtxoHash R prevTxid psbtIn)

/-- `for i in range(n): if f.tell() == end: break; ...`, from index `i` on. -/
def readWhile {α : Type} (item : ℕ → Read α) : ℕ → ℕ → Read (List α)
  | 0, _ => pure []
  | n + 1, i => fun f =>
    if f = [] then .ok [] f
    else (do
      let a ← item i
      let rest ← readWhile item n (i + 1)
      pure (a :: rest)) f

/-- Fill in the items of `l` one after the other from `l'`. -/
def updateEach {α β : Type} (update : α → β → α) : List α → List β → Except Exc (List α)
  | l, [] => .ok l
  | [], _ :: _ => .error .indexError
  | a :: l, b :: l' => do
    let l ← updateEach update l l'
    return update a b :: l

/-- The PSBTv2 fields of an input, from the input of a transaction. -/
def setupInput (psbtIn : PartiallySignedInput) (txin : CTxIn) : PartiallySignedInput :=
  { psbtIn with
    prevTxid := serUint256 txin.prevout.hash
    prevOut := some txin.prevout.n
    sequence := some txin.nSequence }

def setupOutput (psbtOut : PartiallySignedOutput) (txout : CTxOut) : PartiallySignedOutput :=
  { psbtOut with amount := some txout.nValue, script := txout.scriptPubKey }

/-- Fills in the PSBTv2 fields for this PSBT given a transaction. -/
def setupFromTx (self : PSBT) (tx : CTransaction) : Except Exc PSBT := do
  let inputs ← updateEach setupInput self.inputs tx.vin
  let outputs ← updateEach setupOutput self.outputs tx.vout
  return { self with
    txVersion := some tx.nVersion, fallbackLocktime := some tx.nLockTime, inputs, outputs }

/-- A v0 PSBT gets the v2 fields of its global unsigned transaction. -/
def cacheUnsignedTxPieces (self : PSBT) : Except Exc PSBT :=
  if self.version = 0 then self.setupFromTx self.tx else .ok self

/-- Read the magic bytes. -/
def readMagic : Read Unit := do
  let m ← read 5
  if m ≠ magic then throw (.psbtSerializationError "invalid magic")

/-- Read input data. -/
def readInputs (R : Runtime) (g : Global) : Read (List PartiallySignedInput) := do
  let inputCount := g.inputCount.getD g.psbt.tx.vin.length
  let inputs ← readWhile (readInput R g.psbt) inputCount 0
  if g.psbt.inputs.length + inputs.length ≠ inputCount then
    throw (.psbtSerializationError
      "Inputs provided does not match the number of inputs in transaction")
  pure (g.psbt.inputs ++ inputs)

/-- Read output data. -/
def readOutputs (R : Runtime) (g : Global) : Read (List PartiallySignedOutput) := do
  let outputCount := g.outputCount.getD g.psbt.tx.vout.length
  let outputs ← readWhile
    (fun _ => PartiallySignedOutput.deserialize R { version := g.psbt.version }) outputCount 0
  if g.psbt.outputs.length + outputs.length ≠ outputCount then
    throw (.psbtSerializationError
      "Outputs provided does not match the number of outputs in transaction")
  pure (g.psbt.outputs ++ outputs)

/-- The part of `deserialize` that reads the decoded bytes. -/
def deserializeStream (R : Runtime) (self : PSBT) : Read PSBT := do
  readMagic
  let g ← readMap R (branch R) { psbt := self }
  Reader.ofExcept (checkVersion g)
  let inputs ← readInputs R g
  let outputs ← readOutputs R g
  Reader.ofExcept { g.psbt with inputs, outputs }.cacheUnsignedTxPieces

/-- Deserialize a base 64 encoded PSBT. -/
def deserialize (R : Runtime) (self : PSBT) (psbt : Str) : Except Exc PSBT := do
  let psbtBytes ← b64decode (strip psbt)
  runOn (deserializeStream R self) psbtBytes

/-- Version 2 asserts that there is a transaction version. -/
def txVersionRecord (self : PSBT) : Except Exc (List MapRecord) :=
  match self.txVersion with
  | none => .error .assertionError
  | some n => optionRecord PSBT_GLOBAL_TX_VERSION (pack 4) (some n)

/-- The records of the global map in the order they are written. -/
def sections (self : PSBT) : List (Except Exc (List MapRecord)) :=
  (if self.version = 0 then
    [optionRecord PSBT_GLOBAL_UNSIGNED_TX CTransaction.serializeWithWitness (some self.tx)]
  else []) ++
  [dictRecords PSBT_GLOBAL_XPUB id KeyOriginInfo.serialize (sortedItems self.xpub)] ++
  (if self.version ≥ 2 then
    [self.txVersionRecord,
      optionRecord PSBT_GLOBAL_FALLBACK_LOCKTIME (fun n : ℕ => pack 4 n) self.fallbackLocktime,
      .ok [(serCompactSize PSBT_GLOBAL_INPUT_COUNT, serCompactSize self.inputs.length)],
      .ok [(serCompactSize PSBT_GLOBAL_OUTPUT_COUNT, serCompactSize self.outputs.length)],
      optionRecord PSBT_GLOBAL_TX_MODIFIABLE (fun n : ℕ => pack 1 n) self.txModifiable]
  else []) ++
  (if self.version > 0 ∨ self.explicitVersion then
    [optionRecord PSBT_GLOBAL_VERSION (fun n : ℕ => pack 4 n) (some self.version)]
  else []) ++
  [.ok (sortedItems self.unknown)]

/-- The bytes `serialize` encodes. -/
def serializeBytes (R : Runtime) (self : PSBT) : Except Exc Bytes := do
  let r ← serializeMap self.sections
  let inputs ← self.inputs.mapM (PartiallySignedInput.serialize R)
  let outputs ← self.outputs.mapM (PartiallySignedOutput.serialize R)
  return magic ++ r ++ inputs.flatten ++ outputs.flatten

/-- Serialize the PSBT as a base 64 encoded string. -/
def serialize (R : Runtime) (self : PSBT) : Except Exc Str := do
  let r ← self.serializeBytes R
  return b64encode r

open Exc in
/-- Computes the lock time for this transaction: one pass over the inputs with
the time and the height lock as accumulators, `none` once ruled out. -/
def computeLockTimeLoop : List PartiallySignedInput → Option ℕ → Option ℕ →
    Except Exc (Option ℕ × Option ℕ)
  | [], timeLock, heightLock => .ok (timeLock, heightLock)
  | psbtIn :: rest, timeLock, heightLock => do
    let (timeLock, heightLock) ←
      if psbtIn.timeLocktime.isSome ∧ psbtIn.heightLocktime.isNone then
        if timeLock = none then
          throw (psbtSerializationError "Cannot require both time and height locktimes")
        else pure (timeLock, none)
      else if psbtIn.timeLocktime.isNone ∧ psbtIn.heightLocktime.isSome then
        if heightLock = none then
          throw (psbtSerializationError "Cannot require both time and height locktimes")
        else pure (none, heightLock)
      else pure (timeLock, heightLock)
    let timeLock := match psbtIn.timeLocktime, timeLock with
      | some t, some l => some (max l t)
      | _, l => l
    let heightLock := match psbtIn.heightLocktime, heightLock with
      | some h, some l => some (max l h)
      | _, l => l
    computeLockTimeLoop rest timeLock heightLock

def computeLockTime (self : PSBT) : Except Exc ℕ := do
  let (timeLock, heightLock) ← computeLockTimeLoop self.inputs (some 0) (some 0)
  if heightLock.getD 0 > 0 then return heightLock.getD 0
  if timeLock.getD 0 > 0 then return timeLock.getD 0
  return self.fallbackLocktime.getD 0

/-- The input of the unsigned transaction an input map describes. -/
def unsignedTxIn (psbtIn : PartiallySignedInput) : Except Exc CTxIn :=
  match psbtIn.prevOut with
  | none => .error .assertionError
  | some prevOut => do
    let hash ← uint256FromStr psbtIn.prevTxid
    -- If omitted, the sequence number is assumed to be the final sequence number
    return { prevout := { hash, n := prevOut }, nSequence := psbtIn.sequence.getD 0xffffffff }

def unsignedTxOut (psbtOut : PartiallySignedOutput) : Except Exc CTxOut :=
  match psbtOut.amount with
  | none => .error .assertionError
  | some amount => .ok { nValue := amount, scriptPubKey := psbtOut.script }

/-- Get the unsigned transaction represented by this PSBT. -/
def getUnsignedTx (R : Runtime) (self : PSBT) : Except Exc CTransaction :=
  if self.version = 0 then .ok self.tx
  else match self.txVersion with
    | none => .error .assertionError
    | some txVersion => do
      let nLockTime ← self.computeLockTime
      let vin ← self.inputs.mapM unsignedTxIn
      let vout ← self.outputs.mapM unsignedTxOut
      { nVersion := txVersion, vin, vout, nLockTime : CTransaction }.rehash R

end PSBT

end Hwi
