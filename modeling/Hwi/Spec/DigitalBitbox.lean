import Hwi.Lib.Procedure
import Hwi.Spec.ExtendedKey
import Hwi.Spec.Psbt
import Hwi.Spec.Script

/-! What `sign_tx` of `digitalbitbox.py` computes from a PSBT: the hashes to sign, and the
commands they are sent in. -/

namespace Hwi

namespace DigitalbitboxClient

/-- A hash to sign, the path of the key, the input and the public key. -/
structure SighashTuple where
  sighash : Str
  keypath : Str
  iNum : ℕ
  pubkey : Bytes
deriving DecidableEq, Repr

/-- The output an input spends, `None` without any UTXO. -/
def findUtxo (iNum : ℕ) (txin : CTxIn) (psbtIn : PartiallySignedInput) : Except Exc (Option CTxOut) :=
  match psbtIn.nonWitnessUtxo with
  | none => .ok psbtIn.witnessUtxo
  | some nonWitnessUtxo =>
    if some txin.prevout.hash ≠ nonWitnessUtxo.sha256 then
      .error (.badArgumentError
        ("Input " ++ toString iNum ++ " has a non_witness_utxo with the wrong hash"))
    else match nonWitnessUtxo.vout[txin.prevout.n]? with
      | some utxo => .ok (some utxo)
      | none => .error .indexError

/-- The script code, whether it is reached through P2SH, and whether the script
is a witness program; `none` where a script is missing. -/
def findScriptcode (utxo : CTxOut) (psbtIn : PartiallySignedInput) : Option (Bytes × Bool × Bool) :=
  let p2sh := isP2sh utxo.scriptPubKey
  -- Look up redeemscript
  if p2sh ∧ psbtIn.redeemScript.length = 0 then none
  else
    let scriptcode := if p2sh then psbtIn.redeemScript else utxo.scriptPubKey
    let isWit := (isWitness scriptcode).1
    if isP2wsh scriptcode then
      -- Look up witnessscript
      if psbtIn.witnessScript.length = 0 then none
      else some (psbtIn.witnessScript, p2sh, isWit)
    else some (scriptcode, p2sh, isWit)

/-- A computation that changes the transaction with the blanked scriptSigs. -/
abbrev Blanked := Procedure Exc CTransaction

def setScriptSig (i : ℕ) (scriptSig : Bytes) (tx : CTransaction) : CTransaction :=
  { tx with vin := tx.vin.modify i fun txin => { txin with scriptSig } }

/-- The transaction with the script code in one input, and sighash ALL. -/
def legacyPreimage (iNum : ℕ) (scriptcode : Bytes) : Blanked Bytes := do
  -- Add to blank_tx
  modify (setScriptSig iNum scriptcode)
  let blankTx ← get
  let serTx ← Procedure.ofExcept blankTx.serializeWithoutWitness
  modify (setScriptSig iNum [])
  return serTx ++ [0x01, 0x00, 0x00, 0x00]

/-- Make sighash preimage. -/
def witnessPreimage (R : Runtime) (blankTx : CTransaction) (txin : CTxIn) (scriptcode : Bytes)
    (nValue : ℤ) : Except Exc Bytes := do
  -- Calculate hashPrevouts and hashSequence
  let prevoutsPreimage ← blankTx.vin.mapM fun inputs => inputs.prevout.serialize
  let sequencePreimage ← blankTx.vin.mapM fun inputs => pack 4 inputs.nSequence
  let hashPrevouts := R.hash256 prevoutsPreimage.flatten
  let hashSequence := R.hash256 sequencePreimage.flatten
  -- Calculate hashOutputs
  let outputsPreimage ← blankTx.vout.mapM CTxOut.serialize
  let hashOutputs := R.hash256 outputsPreimage.flatten
  -- Check if scriptcode is p2wpkh
  let scriptcode :=
    if isP2wpkh scriptcode then [0x76, 0xa9, 0x14] ++ (isWitness scriptcode).2.2 ++ [0x88, 0xac]
    else scriptcode
  let nVersion ← packSigned 4 blankTx.nVersion
  let prevout ← txin.prevout.serialize
  let nValue ← packSigned 8 nValue
  let nSequence ← pack 4 txin.nSequence
  let nLockTime ← pack 4 blankTx.nLockTime
  return nVersion ++ hashPrevouts ++ hashSequence ++ prevout ++ serString scriptcode ++ nValue ++
    nSequence ++ hashOutputs ++ nLockTime ++ [0x01, 0x00, 0x00, 0x00]

/-- The preimage for an input, `none` where the input is skipped. -/
def inputPreimage (R : Runtime) (iNum : ℕ) (txin : CTxIn) (psbtIn : PartiallySignedInput) :
    Blanked (Option Bytes) := do
  match ← Procedure.ofExcept (findUtxo iNum txin psbtIn) with
  | none => return none
  | some utxo =>
    match findScriptcode utxo psbtIn with
    | none => return none
    | some (scriptcode, p2sh, isWit) =>
      if !isWit then
        if p2sh || isP2pkh scriptcode || isP2pk scriptcode then
          let preimage ← legacyPreimage iNum scriptcode
          return some preimage
        -- We don't know what this is, skip it
        else return none
      else
        match psbtIn.witnessUtxo with
        | none => throw .assertionError
        | some witnessUtxo =>
          let blankTx ← get
          let preimage ← Procedure.ofExcept
            (witnessPreimage R blankTx txin scriptcode witnessUtxo.nValue)
          return some preimage

/-- The tuples of the keys of an input that belong to the device. -/
def ownTuples (masterFp : Bytes) (sighash : Bytes) (iNum : ℕ) (psbtIn : PartiallySignedInput) :
    List SighashTuple :=
  psbtIn.hdKeypaths.items.filterMap fun (pubkey, keypath) =>
    if masterFp = keypath.fingerprint then
      some { sighash := hexlify sighash, keypath := keypath.getDerivationPath, iNum, pubkey }
    else none

/-- create sighashes -/
def sighashTuples (R : Runtime) (masterFp : Bytes) : ℕ → List PartiallySignedInput →
    Blanked (List SighashTuple)
  | _, [] => return []
  | iNum, psbtIn :: rest => do
    let blankTx ← get
    match blankTx.vin[iNum]? with
    | none => return []
    | some txin =>
      let preimage ← inputPreimage R iNum txin psbtIn
      let tups := match preimage with
        | none => []
        | some preimage => ownTuples masterFp (R.hash256 preimage) iNum psbtIn
      let more ← sighashTuples R masterFp (iNum + 1) rest
      return tups ++ more

/-- The command to sign the hashes of some tuples. -/
def signCommand (tups : List SighashTuple) : Str :=
  "\x7b\"sign\":\x7b\"data\":[".toList ++
  List.intercalate [','] (tups.map fun tup =>
    "\x7b\"hash\":\"".toList ++ tup.sighash ++ "\",\"keypath\":\"".toList ++ tup.keypath ++
      "\"\x7d".toList) ++
  "]\x7d\x7d".toList

def addSig (psbt : PSBT) (tup : SighashTuple) (sig : Bytes) : PSBT :=
  { psbt with inputs := psbt.inputs.modify tup.iNum fun psbtIn =>
    { psbtIn with partialSigs := psbtIn.partialSigs.set tup.pubkey sig } }

/-- `sighash_tuples[i:i + 15]` for `i` in steps of 15. -/
def batches (tups : List SighashTuple) : List (List SighashTuple) :=
  (List.range ((tups.length + 14) / 15)).map fun k => (tups.drop (15 * k)).take 15

def badArgs : List ℕ :=
  [102, 103, 104, 105, 109, 204, 253, 254, 256, 300, 301, 304, 411, 412, 112, 251]

def deviceFailures : List ℕ :=
  [101, 107, 200, 250, 252, 303, 400, 401, 402, 403, 405, 407, 408, 410, 500, 501, 502, 110, 111,
    113, 900, 901, 902, 903]

def cancels : List ℕ := [600, 601]

end DigitalbitboxClient

end Hwi
