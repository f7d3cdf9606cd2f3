import Hwi.Format.Script
import Hwi.Spec.Tx

/-! What the consensus rules have a SIGHASH_ALL signature commit to: the message
that is hashed, for an output that is not a witness program and for a version 0
witness program. -/

namespace Hwi

/-- The type SIGHASH_ALL as it ends a message. -/
def sighashAll : Bytes := [0x01, 0x00, 0x00, 0x00]

/-- The message of an input that does not spend a witness program: the
transaction with the script code in that input and all other scriptSigs empty. -/
def legacyMessage (tx : CTransaction) (i : ℕ) (scriptCode : Bytes) : Except Exc Bytes := do
  let blank := tx.vin.mapIdx fun j txin =>
    { txin with scriptSig := if j = i then scriptCode else [] }
  let r ← { tx with vin := blank }.serializeWithoutWitness
  return r ++ sighashAll

/-- The message of BIP 143. -/
def bip143Message (R : Runtime) (tx : CTransaction) (txin : CTxIn) (scriptCode : Bytes)
    (amount : ℤ) : Except Exc Bytes := do
  let nVersion ← packSigned 4 tx.nVersion
  let prevouts ← tx.vin.mapM fun txin => txin.prevout.serialize
  let sequences ← tx.vin.mapM fun txin => pack 4 txin.nSequence
  let outpoint ← txin.prevout.serialize
  let amount ← packSigned 8 amount
  let nSequence ← pack 4 txin.nSequence
  let outputs ← tx.vout.mapM CTxOut.serialize
  let nLockTime ← pack 4 tx.nLockTime
  return nVersion ++ (R.hash256 prevouts.flatten ++ (R.hash256 sequences.flatten ++
    (outpoint ++ (serString scriptCode ++ (amount ++ (nSequence ++
      (R.hash256 outputs.flatten ++ (nLockTime ++ sighashAll))))))))

/-- The script that decides how an output is spent: its own, or the redeem
script of a P2SH output. -/
def spendScript (spent : CTxOut) (redeemScript : Bytes) : Bytes :=
  if isP2sh spent.scriptPubKey then redeemScript else spent.scriptPubKey

/-- The messages of an input that spends `spent`. A witness program of another
version or length has none. -/
inductive SighashAllMessage (R : Runtime) (tx : CTransaction) (i : ℕ) (txin : CTxIn) (spent : CTxOut)
    (redeemScript witnessScript : Bytes) : Bytes → Prop
  | legacy {message} : (∀ v prog, ¬WitnessProgram (spendScript spent redeemScript) v prog) →
    legacyMessage tx i (spendScript spent redeemScript) = .ok message →
    SighashAllMessage R tx i txin spent redeemScript witnessScript message
  | p2wpkh {prog message} : WitnessProgram (spendScript spent redeemScript) 0 prog →
    prog.length = 20 → bip143Message R tx txin (p2pkhScript prog) spent.nValue = .ok message →
    SighashAllMessage R tx i txin spent redeemScript witnessScript message
  | p2wsh {prog message} : WitnessProgram (spendScript spent redeemScript) 0 prog →
    prog.length = 32 → bip143Message R tx txin witnessScript spent.nValue = .ok message →
    SighashAllMessage R tx i txin spent redeemScript witnessScript message

end Hwi
