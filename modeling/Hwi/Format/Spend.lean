import Hwi.Format.Script
import Hwi.Format.Sighash
import Hwi.Spec.PsbtInput

/-! What an input of a PSBT spends, and the script that decides how. -/

namespace Hwi

/-- The output an input spends, by its full transaction where there is one. -/
def spentOutput (psbtIn : PartiallySignedInput) : Option CTxOut :=
  match psbtIn.nonWitnessUtxo with
  | some tx => psbtIn.prevOut.bind fun n => tx.vout[n]?
  | none => psbtIn.witnessUtxo

/-- The script that decides how an input is signed. -/
def scriptCode (psbtIn : PartiallySignedInput) (spent : CTxOut) : Bytes :=
  let script := spendScript spent psbtIn.redeemScript
  if isP2wsh script then psbtIn.witnessScript else script

end Hwi
