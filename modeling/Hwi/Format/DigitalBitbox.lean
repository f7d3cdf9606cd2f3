import Hwi.Format.Sighash
import Hwi.Proofs.UnsignedTx
import Hwi.Spec.Dbb

/-! What is asked of the hashes the Digital Bitbox is to sign, and which inputs it cannot
hash. -/

namespace Hwi

namespace DigitalbitboxClient

/-- The output an input spends: that of the verified transaction when there is
one, the witness UTXO otherwise. -/
def Spends (txin : CTxIn) (psbtIn : PartiallySignedInput) (spent : CTxOut) : Prop :=
  match psbtIn.nonWitnessUtxo with
  | some prev => prev.sha256 = some txin.prevout.hash ∧ prev.vout[txin.prevout.n]? = some spent
  | none => psbtIn.witnessUtxo = some spent

/-- The inputs that are hashed as consensus does: those that do not spend a
witness program, and those that spend a P2WPKH or P2WSH program, have the amount
of the spent output in their witness UTXO, and no witness script that is itself
of the form of P2WPKH. -/
def HashedRight (spent : CTxOut) (psbtIn : PartiallySignedInput) : Prop :=
  (∀ v prog, ¬WitnessProgram (spendScript spent psbtIn.redeemScript) v prog) ∨
    ∃ prog utxo, WitnessProgram (spendScript spent psbtIn.redeemScript) 0 prog ∧
      psbtIn.witnessUtxo = some utxo ∧ utxo.nValue = spent.nValue ∧
      (prog.length = 20 ∨
        prog.length = 32 ∧ ∀ p, WitnessProgram psbtIn.witnessScript 0 p → p.length ≠ 20)

/-- The message behind a hash is that of consensus exactly for these inputs. -/
def Message (R : Runtime) (tx : CTransaction) (iNum : ℕ) (txin : CTxIn)
    (psbtIn : PartiallySignedInput) (message : Bytes) : Prop :=
  ∃ spent, Spends txin psbtIn spent ∧
    (SighashAllMessage R tx iNum txin spent psbtIn.redeemScript psbtIn.witnessScript message ↔
      HashedRight spent psbtIn)

/-- Every scriptSig of the transaction to sign is empty. -/
def Blank (R : Runtime) (psbt : PSBT) : Prop :=
  ∀ tx, psbt.getUnsignedTx R = .ok tx → ∀ txin ∈ tx.vin, txin.scriptSig = []

/-- A hash that is sent: it is for an input of the transaction and a key of the
device in it, and the preimage that was made for the input is the message of
consensus exactly when the input is hashed right. -/
def HashOf (R : Runtime) (psbt : PSBT) (tx : CTransaction) (masterFp : Bytes) (tup : SighashTuple) :
    Prop :=
  ∃ txin psbtIn origin message, tx.vin[tup.iNum]? = some txin ∧ psbt.inputs[tup.iNum]? = some psbtIn ∧
    psbtIn.hdKeypaths.get? tup.pubkey = some origin ∧ origin.fingerprint = masterFp ∧
    tup.keypath = origin.getDerivationPath ∧
    (inputPreimage R tup.iNum txin psbtIn).run tx = .ok (some message) tx ∧
    tup.sighash = hexlify (R.hash256 message) ∧ Message R tx tup.iNum txin psbtIn message

/-- What has been sent: the question for the fingerprint, and commands to sign hashes of
the PSBT. -/
def Sends (R : Runtime) (c : Dbb.Client) (psbt : PSBT) (s : Dbb.State) : Prop :=
  ∀ command ∈ s.sent, command = Dbb.xpubCommand "m/0h".toList ∨
    ∃ tx masterFp s' tups, psbt.getUnsignedTx R = .ok tx ∧
      (Dbb.getMasterFingerprint c).run { psbt } = .ok masterFp s' ∧ command = .text (signCommand tups) ∧
      ∀ tup ∈ tups, HashOf R psbt tx masterFp tup

/-! ### Inputs that are not hashed -/

/-- The previous transaction is another one than the input spends. -/
def WrongPrev (txin : CTxIn) (psbtIn : PartiallySignedInput) : Prop :=
  ∃ prev, psbtIn.nonWitnessUtxo = some prev ∧ prev.sha256 ≠ some txin.prevout.hash

/-- The scripts that are needed to spend an output are there. -/
def ScriptsGiven (spent : CTxOut) (psbtIn : PartiallySignedInput) : Prop :=
  (isP2sh spent.scriptPubKey = true → psbtIn.redeemScript ≠ []) ∧
    (isP2wsh (spendScript spent psbtIn.redeemScript) = true → psbtIn.witnessScript ≠ [])

/-- The outputs that are no witness program and hashed all the same. -/
def LegacyHashed (spent : CTxOut) (psbtIn : PartiallySignedInput) : Prop :=
  isP2sh spent.scriptPubKey = true ∨ isP2pkh (spendScript spent psbtIn.redeemScript) = true ∨
    isP2pk (spendScript spent psbtIn.redeemScript) = true

/-- An input of the transaction that cannot be hashed: the previous transaction has no such
output, a witness program comes without a witness UTXO, or a number that is hashed does
not fit. -/
inductive HashBreaks (tx : CTransaction) (txin : CTxIn) (psbtIn : PartiallySignedInput) : Prop
  | vout {prev} (hprev : psbtIn.nonWitnessUtxo = some prev) (hhash : prev.sha256 = some txin.prevout.hash)
      (hn : prev.vout.length ≤ txin.prevout.n)
  | noUtxo {spent v prog} (hspends : Spends txin psbtIn spent) (hscripts : ScriptsGiven spent psbtIn)
      (hprog : WitnessProgram (spendScript spent psbtIn.redeemScript) v prog)
      (hutxo : psbtIn.witnessUtxo = none)
  | amount {spent v prog utxo} (hspends : Spends txin psbtIn spent)
      (hscripts : ScriptsGiven spent psbtIn)
      (hprog : WitnessProgram (spendScript spent psbtIn.redeemScript) v prog)
      (hutxo : psbtIn.witnessUtxo = some utxo) (hfits : ¬SignedFits 8 utxo.nValue)
  | numbers {spent} (hspends : Spends txin psbtIn spent) (hscripts : ScriptsGiven spent psbtIn)
      (hkind : (∃ v prog, WitnessProgram (spendScript spent psbtIn.redeemScript) v prog) ∨
        LegacyHashed spent psbtIn) (hfits : ¬tx.NumbersFit)

/-- Each input that cannot be hashed stands behind one with another previous transaction. -/
def Hashable (tx : CTransaction) (inputs : List PartiallySignedInput) : Prop :=
  ∀ (k : ℕ) (x : CTxIn × PartiallySignedInput), (tx.vin.zip inputs)[k]? = some x →
    HashBreaks tx x.1 x.2 → ∃ j < k, ∃ y : CTxIn × PartiallySignedInput,
      (tx.vin.zip inputs)[j]? = some y ∧ WrongPrev y.1 y.2

end DigitalbitboxClient

end Hwi
