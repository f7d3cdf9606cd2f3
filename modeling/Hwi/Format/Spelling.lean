import Hwi.Format.Serialize
import Hwi.Format.Tx

/-! Which byte strings spell a transaction and its parts, with compact sizes of any width. -/

namespace Hwi

/-- A byte string behind a compact size of its length. -/
def SpellsString (b s : Bytes) : Prop :=
  s.length ≤ maxBytes ∧ ∃ p, Announces p s.length ∧ b = p ++ s

/-- Items behind a compact size of their number. -/
def SpellsVector {α : Type} (S : Bytes → α → Prop) (b : Bytes) (l : List α) : Prop :=
  ∃ p parts, Announces p l.length ∧ List.Forall₂ S parts l ∧ b = p ++ parts.flatten

def CTxIn.Spelled (b : Bytes) (i : CTxIn) : Prop :=
  i.prevout.Valid ∧ i.nSequence < 2 ^ 32 ∧ ∃ script, SpellsString script i.scriptSig ∧
    b = i.prevout.bytes ++ (script ++ toLE 4 i.nSequence)

def CTxOut.Spelled (b : Bytes) (o : CTxOut) : Prop :=
  SignedFits 8 o.nValue ∧ ∃ script, SpellsString script o.scriptPubKey ∧
    b = toSignedLE 8 o.nValue ++ script

def CTxInWitness.Spelled (b : Bytes) (w : CTxInWitness) : Prop := SpellsVector SpellsString b w.stack

namespace CTransaction

/-- The form without a witness. -/
inductive SpelledPlain : Bytes → CTransaction → Prop
  | mk {nVersion ins vin outs vout nLockTime} (hversion : SignedFits 4 nVersion)
      (hvin : SpellsVector CTxIn.Spelled ins vin) (hvout : SpellsVector CTxOut.Spelled outs vout)
      (hlock : nLockTime < 2 ^ 32) :
      SpelledPlain (toSignedLE 4 nVersion ++ (ins ++ (outs ++ toLE 4 nLockTime)))
        { nVersion, vin, vout, nLockTime }

/-- The form a transaction is read in. An empty list of inputs is taken for the marker of the form
with a witness, and the byte after it for its flags. -/
inductive Spelled : Bytes → CTransaction → Prop
  | plain {b t} (h : SpelledPlain b t) (hvin : t.vin ≠ []) : Spelled b t
  | noFlags {nVersion marker nLockTime} (hversion : SignedFits 4 nVersion)
      (hmarker : Announces marker 0) (hlock : nLockTime < 2 ^ 32) :
      Spelled (toSignedLE 4 nVersion ++ (marker ++ (0 :: toLE 4 nLockTime))) { nVersion, nLockTime }
  | witness {nVersion marker ins vin outs vout wits vtxinwit nLockTime} {flags : UInt8}
      (hversion : SignedFits 4 nVersion) (hmarker : Announces marker 0) (hflags : flags ≠ 0)
      (hvin : SpellsVector CTxIn.Spelled ins vin) (hvout : SpellsVector CTxOut.Spelled outs vout)
      (hwits : List.Forall₂ CTxInWitness.Spelled wits vtxinwit)
      (hlength : vtxinwit.length = vin.length) (hlock : nLockTime < 2 ^ 32) :
      Spelled (toSignedLE 4 nVersion ++ (marker ++ (flags :: (ins ++ (outs ++
        (wits.flatten ++ toLE 4 nLockTime)))))) { nVersion, vin, vout, vtxinwit, nLockTime }

end CTransaction

end Hwi
