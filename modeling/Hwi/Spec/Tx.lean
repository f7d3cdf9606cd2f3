import Hwi.Spec.Serialize

/-! The transaction objects of `tx.py`. -/

namespace Hwi

structure COutPoint where
  hash : ℕ := 0
  n : ℕ := 0xffffffff
deriving DecidableEq, Repr

namespace COutPoint

def deserialize : Read COutPoint := do
  let hash ← deserUint256
  let n ← readInt 4
  pure { hash, n }

def serialize (self : COutPoint) : Except Exc Bytes := do
  let n ← pack 4 self.n
  return serUint256 self.hash ++ n

end COutPoint

structure CTxIn where
  prevout : COutPoint := {}
  scriptSig : Bytes := []
  nSequence : ℕ := 0
deriving DecidableEq, Repr

namespace CTxIn

def deserialize (R : Runtime) : Read CTxIn := do
  let prevout ← COutPoint.deserialize
  let scriptSig ← deserString R
  let nSequence ← readInt 4
  pure { prevout, scriptSig, nSequence }

def serialize (self : CTxIn) : Except Exc Bytes := do
  let prevout ← self.prevout.serialize
  let nSequence ← pack 4 self.nSequence
  return prevout ++ serString self.scriptSig ++ nSequence

end CTxIn

structure CTxOut where
  nValue : ℤ := 0
  scriptPubKey : Bytes := []
deriving DecidableEq, Repr

namespace CTxOut

def deserialize (R : Runtime) : Read CTxOut := do
  let nValue ← readSigned 8
  let scriptPubKey ← deserString R
  pure { nValue, scriptPubKey }

def serialize (self : CTxOut) : Except Exc Bytes := do
  let nValue ← packSigned 8 self.nValue
  return nValue ++ serString self.scriptPubKey

end CTxOut

/-- The witness of one input, a stack of byte strings. -/
structure CTxInWitness where
  stack : List Bytes := []
deriving DecidableEq, Repr

namespace CTxInWitness

def deserialize (R : Runtime) : Read CTxInWitness := do
  let stack ← deserStringVector R
  pure { stack }

def serialize (self : CTxInWitness) : Bytes := serStringVector self.stack

def isNull (self : CTxInWitness) : Bool := self.stack.isEmpty

end CTxInWitness

/-- `ser_vector` of items that have a `serialize` method. -/
def serVector {α : Type} (serialize : α → Except Exc Bytes) (v : List α) : Except Exc Bytes := do
  let r ← v.mapM serialize
  return serCompactSize v.length ++ r.flatten

/-- A transaction; `vtxinwit` is the list of its `CTxWitness`, and `sha256` and
`hash` cache the transaction id. -/
structure CTransaction where
  nVersion : ℤ := 1
  vin : List CTxIn := []
  vout : List CTxOut := []
  vtxinwit : List CTxInWitness := []
  nLockTime : ℕ := 0
  sha256 : Option ℕ := none
  hash : Option Bytes := none
deriving DecidableEq, Repr

namespace CTransaction

/-- `self.wit.is_null()` -/
def witIsNull (self : CTransaction) : Bool := self.vtxinwit.all CTxInWitness.isNull

def deserialize (R : Runtime) (self : CTransaction) : Read CTransaction := do
  let nVersion ← readSigned 4
  let vin ← deserVector (CTxIn.deserialize R)
  let (flags, vin, vout) ←
    if vin.length = 0 then do
      let flags ← readInt 1
      if flags ≠ 0 then
        let vin ← deserVector (CTxIn.deserialize R)
        let vout ← deserVector (CTxOut.deserialize R)
        pure (flags, vin, vout)
      else pure (flags, vin, self.vout)
    else do
      let vout ← deserVector (CTxOut.deserialize R)
      pure (0, vin, vout)
  let vtxinwit ←
    if flags ≠ 0 then Reader.readN (CTxInWitness.deserialize R) vin.length
    else pure self.vtxinwit
  let nLockTime ← readInt 4
  pure { nVersion, vin, vout, vtxinwit, nLockTime, sha256 := none, hash := none }

def deserializeWithoutWitness (R : Runtime) : Read CTransaction := do
  let nVersion ← readSigned 4
  let vin ← deserVector (CTxIn.deserialize R)
  let vout ← deserVector (CTxOut.deserialize R)
  let nLockTime ← readInt 4
  pure { nVersion, vin, vout, vtxinwit := [], nLockTime, sha256 := none, hash := none }

def serializeWithoutWitness (self : CTransaction) : Except Exc Bytes := do
  let nVersion ← packSigned 4 self.nVersion
  let vin ← serVector CTxIn.serialize self.vin
  let vout ← serVector CTxOut.serialize self.vout
  let nLockTime ← pack 4 self.nLockTime
  return nVersion ++ vin ++ vout ++ nLockTime

/-- `vtxinwit` cut or padded to the number of inputs. -/
def fitWitness (self : CTransaction) : List CTxInWitness :=
  self.vtxinwit.take self.vin.length ++
    List.replicate (self.vin.length - self.vtxinwit.length) ⟨[]⟩

def serializeWithWitness (self : CTransaction) : Except Exc Bytes := do
  let flags := if !self.witIsNull then 1 else 0
  let nVersion ← packSigned 4 self.nVersion
  let marker := if flags ≠ 0 then serCompactSize 0 ++ toLE 1 flags else []
  let vin ← serVector CTxIn.serialize self.vin
  let vout ← serVector CTxOut.serialize self.vout
  let wit := if flags ≠ 0 then self.fitWitness.flatMap CTxInWitness.serialize else []
  let nLockTime ← pack 4 self.nLockTime
  return nVersion ++ marker ++ vin ++ vout ++ wit ++ nLockTime

/-- The transaction after `serialize_with_witness`, which leaves the witness list cut or
padded where it writes one. -/
def afterWitness (self : CTransaction) : CTransaction :=
  if self.witIsNull then self else { self with vtxinwit := self.fitWitness }

/-- `calc_sha256()`: the id is computed where it is not cached, the hash always. -/
def calcSha256 (R : Runtime) (self : CTransaction) : Except Exc CTransaction := do
  let sha256 ← match self.sha256 with
    | some sha256 => pure sha256
    | none => do
      let r ← self.serializeWithoutWitness
      uint256FromStr (R.hash256 r)
  let r ← self.serializeWithoutWitness
  return { self with sha256 := some sha256, hash := some (R.hash256 r) }

/-- Recalculate the txid, the hash of the transaction without witness. -/
def rehash (R : Runtime) (self : CTransaction) : Except Exc CTransaction := do
  let r ← self.serializeWithoutWitness
  let sha256 ← uint256FromStr (R.hash256 r)
  return { self with sha256 := some sha256, hash := some (R.hash256 r) }

end CTransaction

end Hwi
