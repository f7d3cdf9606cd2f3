import Hwi.Spec.PsbtInput

/-! The values the codecs of `tx.py` and `key.py` can carry and their bytes, and the
bytes of a map of records. -/

namespace Hwi

def COutPoint.Valid (self : COutPoint) : Prop := self.hash < 2 ^ 256 ∧ self.n < 2 ^ 32

def COutPoint.bytes (self : COutPoint) : Bytes := serUint256 self.hash ++ toLE 4 self.n

structure CTxIn.Valid (i : CTxIn) : Prop where
  prevout : i.prevout.Valid
  scriptSig : i.scriptSig.length ≤ maxBytes
  nSequence : i.nSequence < 2 ^ 32

def CTxIn.bytes (self : CTxIn) : Bytes :=
  self.prevout.bytes ++ (serString self.scriptSig ++ toLE 4 self.nSequence)

structure CTxOut.Valid (o : CTxOut) : Prop where
  nValue : SignedFits 8 o.nValue
  scriptPubKey : o.scriptPubKey.length ≤ maxBytes

def CTxOut.bytes (self : CTxOut) : Bytes :=
  toSignedLE 8 self.nValue ++ serString self.scriptPubKey

structure CTxInWitness.Valid (w : CTxInWitness) : Prop where
  size : w.stack.length < 2 ^ 64
  items : ∀ s ∈ w.stack, s.length ≤ maxBytes

/-- A vector of items, each spelled by `enc`. -/
def vectorBytes {α : Type} (enc : α → Bytes) (v : List α) : Bytes :=
  serCompactSize v.length ++ v.flatMap enc

namespace CTransaction

/-- What a transaction can carry over the wire; the witness list may be shorter
than the inputs, the missing stacks being empty. -/
structure Valid (t : CTransaction) : Prop where
  nVersion : SignedFits 4 t.nVersion
  vin : ∀ txin ∈ t.vin, txin.Valid
  vinSize : t.vin.length < 2 ^ 64
  vout : ∀ txout ∈ t.vout, txout.Valid
  voutSize : t.vout.length < 2 ^ 64
  wit : ∀ w ∈ t.vtxinwit, w.Valid
  witSize : t.vtxinwit.length ≤ t.vin.length
  nLockTime : t.nLockTime < 2 ^ 32

/-- What a transaction object can hold; a witness list longer than the inputs is
cut where it is written. -/
structure OnWire (t : CTransaction) : Prop where
  nVersion : SignedFits 4 t.nVersion
  vin : ∀ txin ∈ t.vin, txin.Valid
  vinSize : t.vin.length < 2 ^ 64
  vout : ∀ txout ∈ t.vout, txout.Valid
  voutSize : t.vout.length < 2 ^ 64
  wit : ∀ w ∈ t.vtxinwit, w.Valid
  nLockTime : t.nLockTime < 2 ^ 32

theorem Valid.onWire {t : CTransaction} (h : t.Valid) : t.OnWire :=
  ⟨h.nVersion, h.vin, h.vinSize, h.vout, h.voutSize, h.wit, h.nLockTime⟩

/-- The bytes the transaction id is the hash of. -/
def bytes (self : CTransaction) : Bytes :=
  toSignedLE 4 self.nVersion ++ (vectorBytes CTxIn.bytes self.vin ++
    (vectorBytes CTxOut.bytes self.vout ++ toLE 4 self.nLockTime))

/-- The bytes with the witness, which an all-empty witness leaves out. -/
def witnessBytes (self : CTransaction) : Bytes :=
  if self.witIsNull then self.bytes
  else toSignedLE 4 self.nVersion ++ (serCompactSize 0 ++ (toLE 1 1 ++
    (vectorBytes CTxIn.bytes self.vin ++ (vectorBytes CTxOut.bytes self.vout ++
      (self.fitWitness.flatMap CTxInWitness.serialize ++ toLE 4 self.nLockTime)))))

/-- The transaction as it is read back. -/
def asRead (self : CTransaction) : CTransaction :=
  { nVersion := self.nVersion, vin := self.vin, vout := self.vout
    vtxinwit := if self.witIsNull then [] else self.fitWitness
    nLockTime := self.nLockTime }

/-- The transaction as it is read back from its bytes without the witness. -/
def withoutWitness (self : CTransaction) : CTransaction :=
  { nVersion := self.nVersion, vin := self.vin, vout := self.vout, nLockTime := self.nLockTime }

/-- The transaction with its id cached. -/
def hashed (R : Runtime) (self : CTransaction) : CTransaction :=
  { self with
    sha256 := some (ofLE (R.hash256 self.bytes)), hash := some (R.hash256 self.bytes) }

/-- Two transaction objects that stand for the same transaction: the caches and
the spelling of an empty witness do not count. -/
def Same (a b : CTransaction) : Prop :=
  a.nVersion = b.nVersion ∧ a.vin = b.vin ∧ a.vout = b.vout ∧ a.fitWitness = b.fitWitness ∧
    a.nLockTime = b.nLockTime

end CTransaction

/-- The bytes of a derivation path. -/
def pathBytes (path : List ℤ) : Bytes := path.flatMap fun i => toLE 4 i.toNat

/-- The origins a value of a derivation record can carry. A record of up to
four bytes is a fingerprint without a path. -/
structure KeyOriginInfo.Valid (o : KeyOriginInfo) : Prop where
  fingerprint : o.fingerprint.length = 4 ∨ o.fingerprint.length < 4 ∧ o.path = []
  path : ∀ i ∈ o.path, 0 ≤ i ∧ i < 2 ^ 32

def KeyOriginInfo.bytes (self : KeyOriginInfo) : Bytes := self.fingerprint ++ pathBytes self.path

/-- A record Python can hold, with a key that does not read as a separator. -/
structure RecordFits (r : MapRecord) : Prop where
  key : r.1 ≠ []
  keySize : r.1.length ≤ maxBytes
  valueSize : r.2.length ≤ maxBytes

instance (r : MapRecord) : Decidable (RecordFits r) :=
  decidable_of_iff (r.1 ≠ [] ∧ r.1.length ≤ maxBytes ∧ r.2.length ≤ maxBytes)
    ⟨fun h => ⟨h.1, h.2.1, h.2.2⟩, fun h => ⟨h.key, h.keySize, h.valueSize⟩⟩

/-- The bytes of a map: its records and the separator. -/
def mapBytes (rs : List MapRecord) : Bytes := rs.flatMap serRecord ++ [0x00]

end Hwi
