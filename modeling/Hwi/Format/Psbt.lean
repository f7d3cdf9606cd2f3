import Hwi.Format.Global

/-! A PSBT file map by map, and when its bytes are canonical. -/

namespace Hwi

/-- The maps of a PSBT, each as the entries its records spell, in their order. -/
structure PsbtMaps where
  globals : List GlobalEntry
  inputs : List (List InputEntry)
  outputs : List (List OutputEntry)

/-- The maps of a PSBT as records. -/
structure RawMaps where
  globals : List MapRecord
  inputs : List (List MapRecord)
  outputs : List (List MapRecord)

/-- The magic and the maps, with minimal lengths throughout. -/
def RawMaps.bytes (m : RawMaps) : Bytes :=
  PSBT.magic ++ (mapBytes m.globals ++ (m.inputs.flatMap mapBytes ++ m.outputs.flatMap mapBytes))

namespace PsbtMaps

def raw (m : PsbtMaps) : RawMaps where
  globals := m.globals.map GlobalEntry.record
  inputs := m.inputs.map (List.map InputEntry.record)
  outputs := m.outputs.map (List.map OutputEntry.record)

/-- A map of valid records with distinct keys. -/
structure MapCanonical {ε : Type} (Valid : ε → Prop) (record : ε → MapRecord) (es : List ε) :
    Prop where
  valid : ∀ e ∈ es, Valid e
  fits : ∀ e ∈ es, RecordFits (record e)
  nodup : (es.map fun e => (record e).1).Nodup

/-- What version 0 asks for: the global transaction and nothing that replaces it. -/
structure V0 (R : Runtime) (m : PsbtMaps) (tx : CTransaction) : Prop where
  unsignedTx : .unsignedTx tx ∈ m.globals
  version : ∀ n, .version n ∈ m.globals → n = 0
  globals : ∀ e ∈ m.globals, e.field ∈ [.unsignedTx, .xpub, .version, .unknown]
  inputs : ∀ es ∈ m.inputs, ∀ e ∈ es, e.field.isV2 = false
  outputs : ∀ es ∈ m.outputs, ∀ e ∈ es, e.field.isV2 = false
  inputCount : m.inputs.length = tx.vin.length
  outputCount : m.outputs.length = tx.vout.length
  txid : ∀ (i : ℕ) es txin, m.inputs[i]? = some es → tx.vin[i]? = some txin →
    ∀ utxo, .nonWitnessUtxo utxo ∈ es → R.hash256 utxo.bytes = serUint256 txin.prevout.hash

/-- What version 2 asks of an input: the outpoint, and that a UTXO matches it. -/
structure InputV2 (R : Runtime) (es : List InputEntry) : Prop where
  prevTxid : ∃ txid, .prevTxid txid ∈ es ∧
    ∀ utxo, .nonWitnessUtxo utxo ∈ es → R.hash256 utxo.bytes = txid
  prevOut : ∃ n, .prevOut n ∈ es

/-- What version 2 asks of an output. -/
structure OutputV2 (es : List OutputEntry) : Prop where
  amount : ∃ n, .amount n ∈ es
  script : ∃ s, .script s ∈ es

/-- What versions from 2 on ask for. -/
structure V2 (R : Runtime) (m : PsbtMaps) (version : ℕ) : Prop where
  version : .version version ∈ m.globals
  unsignedTx : ∀ tx, .unsignedTx tx ∉ m.globals
  txVersion : ∃ n, .txVersion n ∈ m.globals
  inputCount : .inputCount m.inputs.length ∈ m.globals
  outputCount : .outputCount m.outputs.length ∈ m.globals
  inputs : ∀ es ∈ m.inputs, InputV2 R es
  outputs : ∀ es ∈ m.outputs, OutputV2 es

/-- The maps of a canonical byte string. -/
structure Canonical (R : Runtime) (m : PsbtMaps) : Prop where
  globals : MapCanonical GlobalEntry.Valid GlobalEntry.record m.globals
  inputs : ∀ es ∈ m.inputs, MapCanonical InputEntry.Valid InputEntry.record es
  outputs : ∀ es ∈ m.outputs, MapCanonical OutputEntry.Valid OutputEntry.record es
  version : (∃ tx, m.V0 R tx) ∨ ∃ n, 2 ≤ n ∧ m.V2 R n

end PsbtMaps

/-! ### The same records -/

namespace RawMaps

/-- The records of a canonical byte string. Every key type is read from a
minimal compact size. -/
def Canonical (R : Runtime) (m : RawMaps) : Prop := ∃ maps : PsbtMaps, maps.Canonical R ∧ maps.raw = m

/-- The same leaf hashes in another order. -/
def SameLeafHashes (v v' : Bytes) : Prop :=
  ∃ (hashes hashes' : List Bytes) (origin : Bytes), hashes.Perm hashes' ∧
    (∀ h ∈ hashes, h.length = 32) ∧ v = serCompactSize hashes.length ++ hashes.flatten ++ origin ∧
    v' = serCompactSize hashes'.length ++ hashes'.flatten ++ origin

/-- The same key and value, the leaf hashes of a taproot derivation compared as
a set. -/
def SameRecord (tapBip32Derivation : UInt8) (r r' : MapRecord) : Prop :=
  r'.1 = r.1 ∧ (r'.2 = r.2 ∨ r.1.head? = some tapBip32Derivation ∧ SameLeafHashes r.2 r'.2)

/-- The same records in some order. -/
def SameMap (tapBip32Derivation : UInt8) (rs rs' : List MapRecord) : Prop :=
  ∃ l, l.Perm rs' ∧ List.Forall₂ (SameRecord tapBip32Derivation) rs l

/-- Whether an input map holds a final scriptSig or scriptWitness. -/
def isFinal (rs : List MapRecord) : Bool := rs.any fun r => r.1 = [0x07] ∨ r.1 = [0x08]

/-- Types 0x02 to 0x06 and 0x13 to 0x18. -/
def isSigning (r : MapRecord) : Bool :=
  r.1.head?.any fun t => (0x02 ≤ t ∧ t ≤ 0x06) ∨ (0x13 ≤ t ∧ t ≤ 0x18)

/-- The records of an input map that are written again. -/
def kept (rs : List MapRecord) : List MapRecord :=
  if isFinal rs then rs.filter fun r => !isSigning r else rs

/-- Map by map the same records, final inputs without their signing records. -/
structure SameRecords (m m' : RawMaps) : Prop where
  globals : m.globals.Perm m'.globals
  inputs : List.Forall₂ (fun rs rs' => SameMap 0x16 (kept rs) rs') m.inputs m'.inputs
  outputs : List.Forall₂ (SameMap 0x07) m.outputs m'.outputs

end RawMaps

/-! ### Well-formed objects -/

/-- An input whose fields meet the rules of the parser, not final. Every leaf
script has a control block, and no control block has two leaf scripts. -/
structure PartiallySignedInput.WellFormed (n : ℕ) (i : PartiallySignedInput) : Prop where
  version : i.version = n
  valid : ∀ f, ∀ e ∈ i.contents f, e.Valid
  fits : ∀ f, ∀ e ∈ i.contents f, RecordFits e.record
  leafScripts : ∀ s ∈ i.tapScripts.values, s.elems ≠ []
  controlBlocks : (i.tapScripts.pairs.map Prod.snd).Nodup
  unfinalised : i.isUnfinalised = true

structure PartiallySignedOutput.WellFormed (n : ℕ) (o : PartiallySignedOutput) : Prop where
  version : o.version = n
  valid : ∀ f, ∀ e ∈ o.contents f, e.Valid
  fits : ∀ f, ∀ e ∈ o.contents f, RecordFits e.record

/-- The fields version 0 takes from an input of the global transaction. -/
structure PartiallySignedInput.Caches (R : Runtime) (i : PartiallySignedInput) (txin : CTxIn) :
    Prop where
  prevTxid : i.prevTxid = serUint256 txin.prevout.hash
  prevOut : i.prevOut = some txin.prevout.n
  sequence : i.sequence = some txin.nSequence
  timeLocktime : i.timeLocktime = none
  heightLocktime : i.heightLocktime = none
  txid : ∀ utxo, i.nonWitnessUtxo = some utxo → R.hash256 utxo.bytes = i.prevTxid

structure PartiallySignedOutput.Caches (o : PartiallySignedOutput) (txout : CTxOut) : Prop where
  amount : o.amount = some txout.nValue
  script : o.script = txout.scriptPubKey

/-- The fields version 2 requires of an input. -/
structure PartiallySignedInput.HasV2 (R : Runtime) (i : PartiallySignedInput) : Prop where
  prevTxid : i.prevTxid ≠ []
  prevOut : i.prevOut ≠ none
  txid : ∀ utxo, i.nonWitnessUtxo = some utxo → R.hash256 utxo.bytes = i.prevTxid

structure PartiallySignedOutput.HasV2 (o : PartiallySignedOutput) : Prop where
  amount : o.amount ≠ none
  script : o.script ≠ []

namespace PSBT

structure WellFormedV0 (R : Runtime) (p : PSBT) : Prop where
  txVersion : p.txVersion = some p.tx.nVersion
  fallbackLocktime : p.fallbackLocktime = some p.tx.nLockTime
  txModifiable : p.txModifiable = none
  inputs : List.Forall₂ (PartiallySignedInput.Caches R) p.inputs p.tx.vin
  outputs : List.Forall₂ PartiallySignedOutput.Caches p.outputs p.tx.vout

structure WellFormedV2 (R : Runtime) (p : PSBT) : Prop where
  txVersion : p.txVersion ≠ none
  inputs : ∀ i ∈ p.inputs, i.HasV2 R
  outputs : ∀ o ∈ p.outputs, o.HasV2

/-- A PSBT object whose fields meet the rules of the parser. -/
structure WellFormed (R : Runtime) (p : PSBT) : Prop where
  valid : ∀ e ∈ p.globalEntries, e.Valid
  fits : ∀ e ∈ p.globalEntries, RecordFits e.record
  inputs : ∀ i ∈ p.inputs, i.WellFormed p.version
  outputs : ∀ o ∈ p.outputs, o.WellFormed p.version
  version : (p.version = 0 ∧ p.WellFormedV0 R) ∨ (2 ≤ p.version ∧ p.WellFormedV2 R)

end PSBT

/-! ### The same object -/

structure PartiallySignedInput.Same (a b : PartiallySignedInput) : Prop where
  nonWitnessUtxo : Option.Rel CTransaction.Same a.nonWitnessUtxo b.nonWitnessUtxo
  witnessUtxo : a.witnessUtxo = b.witnessUtxo
  partialSigs : a.partialSigs.Same b.partialSigs
  sighash : a.sighash = b.sighash
  redeemScript : a.redeemScript = b.redeemScript
  witnessScript : a.witnessScript = b.witnessScript
  hdKeypaths : a.hdKeypaths.Same b.hdKeypaths
  finalScriptSig : a.finalScriptSig = b.finalScriptSig
  finalScriptWitness : a.finalScriptWitness = b.finalScriptWitness
  prevTxid : a.prevTxid = b.prevTxid
  prevOut : a.prevOut = b.prevOut
  sequence : a.sequence = b.sequence
  timeLocktime : a.timeLocktime = b.timeLocktime
  heightLocktime : a.heightLocktime = b.heightLocktime
  tapKeySig : a.tapKeySig = b.tapKeySig
  tapScriptSigs : a.tapScriptSigs.Same b.tapScriptSigs
  tapScripts : a.tapScripts.Rel OrderedSet.Same b.tapScripts
  tapBip32Paths : a.tapBip32Paths.Rel (fun v w => v.1.Same w.1 ∧ v.2 = w.2) b.tapBip32Paths
  tapInternalKey : a.tapInternalKey = b.tapInternalKey
  tapMerkleRoot : a.tapMerkleRoot = b.tapMerkleRoot
  musig2ParticipantPubkeys : a.musig2ParticipantPubkeys.Same b.musig2ParticipantPubkeys
  musig2PubNonces : a.musig2PubNonces.Same b.musig2PubNonces
  musig2PartialSigs : a.musig2PartialSigs.Same b.musig2PartialSigs
  unknown : a.unknown.Same b.unknown
  version : a.version = b.version

structure PartiallySignedOutput.Same (a b : PartiallySignedOutput) : Prop where
  redeemScript : a.redeemScript = b.redeemScript
  witnessScript : a.witnessScript = b.witnessScript
  hdKeypaths : a.hdKeypaths.Same b.hdKeypaths
  amount : a.amount = b.amount
  script : a.script = b.script
  tapInternalKey : a.tapInternalKey = b.tapInternalKey
  tapTree : a.tapTree = b.tapTree
  tapBip32Paths : a.tapBip32Paths.Rel (fun v w => v.1.Same w.1 ∧ v.2 = w.2) b.tapBip32Paths
  musig2ParticipantPubkeys : a.musig2ParticipantPubkeys.Same b.musig2ParticipantPubkeys
  unknown : a.unknown.Same b.unknown
  version : a.version = b.version

/-- The same PSBT. What stands for the unsigned transaction is the global one in
version 0 and the one the fields describe in version 2. -/
structure PSBT.Same (R : Runtime) (a b : PSBT) : Prop where
  version : a.version = b.version
  tx : a.version = 0 → a.tx.Same b.tx
  unsignedTx : ∀ tx, a.getUnsignedTx R = .ok tx → ∃ tx', b.getUnsignedTx R = .ok tx' ∧ tx.Same tx'
  inputs : List.Forall₂ PartiallySignedInput.Same a.inputs b.inputs
  outputs : List.Forall₂ PartiallySignedOutput.Same a.outputs b.outputs
  unknown : a.unknown.Same b.unknown
  xpub : a.xpub.Same b.xpub
  txVersion : a.txVersion = b.txVersion
  fallbackLocktime : a.fallbackLocktime = b.fallbackLocktime
  txModifiable : a.txModifiable = b.txModifiable
  explicitVersion : b.explicitVersion = (a.explicitVersion || decide (a.version > 0))

end Hwi
