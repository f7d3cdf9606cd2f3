import Hwi.Format.Output
import Hwi.Spec.Psbt

/-! What the global map says, entry by entry. -/

namespace Hwi

inductive GlobalField
  | unsignedTx | xpub | txVersion | fallbackLocktime | inputCount | outputCount | txModifiable
  | version | unknown
deriving DecidableEq, Repr

namespace GlobalField

open PSBT in
def ofType : ℕ → GlobalField
  | PSBT_GLOBAL_UNSIGNED_TX => unsignedTx
  | PSBT_GLOBAL_XPUB => xpub
  | PSBT_GLOBAL_TX_VERSION => txVersion
  | PSBT_GLOBAL_FALLBACK_LOCKTIME => fallbackLocktime
  | PSBT_GLOBAL_INPUT_COUNT => inputCount
  | PSBT_GLOBAL_OUTPUT_COUNT => outputCount
  | PSBT_GLOBAL_TX_MODIFIABLE => txModifiable
  | PSBT_GLOBAL_VERSION => version
  | _ => unknown

def all : List GlobalField :=
  [unsignedTx, xpub, txVersion, fallbackLocktime, inputCount, outputCount, txModifiable, version,
    unknown]

end GlobalField

inductive GlobalEntry
  | unsignedTx (tx : CTransaction)
  | xpub (pubkey : Bytes) (origin : KeyOriginInfo)
  | txVersion (n : ℤ)
  | fallbackLocktime (n : ℕ)
  | inputCount (n : ℕ)
  | outputCount (n : ℕ)
  | txModifiable (n : ℕ)
  | version (n : ℕ)
  | unknown (key value : Bytes)
deriving DecidableEq

namespace GlobalEntry

def field : GlobalEntry → GlobalField
  | unsignedTx .. => .unsignedTx
  | xpub .. => .xpub
  | txVersion .. => .txVersion
  | fallbackLocktime .. => .fallbackLocktime
  | inputCount .. => .inputCount
  | outputCount .. => .outputCount
  | txModifiable .. => .txModifiable
  | version .. => .version
  | unknown .. => .unknown

/-- The slot an entry fills: the entry without its value. -/
def slot : GlobalEntry → GlobalEntry
  | unsignedTx _ => unsignedTx {}
  | xpub pubkey _ => xpub pubkey ⟨[], []⟩
  | txVersion _ => txVersion 0
  | fallbackLocktime _ => fallbackLocktime 0
  | inputCount _ => inputCount 0
  | outputCount _ => outputCount 0
  | txModifiable _ => txModifiable 0
  | version _ => version 0
  | unknown key _ => unknown key []

/-! ### The record of an entry -/

def key : GlobalEntry → Bytes
  | unsignedTx _ => [0x00]
  | xpub pubkey _ => 0x01 :: pubkey
  | txVersion _ => [0x02]
  | fallbackLocktime _ => [0x03]
  | inputCount _ => [0x04]
  | outputCount _ => [0x05]
  | txModifiable _ => [0x06]
  | version _ => [0xfb]
  | unknown key _ => key

def value : GlobalEntry → Bytes
  | unsignedTx tx => tx.bytes
  | xpub _ origin => origin.bytes
  | txVersion n => toLE 4 n.toNat
  | fallbackLocktime n | version n => toLE 4 n
  | inputCount n | outputCount n => serCompactSize n
  | txModifiable n => toLE 1 n
  | unknown _ v => v

def record (e : GlobalEntry) : MapRecord := (e.key, e.value)

/-- The rules for the key and the value of each kind of record. -/
def Valid : GlobalEntry → Prop
  | unsignedTx tx => tx.Valid ∧ tx.witIsNull ∧ ∀ txin ∈ tx.vin, txin.scriptSig = []
  | xpub pubkey origin => pubkey.length = 78 ∧ origin.Valid
  | txVersion n => 0 ≤ n ∧ n < 2 ^ 32
  | fallbackLocktime n | version n => n < 2 ^ 32
  | inputCount n | outputCount n => n < 2 ^ 64
  | txModifiable n => n < 2 ^ 8
  | unknown key _ => ∃ t, runOn deserCompactSize key = .ok t ∧ GlobalField.ofType t = .unknown

/-- The entry as the parser stores it. -/
def stored : GlobalEntry → GlobalEntry
  | unsignedTx tx => unsignedTx tx.asRead
  | e => e

/-- The entry a record of a field is read as. -/
def ofRecord (R : Runtime) (key v : Bytes) : GlobalField → Option GlobalEntry
  | .unsignedTx => (PSBT.unsignedTx R v).toOption.map unsignedTx
  | .xpub => (KeyOriginInfo.deserialize v).toOption.map (xpub (key.drop 1))
  | .txVersion => (unpack 4 v).toOption.map fun n => txVersion n
  | .fallbackLocktime => (unpack 4 v).toOption.map fallbackLocktime
  | .inputCount => (runOn deserCompactSize v).toOption.map inputCount
  | .outputCount => (runOn deserCompactSize v).toOption.map outputCount
  | .txModifiable => (unpack 1 v).toOption.map txModifiable
  | .version => (unpack 4 v).toOption.map version
  | .unknown => some (unknown key v)

end GlobalEntry

namespace PSBT.Global

def add (self : Global) : GlobalEntry → Global
  | .unsignedTx tx => { self with psbt := { self.psbt with tx }, foundUnsignedTx := true }
  | .xpub pubkey origin =>
    { self with psbt := { self.psbt with xpub := self.psbt.xpub.set pubkey origin } }
  | .txVersion n => { self with psbt := { self.psbt with txVersion := some n } }
  | .fallbackLocktime n => { self with psbt := { self.psbt with fallbackLocktime := some n } }
  | .inputCount n => { self with inputCount := some n }
  | .outputCount n => { self with outputCount := some n }
  | .txModifiable n => { self with psbt := { self.psbt with txModifiable := some n } }
  | .version n => { self with psbt := { self.psbt with version := n, explicitVersion := true } }
  | .unknown key v =>
    { self with psbt := { self.psbt with unknown := self.psbt.unknown.set key v } }

/-- The entries a field holds. -/
def contents (self : Global) : GlobalField → List GlobalEntry
  | .unsignedTx => if self.foundUnsignedTx then [.unsignedTx self.psbt.tx] else []
  | .xpub => dictEntries .xpub self.psbt.xpub
  | .txVersion => optionEntries .txVersion self.psbt.txVersion
  | .fallbackLocktime => optionEntries .fallbackLocktime self.psbt.fallbackLocktime
  | .inputCount => optionEntries .inputCount self.inputCount
  | .outputCount => optionEntries .outputCount self.outputCount
  | .txModifiable => optionEntries .txModifiable self.psbt.txModifiable
  | .version => if self.psbt.explicitVersion then [.version self.psbt.version] else []
  | .unknown => dictEntries .unknown self.psbt.unknown

end PSBT.Global

namespace PSBT

/-- The entries of the global map, section by section. -/
def globalSections (self : PSBT) : List (List GlobalEntry) :=
  (if self.version = 0 then [[.unsignedTx self.tx]] else []) ++
  [dictEntries .xpub self.xpub] ++
  (if self.version ≥ 2 then [optionEntries .txVersion self.txVersion,
    optionEntries .fallbackLocktime self.fallbackLocktime, [.inputCount self.inputs.length],
    [.outputCount self.outputs.length], optionEntries .txModifiable self.txModifiable] else []) ++
  (if self.version > 0 ∨ self.explicitVersion then [[.version self.version]] else []) ++
  [dictEntries .unknown self.unknown]

/-- The entries of the global map of a PSBT. -/
def globalEntries (self : PSBT) : List GlobalEntry := self.globalSections.flatten

end PSBT

end Hwi
