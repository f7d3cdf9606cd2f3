import Hwi.Format.Global
import Hwi.Format.Spelling

/-! The rules of the three kinds of map, record by record: which keys and values the parser goes on
after, and on which of them a primitive breaks off. -/

namespace Hwi

/-- Not the exception of the parser. -/
def Unexpected (e : Exc) : Prop := ∀ msg, e ≠ .psbtSerializationError msg

/-- A computation returns or raises the exception of the parser. -/
def Expected {α : Type} (r : Except Exc α) : Prop :=
  ∀ e, r = .error e → ∃ msg, e = .psbtSerializationError msg

/-! ### Lengths -/

/-- The number of bytes of a compact size with a first byte. -/
def compactSizeLength (first : UInt8) : ℕ :=
  if first = 253 then 3 else if first = 254 then 5 else if first = 255 then 9 else 1

/-- The bytes end before the compact size they start with does. -/
def CutSize : Bytes → Prop
  | [] => True
  | first :: s => s.length + 1 < compactSizeLength first

/-- The length of a byte string is cut, or more bytes are announced than can be asked for. -/
def BadLength (R : Runtime) (s : Bytes) : Prop :=
  CutSize s ∨ ∃ n s₁, deserCompactSize s = .ok n s₁ ∧ ¬Readable R n s₁

/-- Nothing is left of the stream that could be the key of a record, and what is left after it. An
empty key ends a map, and so does one that cannot be read. -/
inductive EndsMap (R : Runtime) : Bytes → Bytes → Prop
  | empty {s s'} (h : deserString R s = .ok [] s') : EndsMap R s s'
  | cut {s} (h : CutSize s) : EndsMap R s []
  | unreadable {s n s₁} (hn : deserCompactSize s = .ok n s₁) (h : ¬Readable R n s₁) : EndsMap R s s₁

/-! ### One map -/

/-- The rules of a kind of map: what the type of a key stands for, which fields are counts, which
look for duplicates by what follows the first byte of the key, which keys and values pass, and
which values a primitive cannot unpack. -/
structure MapRules (φ : Type) where
  ofType : ℕ → φ
  isCount : φ → Bool
  byData : φ → Bool
  keyShape : φ → Bytes → Prop
  passes : φ → Bytes → Prop
  breaks : φ → Bytes → Prop

section

variable {φ : Type} (M : MapRules φ)

/-- The key is one of a field. -/
def MapRules.HasField (f : φ) (key : Bytes) : Prop :=
  ∃ t, runOn deserCompactSize key = .ok t ∧ M.ofType t = f

/-- The key is new after the keys of the records before it. -/
def MapRules.Fresh (rs : List MapRecord) (key : Bytes) (f : φ) : Prop :=
  if M.byData f then ∀ r ∈ rs, M.HasField f r.1 → r.1.drop 1 ≠ key.drop 1 else key ∉ rs.map Prod.fst

/-- The stream goes on with the key of a record that passes the checks of its field. -/
structure KeyPasses (R : Runtime) (rs : List MapRecord) (s key : Bytes) (f : φ) (s₁ : Bytes) : Prop where
  read : deserString R s = .ok key s₁
  ne_nil : key ≠ []
  field : M.HasField f key
  shape : M.keyShape f key
  fresh : M.Fresh rs key f

/-- The value of a record. A count is a compact size behind a length that is not looked at. -/
def ReadsValue (R : Runtime) (count : Bool) (s v s' : Bytes) : Prop :=
  if count then (∃ n, deserCompactSize s = .ok n (v ++ s')) ∧ ∃ m, Announces v m
  else deserString R s = .ok v s'

/-- The length of a value is bad, or the compact size of a count is cut. -/
def BadValue (R : Runtime) (count : Bool) (s : Bytes) : Prop :=
  if count then CutSize s ∨ ∃ n s₁, deserCompactSize s = .ok n s₁ ∧ CutSize s₁ else BadLength R s

/-- A map whose records all pass, after some records; the last ones come first. -/
inductive MapRead (R : Runtime) : List MapRecord → Bytes → List MapRecord → Bytes → Prop
  | ends {rs s s'} (h : EndsMap R s s') : MapRead R rs s rs s'
  | record {rs s key f s₁ v s₂ rs' s'} (hkey : KeyPasses M R rs s key f s₁)
      (hv : ReadsValue R (M.isCount f) s₁ v s₂) (hpass : M.passes f v) (hbreak : ¬M.breaks f v)
      (h : MapRead R ((key, v) :: rs) s₂ rs' s') : MapRead R rs s rs' s'

/-- A map in which, after records that pass, one breaks off: its type is cut, or its key passes and
its value cannot be read or unpacked. -/
inductive MapFault (R : Runtime) : List MapRecord → Bytes → Prop
  | type {rs s key s₁} (hkey : deserString R s = .ok key s₁) (hne : key ≠ []) (h : CutSize key) :
      MapFault R rs s
  | length {rs s key f s₁} (hkey : KeyPasses M R rs s key f s₁) (h : BadValue R (M.isCount f) s₁) :
      MapFault R rs s
  | value {rs s key f s₁ v s₂} (hkey : KeyPasses M R rs s key f s₁)
      (hv : ReadsValue R (M.isCount f) s₁ v s₂) (h : M.breaks f v) : MapFault R rs s
  | later {rs s key f s₁ v s₂} (hkey : KeyPasses M R rs s key f s₁)
      (hv : ReadsValue R (M.isCount f) s₁ v s₂) (hpass : M.passes f v) (hbreak : ¬M.breaks f v)
      (h : MapFault R ((key, v) :: rs) s₂) : MapFault R rs s

end

/-! ### Values -/

/-- The path of a derivation record breaks off in the middle of an index. -/
def BadOrigin (v : Bytes) : Prop := 4 < v.length ∧ v.length % 4 ≠ 0

/-- The leaf hashes of a taproot derivation have no count, or a bad origin is behind them. -/
def BadTapPath (v : Bytes) : Prop :=
  CutSize v ∨ ∃ n s, deserCompactSize v = .ok n s ∧ BadOrigin (s.drop (32 * n))

/-- One of the byte strings behind each other cannot be read. -/
inductive BadItems (R : Runtime) : ℕ → Bytes → Prop
  | here {n s} (h : BadLength R s) : BadItems R (n + 1) s
  | later {n s m s₁} (hm : deserCompactSize s = .ok m s₁) (hread : Readable R m s₁)
      (h : BadItems R n (s₁.drop m)) : BadItems R (n + 1) s

/-- The items of a witness have no number, or one of them cannot be read. -/
def BadStack (R : Runtime) (v : Bytes) : Prop :=
  CutSize v ∨ ∃ n s, deserCompactSize v = .ok n s ∧ BadItems R n s

/-- The bytes begin with a transaction. -/
def BeginsWith (v : Bytes) (tx : CTransaction) : Prop := ∃ b, b <+: v ∧ CTransaction.Spelled b tx

/-! ### The rules -/

namespace InputField

def KeyShape (version : ℕ) (key : Bytes) : InputField → Prop
  | partialSig | hdKeypath => key.length = 34 ∨ key.length = 66
  | prevTxid | prevOut | sequence | timeLocktime | heightLocktime => version ≠ 0 ∧ key.length = 1
  | tapScriptSig => key.length = 65
  | tapScript => 34 ≤ key.length ∧ (key.length - 2) % 32 = 0
  | tapBip32Path => key.length = 33
  | musig2ParticipantPubkeys => key.length = 34
  | musig2PubNonce | musig2PartialSig => key.length = 67 ∨ key.length = 99
  | unknown => True
  | _ => key.length = 1

def Passes (v : Bytes) : InputField → Prop
  | prevTxid | tapInternalKey | tapMerkleRoot | musig2PartialSig => v.length = 32
  | prevOut | sequence => v.length = 4
  | timeLocktime => v.length = 4 ∧ 500000000 ≤ ofLE v
  | heightLocktime => v.length = 4 ∧ ofLE v ≠ 0 ∧ ofLE v < 500000000
  | tapKeySig | tapScriptSig => 64 ≤ v.length ∧ v.length ≤ 65
  | tapScript => v ≠ []
  | musig2ParticipantPubkeys => v ≠ [] ∧ v.length % 33 = 0
  | musig2PubNonce => v.length = 66
  | _ => True

def Breaks (R : Runtime) (v : Bytes) : InputField → Prop
  | nonWitnessUtxo => ¬∃ tx, BeginsWith v tx
  | witnessUtxo => v.length < 8 ∨ BadLength R (v.drop 8)
  | sighash => v.length ≠ 4
  | hdKeypath => BadOrigin v
  | finalScriptWitness => BadStack R v
  | tapBip32Path => BadTapPath v
  | _ => False

def rules (R : Runtime) (version : ℕ) : MapRules InputField where
  ofType := ofType
  isCount _ := false
  byData f := f == partialSig || f == hdKeypath
  keyShape f key := f.KeyShape version key
  passes f v := f.Passes v
  breaks f v := f.Breaks R v

end InputField

namespace OutputField

def KeyShape (version : ℕ) (key : Bytes) : OutputField → Prop
  | hdKeypath => key.length = 34 ∨ key.length = 66
  | amount | script => version ≠ 0 ∧ key.length = 1
  | tapBip32Path => key.length = 33
  | musig2ParticipantPubkeys => key.length = 34
  | unknown => True
  | _ => key.length = 1

def Passes (v : Bytes) : OutputField → Prop
  | amount => v.length = 8
  | tapInternalKey => v.length = 32
  | musig2ParticipantPubkeys => v ≠ [] ∧ v.length % 33 = 0
  | _ => True

def Breaks (v : Bytes) : OutputField → Prop
  | hdKeypath => BadOrigin v
  | tapBip32Path => BadTapPath v
  | _ => False

def rules (version : ℕ) : MapRules OutputField where
  ofType := ofType
  isCount _ := false
  byData f := f == hdKeypath
  keyShape f key := f.KeyShape version key
  passes f v := f.Passes v
  breaks f v := f.Breaks v

end OutputField

namespace GlobalField

def KeyShape (key : Bytes) : GlobalField → Prop
  | xpub => key.length = 79
  | unknown => True
  | _ => key.length ≤ 1

def Passes (v : Bytes) : GlobalField → Prop
  | unsignedTx => ∃ tx, CTransaction.SpelledPlain v tx ∧ ∀ txin ∈ tx.vin, txin.scriptSig = []
  | txVersion | fallbackLocktime | version => v.length = 4
  | txModifiable => v.length = 1
  | _ => True

def Breaks (v : Bytes) : GlobalField → Prop
  | xpub => BadOrigin v
  | _ => False

def rules : MapRules GlobalField where
  ofType := ofType
  isCount f := f == inputCount || f == outputCount
  byData f := f == xpub
  keyShape f key := f.KeyShape key
  passes f v := f.Passes v
  breaks f v := f.Breaks v

end GlobalField

/-! ### The maps of a PSBT -/

/-- What the global map asks of the maps behind it: the version, how many there are, and in version
0 the transaction ids the UTXOs of the inputs have to match. -/
structure MapsAsked where
  version : ℕ
  inputs : ℕ
  outputs : ℕ
  txids : List Bytes

/-- The version of global records. -/
def versionOf (gs : List MapRecord) : ℕ := ((gs.lookup [0xfb]).map ofLE).getD 0

/-- The global records ask for these maps. -/
inductive AsksMaps (gs : List MapRecord) : MapsAsked → Prop
  | v0 {v tx} (hversion : versionOf gs = 0) (hv : gs.lookup [0x00] = some v)
      (htx : CTransaction.SpelledPlain v tx)
      (hnone : ∀ t ∈ [0x02, 0x03, 0x04, 0x05, 0x06], gs.lookup [t] = none) :
      AsksMaps gs ⟨0, tx.vin.length, tx.vout.length, tx.vin.map fun txin => serUint256 txin.prevout.hash⟩
  | v2 {v n w m} (hversion : 2 ≤ versionOf gs) (htx : gs.lookup [0x00] = none)
      (htxVersion : gs.lookup [0x02] ≠ none) (hv : gs.lookup [0x04] = some v) (hn : Announces v n)
      (hw : gs.lookup [0x05] = some w) (hm : Announces w m) : AsksMaps gs ⟨versionOf gs, n, m, []⟩

/-- The records of an input map say what its version requires, and its UTXO has the id asked for. -/
structure InputPasses (R : Runtime) (asked : MapsAsked) (i : ℕ) (rs : List MapRecord) : Prop where
  outpoint : 2 ≤ asked.version → rs.lookup [0x0e] ≠ none ∧ rs.lookup [0x0f] ≠ none
  utxo : ∀ v tx, rs.lookup [0x00] = some v → BeginsWith v tx →
    some (R.hash256 tx.bytes) = if 2 ≤ asked.version then rs.lookup [0x0e] else asked.txids[i]?

/-- The records of an output map say what its version requires. -/
def OutputPasses (asked : MapsAsked) (rs : List MapRecord) : Prop :=
  2 ≤ asked.version → rs.lookup [0x03] ≠ none ∧ ∃ script ≠ [], rs.lookup [0x04] = some script

def ReadsInput (R : Runtime) (asked : MapsAsked) (i : ℕ) (s s' : Bytes) : Prop :=
  ∃ rs, MapRead (InputField.rules R asked.version) R [] s rs s' ∧ InputPasses R asked i rs

def ReadsOutput (R : Runtime) (asked : MapsAsked) (s s' : Bytes) : Prop :=
  ∃ rs, MapRead (OutputField.rules asked.version) R [] s rs s' ∧ OutputPasses asked rs

/-- As many maps as asked for, one after the other. -/
inductive MapsRead (reads : ℕ → Bytes → Bytes → Prop) : ℕ → ℕ → Bytes → Bytes → Prop
  | nil {i s} : MapsRead reads 0 i s s
  | cons {n i s s₁ s₂} (hne : s ≠ []) (hread : reads i s s₁) (h : MapsRead reads n (i + 1) s₁ s₂) :
      MapsRead reads (n + 1) i s s₂

/-- One of the maps asked for has a fault. -/
inductive MapsFault (reads : ℕ → Bytes → Bytes → Prop) (fault : Bytes → Prop) : ℕ → ℕ → Bytes → Prop
  | here {n i s} (hne : s ≠ []) (h : fault s) : MapsFault reads fault (n + 1) i s
  | later {n i s s₁} (hne : s ≠ []) (hread : reads i s s₁) (h : MapsFault reads fault n (i + 1) s₁) :
      MapsFault reads fault (n + 1) i s

/-- A record breaks off in the global map, in an input map or in an output map, and what is before
it passes. -/
inductive StreamFault (R : Runtime) (bs : Bytes) : Prop
  | globals (hmagic : bs.take 5 = PSBT.magic) (h : MapFault GlobalField.rules R [] (bs.drop 5)) :
      StreamFault R bs
  | input {gs s asked} (hmagic : bs.take 5 = PSBT.magic)
      (hglobals : MapRead GlobalField.rules R [] (bs.drop 5) gs s) (hasked : AsksMaps gs asked)
      (h : MapsFault (ReadsInput R asked) (MapFault (InputField.rules R asked.version) R [])
        asked.inputs 0 s) : StreamFault R bs
  | output {gs s asked s'} (hmagic : bs.take 5 = PSBT.magic)
      (hglobals : MapRead GlobalField.rules R [] (bs.drop 5) gs s) (hasked : AsksMaps gs asked)
      (hinputs : MapsRead (ReadsInput R asked) asked.inputs 0 s s')
      (h : MapsFault (fun _ => ReadsOutput R asked) (MapFault (OutputField.rules asked.version) R [])
        asked.outputs 0 s') : StreamFault R bs

end Hwi
