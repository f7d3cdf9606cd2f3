import Hwi.Format.Spelling
import Hwi.Lib.Spelling
import Hwi.Proofs.Tx

/-! What the readers of `tx.py` accept: the strings that spell a transaction or one of its parts,
where only the last string of a stream may be cut. -/

namespace Hwi

open Reader

variable {R : Runtime}

/-! ### Primitives -/

theorem spells_readInt (k : ℕ) :
    SpellsWhole (readInt k) fun b n => n < 256 ^ k ∧ b = toLE k n where
  exactly := by
    rintro b n ⟨hn, rfl⟩
    exact exactly_readInt hn
  split hr := by
    obtain ⟨hn, hs⟩ := readInt_eq_ok hr
    exact Or.inr ⟨_, hs, hn, rfl⟩
  shrinks := shrinks_readInt k

theorem spells_readByte :
    SpellsWhole (readInt 1) fun b n => ∃ first : UInt8, b = [first] ∧ n = first.toNat := by
  apply (spells_readInt 1).congr
  intro b n
  constructor
  · rintro ⟨hn, rfl⟩
    have hlt : n < 256 := by omega
    exact ⟨UInt8.ofNat n, toLE_one hlt, (UInt8.toNat_ofNat_of_lt' hlt).symm⟩
  · rintro ⟨first, rfl, rfl⟩
    refine ⟨first.toNat_lt, ?_⟩
    rw [toLE_one first.toNat_lt, UInt8.ofNat_toNat]

theorem readSigned_eq_ok {k : ℕ} {n : ℤ} {f f' : Bytes} (h : readSigned k f = .ok n f') :
    SignedFits k n ∧ f = toSignedLE k n ++ f' := by
  obtain ⟨b, f₁, hr, hb⟩ := Reader.bind_eq_ok.1 h
  obtain ⟨rfl, rfl⟩ := read_eq_ok.1 hr
  obtain ⟨hu, rfl⟩ := ofExcept_eq_ok.1 hb
  unfold unpackSigned at hu
  split_ifs at hu with hlen
  cases hu
  refine ⟨signedFits_ofSignedLE hlen, ?_⟩
  rw [toSignedLE_ofSignedLE hlen, List.take_append_drop]

theorem spells_readSigned (k : ℕ) :
    SpellsWhole (readSigned k) fun b n => SignedFits k n ∧ b = toSignedLE k n where
  exactly := by
    rintro b n ⟨hn, rfl⟩
    exact exactly_readSigned hn
  split hr := by
    obtain ⟨hn, hs⟩ := readSigned_eq_ok hr
    exact Or.inr ⟨_, hs, hn, rfl⟩
  shrinks := (shrinks_read k).bind fun b => shrinks_ofExcept (unpackSigned k b)

theorem spells_deserCompactSize : SpellsWhole deserCompactSize Announces where
  exactly h := h
  split h := Or.inr (deserCompactSize_eq_ok h)
  shrinks := shrinks_deserCompactSize

/-- Fewer bytes than announced are read at the end of the stream only. -/
theorem spells_deserString : Spells True (deserString R) SpellsString where
  exactly := by
    rintro b s ⟨hs, p, hp, rfl⟩
    exact hp.bind (exactly_readAnnounced R hs)
  split {f s f'} hr := by
    obtain ⟨p, n, f₁, rfl, hp, hread, rfl, rfl⟩ := deserString_eq_ok hr
    rcases Nat.lt_or_ge f₁.length n with hlt | hle
    · left
      exact ⟨trivial, List.drop_eq_nil_of_le hlt.le⟩
    · right
      have hlen : (f₁.take n).length = n := List.length_take_of_le hle
      refine ⟨p ++ f₁.take n, ?_, ?_, p, ?_, rfl⟩
      · rw [List.append_assoc, List.take_append_drop]
      · rw [hlen]
        exact hread.fits
      · rwa [hlen]
  shrinks := shrinks_deserString R

theorem spells_deserVector {α : Type} {cut : Prop} {c : Read α} {S : Bytes → α → Prop}
    (h : Spells cut c S) : Spells cut (deserVector c) (SpellsVector S) := by
  apply (spells_deserCompactSize.spells.bind fun n => h.readN n).congr
  intro b l
  constructor
  · rintro ⟨p, n, vs, hp, ⟨rfl, parts, hparts, rfl⟩, rfl⟩
    exact ⟨p, parts, hp, hparts, rfl⟩
  · rintro ⟨p, parts, hp, hparts, rfl⟩
    exact ⟨p, l.length, parts.flatten, hp, ⟨rfl, parts, hparts, rfl⟩, rfl⟩

/-- The words are read from the bytes of their sum. -/
theorem ofLE_words {ts : List ℕ} {parts : List Bytes}
    (h : List.Forall₂ (fun b t => t < 256 ^ 4 ∧ b = toLE 4 t) parts ts) :
    parts.flatten.length = 4 * ts.length ∧ ofLE parts.flatten = ofWords ts := by
  induction h with
  | nil => exact ⟨rfl, rfl⟩
  | @cons b t parts ts hb _ ih =>
    obtain ⟨ht, rfl⟩ := hb
    obtain ⟨hlen, hsum⟩ := ih
    rw [List.flatten_cons, List.length_append, List.length_cons, toLE_length, hlen, ofLE_append,
      ofLE_toLE ht, hsum, toLE_length, ofWords]
    exact ⟨by omega, rfl⟩

theorem spells_deserUint256 :
    SpellsWhole deserUint256 fun b u => u < 2 ^ 256 ∧ b = serUint256 u where
  exactly := by
    rintro b u ⟨hu, rfl⟩
    exact exactly_deserUint256 hu
  split {s u s'} hr := by
    obtain ⟨ts, s₁, hts, hpure⟩ := Reader.bind_eq_ok.1 hr
    cases hpure
    obtain ⟨b, rfl, hlen, parts, hparts, rfl⟩ := SpellsWhole.split ((spells_readInt 4).readN 8) hts
    obtain ⟨hbytes, hsum⟩ := ofLE_words hparts
    rw [hlen] at hbytes
    have hlt := ofLE_lt parts.flatten
    rw [hbytes, hsum] at hlt
    refine Or.inr ⟨parts.flatten, rfl, by omega, ?_⟩
    rw [serUint256_eq, ← hsum, toLE_ofLE_of_length hbytes]
  shrinks := ((shrinks_readInt 4).readN 8).bind fun ts => shrinks_pure (ofWords ts)

/-! ### Inputs, outputs and witnesses -/

theorem spells_fourBytes {α : Type} (f : ℕ → α) :
    SpellsWhole (readInt 4 >>= fun n => pure (f n)) fun b a => ∃ n < 2 ^ 32, b = toLE 4 n ∧ a = f n := by
  apply ((spells_readInt 4).map f).congr
  intro b a
  constructor
  · rintro ⟨n, ⟨hn, rfl⟩, rfl⟩
    exact ⟨n, by omega, rfl, rfl⟩
  · rintro ⟨n, hn, rfl, rfl⟩
    exact ⟨n, ⟨by omega, rfl⟩, rfl⟩

theorem fourBytes_ne_nil {α : Type} {f : ℕ → α} {b : Bytes} {a : α}
    (h : ∃ n < 2 ^ 32, b = toLE 4 n ∧ a = f n) : b ≠ [] := by
  obtain ⟨n, -, rfl, -⟩ := h
  exact List.ne_nil_of_length_pos (by simp)

theorem COutPoint.spells_deserialize :
    SpellsWhole deserialize fun b (o : COutPoint) => o.Valid ∧ b = o.bytes := by
  apply (spells_deserUint256.bind fun hash => spells_fourBytes fun n => COutPoint.mk hash n).congr
  intro b o
  constructor
  · rintro ⟨us, hash, vs, ⟨hhash, rfl⟩, ⟨n, hn, rfl, rfl⟩, rfl⟩
    exact ⟨⟨hhash, hn⟩, rfl⟩
  · rintro ⟨⟨hhash, hn⟩, rfl⟩
    exact ⟨_, o.hash, _, ⟨hhash, rfl⟩, ⟨o.n, hn, rfl, rfl⟩, rfl⟩

theorem CTxIn.spells_deserialize : SpellsWhole (deserialize R) CTxIn.Spelled := by
  apply (COutPoint.spells_deserialize.bind fun prevout => spells_deserString.bind_whole
    (fun scriptSig => spells_fourBytes fun n => CTxIn.mk prevout scriptSig n)
    fun _ _ _ h => fourBytes_ne_nil h).congr
  intro b i
  constructor
  · rintro ⟨us, prevout, vs, ⟨hprevout, rfl⟩, ⟨script, scriptSig, ws, hscript, ⟨n, hn, rfl, rfl⟩, rfl⟩, rfl⟩
    exact ⟨hprevout, hn, script, hscript, rfl⟩
  · rintro ⟨hprevout, hn, script, hscript, rfl⟩
    exact ⟨_, i.prevout, _, ⟨hprevout, rfl⟩, ⟨script, i.scriptSig, _, hscript, ⟨_, hn, rfl, rfl⟩, rfl⟩, rfl⟩

theorem CTxOut.spells_deserialize : Spells True (deserialize R) CTxOut.Spelled := by
  apply ((spells_readSigned 8).spells.bind fun nValue =>
    spells_deserString.map fun scriptPubKey => CTxOut.mk nValue scriptPubKey).congr
  intro b o
  constructor
  · rintro ⟨us, nValue, vs, ⟨hvalue, rfl⟩, ⟨script, hscript, rfl⟩, rfl⟩
    exact ⟨hvalue, vs, hscript, rfl⟩
  · rintro ⟨hvalue, script, hscript, rfl⟩
    exact ⟨_, o.nValue, script, ⟨hvalue, rfl⟩, ⟨o.scriptPubKey, hscript, rfl⟩, rfl⟩

theorem CTxInWitness.spells_deserialize : Spells True (deserialize R) CTxInWitness.Spelled := by
  apply ((spells_deserVector spells_deserString).map CTxInWitness.mk).congr
  intro b w
  constructor
  · rintro ⟨stack, hstack, rfl⟩
    exact hstack
  · exact fun h => ⟨w.stack, h, rfl⟩

/-! ### Transactions -/

namespace CTransaction

/-- The witness and the lock time of a transaction. -/
def readWitness (R : Runtime) (nVersion : ℤ) (flags : ℕ) (vin : List CTxIn) (vout : List CTxOut) :
    Read CTransaction := do
  let vtxinwit ← if flags ≠ 0 then Reader.readN (CTxInWitness.deserialize R) vin.length else pure []
  let nLockTime ← readInt 4
  pure { nVersion, vin, vout, vtxinwit, nLockTime }

/-- Reading a transaction, by the form its input vector gives it. -/
theorem deserialize_eq : deserialize R {} = (do
    let nVersion ← readSigned 4
    let vin ← deserVector (CTxIn.deserialize R)
    if vin.length = 0 then do
      let flags ← readInt 1
      if flags ≠ 0 then do
        let vin ← deserVector (CTxIn.deserialize R)
        let vout ← deserVector (CTxOut.deserialize R)
        readWitness R nVersion flags vin vout
      else readWitness R nVersion flags vin []
    else do
      let vout ← deserVector (CTxOut.deserialize R)
      readWitness R nVersion 0 vin vout) := rfl

theorem spells_readWitness (nVersion : ℤ) {flags : ℕ} (hflags : flags ≠ 0) (vin : List CTxIn)
    (vout : List CTxOut) : SpellsWhole (readWitness R nVersion flags vin vout)
      (Then (Each CTxInWitness.Spelled vin.length) fun vtxinwit b t =>
        ∃ n < 2 ^ 32, b = toLE 4 n ∧ t = ⟨nVersion, vin, vout, vtxinwit, n, none, none⟩) := by
  unfold readWitness
  rw [if_pos hflags]
  exact (CTxInWitness.spells_deserialize.readN vin.length).bind_whole
    (fun vtxinwit => spells_fourBytes fun n => CTransaction.mk nVersion vin vout vtxinwit n none none)
    fun _ _ _ h => fourBytes_ne_nil h

theorem spells_readLockTime (nVersion : ℤ) (vin : List CTxIn) (vout : List CTxOut) :
    SpellsWhole (readWitness R nVersion 0 vin vout) fun b t =>
      ∃ n < 2 ^ 32, b = toLE 4 n ∧ t = ⟨nVersion, vin, vout, [], n, none, none⟩ :=
  spells_fourBytes fun n => CTransaction.mk nVersion vin vout [] n none none

theorem spells_vin : SpellsWhole (deserVector (CTxIn.deserialize R)) (SpellsVector CTxIn.Spelled) :=
  spells_deserVector CTxIn.spells_deserialize

theorem spells_vout :
    Spells True (deserVector (CTxOut.deserialize R)) (SpellsVector CTxOut.Spelled) :=
  spells_deserVector CTxOut.spells_deserialize

/-- A transaction is read from the strings that spell it. Its lock time stands behind everything
that may be cut. -/
theorem spells_deserializeWithoutWitness :
    SpellsWhole (deserializeWithoutWitness R) SpelledPlain := by
  apply ((spells_readSigned 4).bind fun nVersion => spells_vin.bind fun vin => spells_vout.bind_whole
    (fun vout => spells_fourBytes fun n => CTransaction.mk nVersion vin vout [] n none none)
    fun _ _ _ h => fourBytes_ne_nil h).congr
  intro b t
  constructor
  · rintro ⟨_, nVersion, _, ⟨hversion, rfl⟩, ⟨ins, vin, _, hvin, ⟨outs, vout, _, hvout,
      ⟨n, hn, rfl, rfl⟩, rfl⟩, rfl⟩, rfl⟩
    exact .mk hversion hvin hvout hn
  · rintro ⟨hversion, hvin, hvout, hn⟩
    exact ⟨_, _, _, ⟨hversion, rfl⟩, ⟨_, _, _, hvin, ⟨_, _, _, hvout, ⟨_, hn, rfl, rfl⟩, rfl⟩, rfl⟩, rfl⟩

/-- What follows the flags of a form with a witness. -/
def Tail (nVersion : ℤ) (b : Bytes) (t : CTransaction) : Prop :=
  ∃ ins vin outs vout wits vtxinwit n, SpellsVector CTxIn.Spelled ins vin ∧
    SpellsVector CTxOut.Spelled outs vout ∧ List.Forall₂ CTxInWitness.Spelled wits vtxinwit ∧
    vtxinwit.length = vin.length ∧ n < 2 ^ 32 ∧ b = ins ++ (outs ++ (wits.flatten ++ toLE 4 n)) ∧
    t = ⟨nVersion, vin, vout, vtxinwit, n, none, none⟩

theorem spells_tail (nVersion : ℤ) {flags : ℕ} (hflags : flags ≠ 0) :
    SpellsWhole (deserVector (CTxIn.deserialize R) >>= fun vin =>
      deserVector (CTxOut.deserialize R) >>= fun vout => readWitness R nVersion flags vin vout)
      (Tail nVersion) := by
  apply (spells_vin.bind fun vin => spells_vout.bind_whole
    (fun vout => spells_readWitness nVersion hflags vin vout) ?_).congr
  · intro b t
    constructor
    · rintro ⟨ins, vin, _, hvin, ⟨outs, vout, _, hvout, ⟨_, vtxinwit, _, ⟨hlen, wits, hwits, rfl⟩,
        ⟨n, hn, rfl, rfl⟩, rfl⟩, rfl⟩, rfl⟩
      exact ⟨ins, vin, outs, vout, wits, vtxinwit, n, hvin, hvout, hwits, hlen, hn, rfl, rfl⟩
    · rintro ⟨ins, vin, outs, vout, wits, vtxinwit, n, hvin, hvout, hwits, hlen, hn, rfl, rfl⟩
      exact ⟨ins, vin, _, hvin, ⟨outs, vout, _, hvout, ⟨_, vtxinwit, _, ⟨hlen, wits, hwits, rfl⟩,
        ⟨n, hn, rfl, rfl⟩, rfl⟩, rfl⟩, rfl⟩
  · rintro vout _ t ⟨us, vtxinwit, vs, -, hvs, rfl⟩
    exact List.append_ne_nil_of_right_ne_nil us (fourBytes_ne_nil hvs)

/-- What follows an empty list of inputs. -/
def FlagsTail (nVersion : ℤ) (b : Bytes) (t : CTransaction) : Prop :=
  (∃ flags : UInt8, flags ≠ 0 ∧ ∃ rest, b = flags :: rest ∧ Tail nVersion rest t) ∨
    ∃ n < 2 ^ 32, b = 0 :: toLE 4 n ∧ t = ⟨nVersion, [], [], [], n, none, none⟩

theorem spells_flags (nVersion : ℤ) : SpellsWhole (readInt 1 >>= fun flags =>
      if flags ≠ 0 then (deserVector (CTxIn.deserialize R) >>= fun vin =>
        deserVector (CTxOut.deserialize R) >>= fun vout => readWitness R nVersion flags vin vout)
      else readWitness R nVersion flags [] []) (FlagsTail nVersion) := by
  have hnone {flags : ℕ} (h : ¬flags ≠ 0) : SpellsWhole (readWitness R nVersion flags [] [])
      fun b t => ∃ n < 2 ^ 32, b = toLE 4 n ∧ t = ⟨nVersion, [], [], [], n, none, none⟩ := by
    obtain rfl := not_not.1 h
    exact spells_readLockTime nVersion [] []
  apply (spells_readByte.bind fun flags =>
    spells_ite (fun h => spells_tail nVersion h) fun h => hnone h).congr
  intro b t
  constructor
  · rintro ⟨_, _, rest, ⟨flags, rfl, rfl⟩, ⟨hflags, htail⟩ | ⟨hflags, n, hn, rfl, rfl⟩, rfl⟩
    · left
      exact ⟨flags, fun h => hflags (by rw [h]; rfl), rest, rfl, htail⟩
    · right
      obtain rfl : flags = 0 := UInt8.toNat_inj.1 (not_not.1 hflags)
      exact ⟨n, hn, rfl, rfl⟩
  · rintro (⟨flags, hflags, rest, rfl, htail⟩ | ⟨n, hn, rfl, rfl⟩)
    · have hne : flags.toNat ≠ 0 := fun h => hflags (UInt8.toNat_inj.1 h)
      exact ⟨[flags], _, rest, ⟨flags, rfl, rfl⟩, Or.inl ⟨hne, htail⟩, rfl⟩
    · exact ⟨[0], _, toLE 4 n, ⟨0, rfl, rfl⟩, Or.inr ⟨by decide, n, hn, rfl, rfl⟩, rfl⟩

/-- A list of inputs is empty behind a compact size of zero only. -/
theorem spellsVector_nil {α : Type} {S : Bytes → α → Prop} {b : Bytes} :
    SpellsVector S b [] ↔ Announces b 0 := by
  constructor
  · rintro ⟨p, parts, hp, ⟨⟩, rfl⟩
    simpa using hp
  · exact fun h => ⟨b, [], h, .nil, by simp⟩

/-- What follows a list of inputs. -/
def InputsTail (nVersion : ℤ) : List CTxIn → Bytes → CTransaction → Prop
  | [] => FlagsTail nVersion
  | txin :: vin => Then (SpellsVector CTxOut.Spelled) fun vout b t =>
    ∃ n < 2 ^ 32, b = toLE 4 n ∧ t = ⟨nVersion, txin :: vin, vout, [], n, none, none⟩

theorem spells_inputsTail (nVersion : ℤ) (vin : List CTxIn) : SpellsWhole
    (if vin.length = 0 then readInt 1 >>= fun flags =>
      if flags ≠ 0 then deserVector (CTxIn.deserialize R) >>= fun vin =>
        deserVector (CTxOut.deserialize R) >>= fun vout => readWitness R nVersion flags vin vout
      else readWitness R nVersion flags vin []
    else deserVector (CTxOut.deserialize R) >>= fun vout => readWitness R nVersion 0 vin vout)
    (InputsTail nVersion vin) := by
  cases vin with
  | nil => exact spells_flags nVersion
  | cons txin vin =>
    exact spells_vout.bind_whole (fun vout => spells_readLockTime nVersion (txin :: vin) vout)
      fun _ _ _ h => fourBytes_ne_nil h

theorem spells_deserialize : SpellsWhole (deserialize R {}) Spelled := by
  rw [deserialize_eq]
  apply ((spells_readSigned 4).bind fun nVersion => spells_vin.bind fun vin =>
    spells_inputsTail nVersion vin).congr
  intro b t
  constructor
  · rintro ⟨_, nVersion, _, ⟨hversion, rfl⟩, ⟨ins, vin, rest, hvin, htail, rfl⟩, rfl⟩
    cases vin with
    | nil =>
      have hmarker := spellsVector_nil.1 hvin
      rcases htail with ⟨flags, hflags, rest, rfl, ins', vin', outs, vout, wits, vtxinwit, n, hvin', hvout,
        hwits, hlen, hn, rfl, rfl⟩ | ⟨n, hn, rfl, rfl⟩
      · exact .witness hversion hmarker hflags hvin' hvout hwits hlen hn
      · exact .noFlags hversion hmarker hn
    | cons txin vin =>
      obtain ⟨outs, vout, _, hvout, ⟨n, hn, rfl, rfl⟩, rfl⟩ := htail
      exact .plain (.mk hversion hvin hvout hn) (List.cons_ne_nil txin vin)
  · intro h
    cases h with
    | plain h hvin =>
      cases h with
      | @mk nVersion ins vin outs vout n hversion hins hvout hn =>
        refine ⟨_, nVersion, _, ⟨hversion, rfl⟩, ⟨ins, vin, _, hins, ?_, rfl⟩, rfl⟩
        cases vin with
        | nil => exact absurd rfl hvin
        | cons txin vin => exact ⟨outs, vout, _, hvout, ⟨n, hn, rfl, rfl⟩, rfl⟩
    | @noFlags nVersion marker n hversion hmarker hn =>
      exact ⟨_, nVersion, _, ⟨hversion, rfl⟩, ⟨marker, [], _, spellsVector_nil.2 hmarker,
        Or.inr ⟨n, hn, rfl, rfl⟩, rfl⟩, rfl⟩
    | @witness nVersion marker ins vin outs vout wits vtxinwit n flags hversion hmarker hflags hins hvout
        hwits hlen hn =>
      exact ⟨_, nVersion, _, ⟨hversion, rfl⟩, ⟨marker, [], _, spellsVector_nil.2 hmarker,
        Or.inl ⟨flags, hflags, _, rfl, ins, vin, outs, vout, wits, vtxinwit, n, hins, hvout, hwits, hlen, hn,
          rfl, rfl⟩, rfl⟩, rfl⟩

end CTransaction

/-! #### What is spelled can be written -/

theorem Announces.lt {p : Bytes} {n : ℕ} (h : Announces p n) : n < 2 ^ 64 := by
  obtain ⟨nit, s, hnit, hn⟩ := Reader.bind_eq_ok.1 h.run
  have hlt := (readInt_eq_ok hnit).1
  split_ifs at hn
  · have := (readInt_eq_ok hn).1
    omega
  · have := (readInt_eq_ok hn).1
    omega
  · have := (readInt_eq_ok hn).1
    omega
  · cases hn
    omega

theorem Announces.unique {p : Bytes} {n m : ℕ} (h : Announces p n) (h' : Announces p m) : n = m := by
  have hn := h.run
  rw [h'.run] at hn
  cases hn
  rfl

theorem SpellsVector.valid {α : Type} {S : Bytes → α → Prop} {Valid : α → Prop} {b : Bytes} {l : List α}
    (h : SpellsVector S b l) (hS : ∀ b a, S b a → Valid a) : l.length < 2 ^ 64 ∧ ∀ a ∈ l, Valid a := by
  obtain ⟨p, parts, hp, hparts, rfl⟩ := h
  refine ⟨hp.lt, fun a ha => ?_⟩
  obtain ⟨b, -, hb⟩ := exists_of_forall₂_right hparts ha
  exact hS b a hb

theorem CTxIn.Spelled.valid {b : Bytes} {i : CTxIn} (h : i.Spelled b) : i.Valid := by
  obtain ⟨hprevout, hseq, script, ⟨hscript, -⟩, rfl⟩ := h
  exact ⟨hprevout, hscript, hseq⟩

theorem CTxOut.Spelled.valid {b : Bytes} {o : CTxOut} (h : o.Spelled b) : o.Valid := by
  obtain ⟨hvalue, script, ⟨hscript, -⟩, rfl⟩ := h
  exact ⟨hvalue, hscript⟩

theorem CTxInWitness.Spelled.valid {b : Bytes} {w : CTxInWitness} (h : w.Spelled b) : w.Valid := by
  obtain ⟨hsize, hitems⟩ := SpellsVector.valid h fun _ _ hs => hs.1
  exact ⟨hsize, hitems⟩

namespace CTransaction

theorem SpelledPlain.unique {b : Bytes} {t t' : CTransaction} (h : SpelledPlain b t)
    (h' : SpelledPlain b t') : t = t' := by
  have ht := (spells_deserializeWithoutWitness (R := Runtime.zeros)).exactly h []
  rw [(spells_deserializeWithoutWitness (R := Runtime.zeros)).exactly h' []] at ht
  cases ht
  rfl

theorem SpelledPlain.valid {b : Bytes} {t : CTransaction} (h : SpelledPlain b t) : t.Valid := by
  cases h with
  | mk hversion hvin hvout hlock =>
    obtain ⟨hvinSize, hins⟩ := hvin.valid fun _ _ => CTxIn.Spelled.valid
    obtain ⟨hvoutSize, houts⟩ := hvout.valid fun _ _ => CTxOut.Spelled.valid
    exact ⟨hversion, hins, hvinSize, houts, hvoutSize, by simp, by simp, hlock⟩

theorem Spelled.valid {b : Bytes} {t : CTransaction} (h : Spelled b t) : t.Valid := by
  cases h with
  | plain h => exact h.valid
  | noFlags hversion _ hlock =>
    exact ⟨hversion, by simp, by simp, by simp, by simp, by simp, by simp, hlock⟩
  | witness hversion _ _ hvin hvout hwits hlength hlock =>
    obtain ⟨hvinSize, hins⟩ := hvin.valid fun _ _ => CTxIn.Spelled.valid
    obtain ⟨hvoutSize, houts⟩ := hvout.valid fun _ _ => CTxOut.Spelled.valid
    refine ⟨hversion, hins, hvinSize, houts, hvoutSize, fun w hw => ?_, hlength.le, hlock⟩
    obtain ⟨b, -, hb⟩ := exists_of_forall₂_right hwits hw
    exact hb.valid

end CTransaction

end Hwi
