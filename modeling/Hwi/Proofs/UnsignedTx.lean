import Hwi.Proofs.LockTime
import Hwi.Proofs.Tx

/-! When `get_unsigned_tx` returns, what it raises that is no `HWWError`, and when a
transaction can be written: field by field of the PSBT and of the transaction. -/

namespace Hwi

/-- An exception that is no `HWWError`. -/
def Unreported (e : Exc) : Prop := e.isHWWError = false

/-- The numbers of a transaction fit where they are written. -/
structure CTransaction.NumbersFit (tx : CTransaction) : Prop where
  nVersion : SignedFits 4 tx.nVersion
  vin : ∀ txin ∈ tx.vin, txin.prevout.n < 2 ^ 32 ∧ txin.nSequence < 2 ^ 32
  vout : ∀ txout ∈ tx.vout, SignedFits 8 txout.nValue
  nLockTime : tx.nLockTime < 2 ^ 32

theorem exists_pack_eq_ok {k n : ℕ} : (∃ b, pack k n = .ok b) ↔ n < 256 ^ k := by
  constructor
  · rintro ⟨b, h⟩
    unfold pack at h
    split_ifs at h with hfits
    exact_mod_cast hfits.2
  · intro h
    exact ⟨_, pack_natCast h⟩

theorem exists_packSigned_eq_ok {k : ℕ} {n : ℤ} : (∃ b, packSigned k n = .ok b) ↔ SignedFits k n := by
  unfold packSigned
  split_ifs with h
  · exact iff_of_true ⟨_, rfl⟩ h
  · refine iff_of_false ?_ h
    rintro ⟨b, hb⟩
    cases hb

/-- A computation returns if two parts of it do. -/
theorem exists_bind_bind {α β γ : Type} {x : Except Exc α} {y : Except Exc β} {f : α → β → γ} :
    (∃ c, (x >>= fun a => y >>= fun b => pure (f a b)) = .ok c) ↔ (∃ a, x = .ok a) ∧ ∃ b, y = .ok b := by
  simp only [exists_bind_eq_ok, pure_eq_ok, Except.ok.injEq, exists_eq', and_true, exists_and_right]

theorem COutPoint.exists_serialize_eq_ok {p : COutPoint} : (∃ b, p.serialize = .ok b) ↔ p.n < 2 ^ 32 := by
  unfold serialize
  simp only [exists_bind_eq_ok, pure_eq_ok, Except.ok.injEq, exists_eq', and_true, exists_pack_eq_ok]
  norm_num

theorem CTxIn.exists_serialize_eq_ok {txin : CTxIn} :
    (∃ b, txin.serialize = .ok b) ↔ txin.prevout.n < 2 ^ 32 ∧ txin.nSequence < 2 ^ 32 := by
  unfold serialize
  rw [exists_bind_bind, COutPoint.exists_serialize_eq_ok, exists_pack_eq_ok]
  norm_num

theorem CTxOut.exists_serialize_eq_ok {o : CTxOut} : (∃ b, o.serialize = .ok b) ↔ SignedFits 8 o.nValue := by
  unfold serialize
  simp only [exists_bind_eq_ok, pure_eq_ok, Except.ok.injEq, exists_eq', and_true,
    exists_packSigned_eq_ok]

theorem exists_serVector_eq_ok {α : Type} {serialize : α → Except Exc Bytes} {v : List α} :
    (∃ b, serVector serialize v = .ok b) ↔ ∀ a ∈ v, ∃ b, serialize a = .ok b := by
  unfold serVector
  simp only [exists_bind_eq_ok, pure_eq_ok, Except.ok.injEq, exists_eq', and_true]
  exact exists_mapM_eq_ok

/-- A transaction is written without its witness just when its numbers fit. -/
theorem CTransaction.exists_serializeWithoutWitness_eq_ok {tx : CTransaction} :
    (∃ b, tx.serializeWithoutWitness = .ok b) ↔ tx.NumbersFit := by
  have hlock : (2 : ℕ) ^ 32 = 256 ^ 4 := by norm_num
  have hparts : (∃ b, tx.serializeWithoutWitness = .ok b) ↔ (∃ b, packSigned 4 tx.nVersion = .ok b) ∧
      (∃ b, serVector CTxIn.serialize tx.vin = .ok b) ∧
      (∃ b, serVector CTxOut.serialize tx.vout = .ok b) ∧ ∃ b, pack 4 tx.nLockTime = .ok b := by
    unfold serializeWithoutWitness
    simp only [exists_bind_eq_ok, pure_eq_ok, Except.ok.injEq, exists_eq', and_true, exists_and_right]
  rw [hparts, exists_packSigned_eq_ok, exists_serVector_eq_ok, exists_serVector_eq_ok, exists_pack_eq_ok]
  simp only [CTxIn.exists_serialize_eq_ok, CTxOut.exists_serialize_eq_ok]
  constructor
  · rintro ⟨hversion, hvin, hvout, hlocktime⟩
    exact ⟨hversion, hvin, hvout, hlock ▸ hlocktime⟩
  · rintro ⟨hversion, hvin, hvout, hlocktime⟩
    exact ⟨hversion, hvin, hvout, hlock ▸ hlocktime⟩

/-! ### Nothing is reported where a transaction is written -/

theorem pack_unreported (k n : ℕ) : ¬Raising (fun e => ¬Unreported e) (pack k n) := by
  unfold pack
  split_ifs
  · exact not_raising_ok
  · exact fun h => raising_error.1 h rfl

theorem packSigned_unreported (k : ℕ) (n : ℤ) : ¬Raising (fun e => ¬Unreported e) (packSigned k n) := by
  unfold packSigned
  split_ifs
  · exact not_raising_ok
  · exact fun h => raising_error.1 h rfl

theorem unpack_unreported (k : ℕ) (b : Bytes) : ¬Raising (fun e => ¬Unreported e) (unpack k b) := by
  unfold unpack
  split_ifs
  · exact not_raising_ok
  · exact fun h => raising_error.1 h rfl

theorem outPoint_unreported (o : COutPoint) : ¬Raising (fun e => ¬Unreported e) o.serialize :=
  not_raising_bind (pack_unreported _ _) fun _ _ => not_raising_ok

theorem txOut_unreported (o : CTxOut) : ¬Raising (fun e => ¬Unreported e) o.serialize :=
  not_raising_bind (packSigned_unreported _ _) fun _ _ => not_raising_ok

theorem serVector_unreported {α : Type} {serialize : α → Except Exc Bytes}
    (h : ∀ a, ¬Raising (fun e => ¬Unreported e) (serialize a)) (v : List α) :
    ¬Raising (fun e => ¬Unreported e) (serVector serialize v) :=
  not_raising_bind (not_raising_mapM fun a _ => h a) fun _ _ => not_raising_ok

theorem txIn_unreported (txin : CTxIn) : ¬Raising (fun e => ¬Unreported e) txin.serialize :=
  not_raising_bind (outPoint_unreported _) fun _ _ =>
    not_raising_bind (pack_unreported _ _) fun _ _ => not_raising_ok

theorem serializeWithoutWitness_unreported (tx : CTransaction) :
    ¬Raising (fun e => ¬Unreported e) tx.serializeWithoutWitness := by
  refine not_raising_bind (packSigned_unreported _ _) fun _ _ => ?_
  refine not_raising_bind (serVector_unreported txIn_unreported _) fun _ _ => ?_
  refine not_raising_bind (serVector_unreported txOut_unreported _) fun _ _ => ?_
  exact not_raising_bind (pack_unreported _ _) fun _ _ => not_raising_ok

theorem rehash_unreported (R : Runtime) (tx : CTransaction) : ¬Raising (fun e => ¬Unreported e) (tx.rehash R) :=
  not_raising_bind (serializeWithoutWitness_unreported tx) fun _ _ =>
    not_raising_bind (unpack_unreported _ _) fun _ _ => not_raising_ok

namespace PSBT

/-- One input needs a time as the lock time, another one a height. -/
def LocksClash (p : PSBT) : Prop :=
  (∃ i ∈ p.inputs, i.timeOnly = true) ∧ ∃ i ∈ p.inputs, i.heightOnly = true

/-- The largest height unless an input has only a time, else the largest time unless an
input has only a height, else the fallback. -/
def lockTime (p : PSBT) : ℕ :=
  if p.inputs.any PartiallySignedInput.timeOnly = false ∧
      0 < latest PartiallySignedInput.heightLocktime p.inputs 0 then
    latest PartiallySignedInput.heightLocktime p.inputs 0
  else if p.inputs.any PartiallySignedInput.heightOnly = false ∧
      0 < latest PartiallySignedInput.timeLocktime p.inputs 0 then
    latest PartiallySignedInput.timeLocktime p.inputs 0
  else p.fallbackLocktime.getD 0

theorem carried_getD (lock : PartiallySignedInput → Option ℕ) (ruledOut : PartiallySignedInput → Bool)
    (inputs : List PartiallySignedInput) : (carried lock ruledOut inputs (some 0)).getD 0 =
      if inputs.any ruledOut = false then latest lock inputs 0 else 0 := by
  unfold carried
  cases inputs.any ruledOut with
  | true => rfl
  | false => rfl

/-- What `compute_lock_time` does. -/
theorem computeLockTime_cases (p : PSBT) :
    (p.LocksClash ∧ p.computeLockTime =
      .error (.psbtSerializationError "Cannot require both time and height locktimes")) ∨
    (¬p.LocksClash ∧ p.computeLockTime = .ok p.lockTime) := by
  obtain ⟨herr, hok⟩ := computeLockTimeLoop_eq p.inputs (some 0) (some 0)
  have hclash : Clashes p.inputs (some 0) (some 0) ↔ p.LocksClash := by
    simp [Clashes, LocksClash]
  unfold computeLockTime lockTime
  by_cases h : p.LocksClash
  · rw [herr (hclash.2 h)]
    exact Or.inl ⟨h, rfl⟩
  · rw [hok fun hc => h (hclash.1 hc), ok_bind]
    refine Or.inr ⟨h, ?_⟩
    dsimp only
    rw [carried_getD, carried_getD]
    cases p.inputs.any PartiallySignedInput.timeOnly <;>
      cases p.inputs.any PartiallySignedInput.heightOnly <;>
      by_cases hheight : 0 < latest PartiallySignedInput.heightLocktime p.inputs 0 <;>
      by_cases htime : 0 < latest PartiallySignedInput.timeLocktime p.inputs 0 <;>
      simp [hheight, htime]

/-- What a version 2 PSBT must have for its transaction. -/
structure Describes (p : PSBT) : Prop where
  txVersion : ∃ v, p.txVersion = some v ∧ SignedFits 4 v
  locks : ¬p.LocksClash
  lockTime : p.lockTime < 2 ^ 32
  inputs : ∀ i ∈ p.inputs, 32 ≤ i.prevTxid.length ∧ (∃ n, i.prevOut = some n ∧ n < 2 ^ 32) ∧
    i.sequence.getD 0xffffffff < 2 ^ 32
  outputs : ∀ o ∈ p.outputs, ∃ amount, o.amount = some amount ∧ SignedFits 8 amount

/-- A PSBT of which `get_unsigned_tx` returns the transaction, or raises only for lock
times that exclude each other. -/
def GivesTx (p : PSBT) : Prop :=
  p.version = 0 ∨ p.Describes ∨ p.txVersion ≠ none ∧ p.LocksClash

variable {R : Runtime} {p : PSBT}

theorem exists_unsignedTxIn_eq_ok {i : PartiallySignedInput} :
    (∃ txin, unsignedTxIn i = .ok txin) ↔ 32 ≤ i.prevTxid.length ∧ ∃ n, i.prevOut = some n := by
  unfold unsignedTxIn uint256FromStr unpack
  cases i.prevOut with
  | none => simp
  | some n =>
    rw [List.length_take]
    by_cases h : 32 ≤ i.prevTxid.length
    · simp [h]
    · have hne : min 32 i.prevTxid.length ≠ 32 := by omega
      simp [h, hne]

theorem unsignedTxIn_fields {i : PartiallySignedInput} {txin : CTxIn} (h : unsignedTxIn i = .ok txin) :
    i.prevOut = some txin.prevout.n ∧ txin.nSequence = i.sequence.getD 0xffffffff ∧ txin.scriptSig = [] := by
  unfold unsignedTxIn at h
  cases hn : i.prevOut with
  | none =>
    rw [hn] at h
    cases h
  | some n =>
    rw [hn] at h
    obtain ⟨hash, -, h⟩ := bind_eq_ok.1 h
    cases h
    exact ⟨rfl, rfl, rfl⟩

theorem unsignedTxOut_eq_ok_iff {o : PartiallySignedOutput} {txout : CTxOut} :
    unsignedTxOut o = .ok txout ↔ o.amount = some txout.nValue ∧ txout.scriptPubKey = o.script := by
  unfold unsignedTxOut
  obtain ⟨nValue, scriptPubKey⟩ := txout
  cases o.amount with
  | none => simp
  | some amount => simp [eq_comm]

theorem exists_rehash_eq_ok {tx : CTransaction} : (∃ tx', tx.rehash R = .ok tx') ↔ tx.NumbersFit := by
  rw [← CTransaction.exists_serializeWithoutWitness_eq_ok]
  unfold CTransaction.rehash
  simp only [exists_bind_eq_ok, pure_eq_ok, Except.ok.injEq, exists_eq', and_true]
  refine exists_congr fun r => and_iff_left ?_
  rw [uint256FromStr, List.take_of_length_le (R.hash256_length r).le, unpack, if_pos (R.hash256_length r)]
  exact ⟨_, rfl⟩

/-- A version 2 PSBT gives a transaction just when it describes one. -/
theorem exists_getUnsignedTx_eq_ok (hv : p.version ≠ 0) :
    (∃ tx, p.getUnsignedTx R = .ok tx) ↔ p.Describes := by
  have hlock : (2 : ℕ) ^ 32 = 256 ^ 4 := by norm_num
  rw [getUnsignedTx, if_neg hv]
  constructor
  · intro h
    cases hversion : p.txVersion with
    | none =>
      rw [hversion] at h
      obtain ⟨tx, htx⟩ := h
      cases htx
    | some v =>
      rw [hversion] at h
      obtain ⟨nLockTime, hlocks, h⟩ := exists_bind_eq_ok.1 h
      obtain ⟨vin, hvin, h⟩ := exists_bind_eq_ok.1 h
      obtain ⟨vout, hvout, h⟩ := exists_bind_eq_ok.1 h
      have hfit := exists_rehash_eq_ok.1 h
      obtain ⟨-, hclash⟩ | ⟨hclash, hlocks'⟩ := p.computeLockTime_cases
      · rw [hclash] at hlocks
        cases hlocks
      · rw [hlocks'] at hlocks
        cases hlocks
        refine ⟨⟨v, hversion, hfit.nVersion⟩, hclash, hfit.nLockTime, fun i hi => ?_, fun o ho => ?_⟩
        · obtain ⟨txin, htxin, hmem⟩ := exists_of_forall₂_right (mapM_eq_ok.1 hvin).flip hi
          obtain ⟨htxid, -⟩ := exists_unsignedTxIn_eq_ok.1 ⟨txin, hmem⟩
          obtain ⟨hn, hsequence, -⟩ := unsignedTxIn_fields hmem
          obtain ⟨hfits, hsequence'⟩ := hfit.vin txin htxin
          exact ⟨htxid, ⟨_, hn, hfits⟩, hsequence ▸ hsequence'⟩
        · obtain ⟨txout, htxout, hmem⟩ := exists_of_forall₂_right (mapM_eq_ok.1 hvout).flip ho
          exact ⟨_, (unsignedTxOut_eq_ok_iff.1 hmem).1, hfit.vout txout htxout⟩
  · rintro ⟨⟨v, hversion, hfits⟩, hclash, hlt, hinputs, houtputs⟩
    rw [hversion]
    dsimp only
    obtain ⟨hclash', -⟩ | ⟨-, hlocks⟩ := p.computeLockTime_cases
    · exact absurd hclash' hclash
    · obtain ⟨vin, hvin⟩ : ∃ vin, p.inputs.mapM unsignedTxIn = .ok vin := by
        refine exists_mapM_eq_ok.2 fun i hi => exists_unsignedTxIn_eq_ok.2 ?_
        obtain ⟨htxid, ⟨n, hn, -⟩, -⟩ := hinputs i hi
        exact ⟨htxid, n, hn⟩
      obtain ⟨vout, hvout⟩ : ∃ vout, p.outputs.mapM unsignedTxOut = .ok vout := by
        refine exists_mapM_eq_ok.2 fun o ho => ?_
        obtain ⟨amount, hamount, -⟩ := houtputs o ho
        exact ⟨⟨amount, o.script⟩, unsignedTxOut_eq_ok_iff.2 ⟨hamount, rfl⟩⟩
      rw [hlocks, ok_bind, hvin, ok_bind, hvout, ok_bind, exists_rehash_eq_ok]
      refine ⟨hfits, fun txin htxin => ?_, fun txout htxout => ?_, hlt⟩
      · obtain ⟨i, hi, hmem⟩ := exists_of_forall₂_right (mapM_eq_ok.1 hvin) htxin
        obtain ⟨hn, hsequence, -⟩ := unsignedTxIn_fields hmem
        obtain ⟨-, ⟨n, hn', hlt⟩, hlt'⟩ := hinputs i hi
        rw [hn] at hn'
        cases hn'
        exact ⟨hlt, hsequence ▸ hlt'⟩
      · obtain ⟨o, ho, hmem⟩ := exists_of_forall₂_right (mapM_eq_ok.1 hvout) htxout
        obtain ⟨amount, hamount, hfits⟩ := houtputs o ho
        rw [(unsignedTxOut_eq_ok_iff.1 hmem).1] at hamount
        cases hamount
        exact hfits

theorem unsignedTxIn_unreported (i : PartiallySignedInput) :
    ¬Raising (fun e => ¬Unreported e) (unsignedTxIn i) := by
  unfold unsignedTxIn
  cases i.prevOut with
  | none => exact fun h => raising_error.1 h rfl
  | some n => exact not_raising_bind (unpack_unreported _ _) fun _ _ => not_raising_ok

theorem unsignedTxOut_unreported (o : PartiallySignedOutput) :
    ¬Raising (fun e => ¬Unreported e) (unsignedTxOut o) := by
  unfold unsignedTxOut
  cases o.amount with
  | none => exact fun h => raising_error.1 h rfl
  | some amount => exact not_raising_ok

/-- Only lock times that exclude each other are reported, and only behind a version. -/
theorem raising_getUnsignedTx : Raising Unreported (p.getUnsignedTx R) ↔ ¬p.GivesTx := by
  unfold GivesTx
  by_cases hv : p.version = 0
  · rw [getUnsignedTx, if_pos hv]
    exact iff_of_false not_raising_ok fun h => h (Or.inl hv)
  have hgives := exists_getUnsignedTx_eq_ok (R := R) hv
  rw [or_iff_right hv, ← hgives, not_or]
  rw [getUnsignedTx, if_neg hv]
  cases hversion : p.txVersion with
  | none =>
    refine iff_of_true (raising_error.2 rfl) ⟨?_, fun h => h.1 rfl⟩
    rintro ⟨tx, htx⟩
    cases htx
  | some v =>
    dsimp only
    obtain ⟨hclash, hlocks⟩ | ⟨hclash, hlocks⟩ := p.computeLockTime_cases
    · rw [hlocks, error_bind, raising_error]
      exact iff_of_false Bool.noConfusion fun h => h.2 ⟨Option.some_ne_none v, hclash⟩
    · rw [hlocks, ok_bind, and_iff_left fun h => hclash h.2]
      apply raising_iff_not_ok
      refine not_raising_bind (not_raising_mapM fun i _ => unsignedTxIn_unreported i) fun _ _ => ?_
      refine not_raising_bind (not_raising_mapM fun o _ => unsignedTxOut_unreported o) fun _ _ => ?_
      exact rehash_unreported R _

end PSBT

end Hwi
