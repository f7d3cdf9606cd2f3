import Hwi.Proofs.Input
import Hwi.Proofs.Rules

/-! The read loop of an input map follows the rules of input maps. -/

namespace Hwi

open Reader

namespace PartiallySignedInput

variable {R : Runtime} {version : ℕ}

/-- A key is new to the object and the keys read. -/
def New (i : PartiallySignedInput) (seen : List Bytes) (key : Bytes) : InputField → Prop
  | .partialSig => i.partialSigs.contains (key.drop 1) = false
  | .hdKeypath => i.hdKeypaths.contains (key.drop 1) = false
  | .unknown => i.unknown.contains key = false
  | _ => key ∉ seen

theorem branch_check_iff (R : Runtime) (key : Bytes) (seen : List Bytes) (i : PartiallySignedInput)
    (t : ℕ) : ¬Escapes (branch R key seen i t).check ∧ ((branch R key seen i t).check = .ok () ↔
      (InputField.ofType t).KeyShape i.version key ∧ i.New seen key (InputField.ofType t)) := by
  unfold branch
  split
  case h_24 =>
    have hf : InputField.ofType t = .unknown := by
      unfold InputField.ofType
      split <;> first | rfl | contradiction
    rw [hf]
    exact ⟨not_escapes_unknown, unknownCheck_eq_ok.trans (by simp [InputField.KeyShape, New])⟩
  case h_3 =>
    simp only [Branch.check, InputField.ofType, InputField.KeyShape, New]
    split_ifs with hlen hdup
    · simp
      omega
    · simp only [not_escapes_error, hdup, not_false_eq_true, true_and, Bool.true_eq_false, and_false]
    · simp only [not_escapes_ok, not_false_eq_true, true_and, true_iff]
      exact ⟨by omega, by simpa using hdup⟩
  case h_7 =>
    refine ⟨not_escapes_hdKeypathCheck, hdKeypathCheck_eq_ok.trans ?_⟩
    simp [InputField.ofType, InputField.KeyShape, New]
  case h_10 | h_11 | h_12 | h_13 | h_14 =>
    refine ⟨not_escapes_v2Key, v2Key_eq_ok.trans ?_⟩
    simp [InputField.ofType, InputField.KeyShape, New]
    tauto
  case h_17 =>
    simp only [Branch.check, InputField.ofType, InputField.KeyShape, New]
    split_ifs with hseen hlen hmod
    · simp [hseen]
    · simp
      omega
    · simp [hmod]
    · simp only [not_escapes_ok, not_false_eq_true, true_and, true_iff]
      exact ⟨⟨by omega, by omega⟩, hseen⟩
  all_goals refine ⟨not_escapes_checkKey, checkKey_eq_ok.trans ?_⟩
  case h_22 | h_23 =>
    simp only [InputField.ofType, InputField.KeyShape, New, List.mem_cons, List.not_mem_nil, or_false,
      decide_not, Bool.not_eq_false', decide_eq_true_eq]
    exact and_comm
  all_goals simp [InputField.ofType, InputField.KeyShape, New, and_comm]

theorem branch_store_iff (R : Runtime) (key : Bytes) (seen : List Bytes) (i : PartiallySignedInput)
    (t : ℕ) {check : Except Exc Unit} {store : Bytes → Except Exc PartiallySignedInput}
    (h : branch R key seen i t = .value check store) (v : Bytes) :
    Escapes (store v) ↔ (InputField.ofType t).Breaks R v := by
  unfold branch at h
  split at h
  all_goals cases h
  case h_24 =>
    have hf : InputField.ofType t = .unknown := by
      unfold InputField.ofType
      split <;> first | rfl | contradiction
    rw [hf]
    exact iff_of_false not_escapes_ok id
  case h_1 =>
    rw [escapes_bind, escapes_transaction]
    refine or_iff_left ?_
    rintro ⟨tx, htx, h⟩
    rw [(runOn_transaction.1 htx).rehash_ok] at h
    exact not_escapes_ok h
  case h_2 => exact escapes_bind_pure.trans escapes_txOut
  case h_4 => exact escapes_bind_pure.trans escapes_unpack
  case h_7 => exact escapes_bind_pure.trans escapes_hdKeypathStore
  case h_9 => exact escapes_bind_pure.trans escapes_witness
  case h_18 => exact escapes_bind_pure.trans escapes_tapBip32Value
  case h_3 | h_5 | h_6 | h_8 => exact iff_of_false not_escapes_ok id
  case h_10 => exact iff_of_false (by simp) id
  case h_11 | h_12 => exact iff_of_false (not_escapes_bind_pure not_escapes_fixedInt) id
  case h_13 | h_14 =>
    refine iff_of_false ?_ id
    rw [escapes_bind, or_iff_right not_escapes_fixedInt]
    rintro ⟨n, -, h⟩
    split_ifs at h <;> simp at h
  case h_15 | h_16 | h_19 | h_20 | h_22 | h_23 => exact iff_of_false (by simp) id
  case h_17 =>
    refine iff_of_false ?_ id
    dsimp only
    split <;> simp
  case h_21 => exact iff_of_false (not_escapes_bind_pure not_escapes_musig2Pubkeys) id

/-! ### Values -/

/-- A value is read as an entry exactly when it passes. -/
theorem isSome_ofRecord (R : Runtime) (key v : Bytes) (f : InputField) :
    (InputEntry.ofRecord R key v f).isSome = true ↔ f.Passes v ∧ ¬f.Breaks R v := by
  cases f
  all_goals simp only [InputEntry.ofRecord, InputField.Passes, InputField.Breaks, Option.isSome_map,
    Option.isSome_some, true_and, not_false_eq_true, and_true, onlyEscapes_unpack.isSome_iff,
    onlyEscapes_keyOrigin.isSome_iff, onlyEscapes_tapBip32Value.isSome_iff,
    (onlyEscapes_runOn onlyRaises_txOut).isSome_iff, (onlyEscapes_runOn onlyRaises_witness).isSome_iff,
    escapes_unpack, escapes_keyOrigin, escapes_tapBip32Value, escapes_txOut, escapes_witness, not_not]
  case nonWitnessUtxo =>
    simp only [← runOn_transaction (R := R)]
    cases htx : runOn (CTransaction.deserialize R {}) v with
    | error e => simp
    | ok tx => simp [(runOn_transaction.1 htx).rehash_ok]
  case timeLocktime =>
    unfold unpack
    split_ifs with h <;> simp [h]
  case heightLocktime =>
    unfold unpack
    split_ifs with h <;> simp [h]
  case tapScript => cases v <;> simp
  case musig2ParticipantPubkeys =>
    unfold musig2Pubkeys
    split_ifs <;> simp_all
  all_goals simp

/-! ### The object -/

/-- The object stands for the records read so far. -/
structure StandsFor (R : Runtime) (n : ℕ) (rs : List MapRecord) (i : PartiallySignedInput) : Prop where
  version : i.version = n
  partialSigs : Tracks (InputField.rules R n) .partialSig (List.drop 1) rs i.partialSigs
  hdKeypaths : Tracks (InputField.rules R n) .hdKeypath (List.drop 1) rs i.hdKeypaths
  unknown : Tracks (InputField.rules R n) .unknown id rs i.unknown
  utxo : FieldRead 0x00 (fun v tx => ∃ t, BeginsWith v t ∧ tx = t.hashed R) rs i.nonWitnessUtxo
  prevTxid : FieldRead 0x0e (fun v txid => v = txid) rs (present i.prevTxid)
  prevOut : FieldRead 0x0f (fun v n => ofLE v = n) rs i.prevOut

variable {n : ℕ} {rs : List MapRecord} {key v : Bytes} {f : InputField} {e : InputEntry}
  {i : PartiallySignedInput}

theorem standsFor_new : StandsFor R n [] { version := n } where
  version := rfl
  partialSigs := tracks_nil
  hdKeypaths := tracks_nil
  unknown := tracks_nil
  utxo := fieldRead_nil
  prevTxid := fieldRead_nil
  prevOut := fieldRead_nil

theorem add_frame (i : PartiallySignedInput) (e : InputEntry) :
    (i.add e).version = i.version ∧
    (e.field ≠ .partialSig → (i.add e).partialSigs = i.partialSigs) ∧
    (e.field ≠ .hdKeypath → (i.add e).hdKeypaths = i.hdKeypaths) ∧
    (e.field ≠ .unknown → (i.add e).unknown = i.unknown) ∧
    (e.field ≠ .nonWitnessUtxo → (i.add e).nonWitnessUtxo = i.nonWitnessUtxo) ∧
    (e.field ≠ .prevTxid → (i.add e).prevTxid = i.prevTxid) ∧
    (e.field ≠ .prevOut → (i.add e).prevOut = i.prevOut) := by
  cases e <;> refine ⟨rfl, ?_, ?_, ?_, ?_, ?_, ?_⟩ <;> first | exact fun _ => rfl | exact fun h => absurd rfl h

theorem ofType_nonWitnessUtxo {m : ℕ} (h : InputField.ofType m = .nonWitnessUtxo) : m = 0 := by
  unfold InputField.ofType at h
  split at h <;> first | rfl | cases h

theorem ofType_prevTxid {m : ℕ} (h : InputField.ofType m = .prevTxid) : m = 14 := by
  unfold InputField.ofType at h
  split at h <;> first | rfl | cases h

theorem ofType_prevOut {m : ℕ} (h : InputField.ofType m = .prevOut) : m = 15 := by
  unfold InputField.ofType at h
  split at h <;> first | rfl | cases h

theorem StandsFor.add (h : StandsFor R n rs i) (hkey : (InputField.rules R n).HasField f key)
    (hshape : f.KeyShape n key) (he : InputEntry.ofRecord R key v f = some e) :
    StandsFor R n ((key, v) :: rs) (i.add e) := by
  obtain ⟨hversion, hsigs, hpaths, hunknown, hutxo, htxid, hout⟩ := add_frame i e
  rw [InputEntry.field_of_ofRecord he] at hsigs hpaths hunknown hutxo htxid hout
  refine ⟨hversion.trans h.version, ?_, ?_, ?_, ?_, ?_, ?_⟩
  · by_cases hf : f = .partialSig
    · subst hf
      cases he
      exact h.partialSigs.set hkey v
    · rw [hsigs hf]
      exact h.partialSigs.skip hkey hf
  · by_cases hf : f = .hdKeypath
    · subst hf
      obtain ⟨origin, -, rfl⟩ := Option.map_eq_some_iff.1 he
      exact h.hdKeypaths.set hkey origin
    · rw [hpaths hf]
      exact h.hdKeypaths.skip hkey hf
  · by_cases hf : f = .unknown
    · subst hf
      cases he
      exact h.unknown.set hkey v
    · rw [hunknown hf]
      exact h.unknown.skip hkey hf
  · by_cases hf : f = .nonWitnessUtxo
    · subst hf
      obtain rfl := hkey.eq_single 0x00 hshape fun m => ofType_nonWitnessUtxo
      obtain ⟨t, ht, he⟩ := Option.bind_eq_some_iff.1 he
      have hbegins := runOn_transaction.1 (toOption_eq_some.1 ht)
      rw [hbegins.rehash_ok] at he
      cases he
      exact fieldRead_set ⟨t, hbegins, rfl⟩
    · rw [hutxo hf]
      exact h.utxo.skip (ne_single (by decide) hkey (Ne.symm hf))
  · by_cases hf : f = .prevTxid
    · subst hf
      obtain rfl := hkey.eq_single 0x0e hshape.2 fun m => ofType_prevTxid
      simp only [InputEntry.ofRecord] at he
      split_ifs at he with hlen
      cases he
      rw [PartiallySignedInput.add, present_of_ne_nil (by rintro rfl; cases hlen)]
      exact fieldRead_set rfl
    · rw [htxid hf]
      exact h.prevTxid.skip (ne_single (by decide) hkey (Ne.symm hf))
  · by_cases hf : f = .prevOut
    · subst hf
      obtain rfl := hkey.eq_single 0x0f hshape.2 fun m => ofType_prevOut
      obtain ⟨k, hk, rfl⟩ := Option.map_eq_some_iff.1 he
      refine fieldRead_set ?_
      rw [toOption_eq_some, unpack] at hk
      split_ifs at hk
      cases hk
      rfl
    · rw [hout hf]
      exact h.prevOut.skip (ne_single (by decide) hkey (Ne.symm hf))

/-- A key is new to the object exactly when it is new after the records. -/
theorem StandsFor.new_iff (h : StandsFor R n rs i) (hkey : (InputField.rules R n).HasField f key) :
    i.New (rs.map Prod.fst) key f ↔ (InputField.rules R n).Fresh rs key f := by
  cases f
  case partialSig => exact h.partialSigs.fresh_iff rfl
  case hdKeypath => exact h.hdKeypaths.fresh_iff rfl
  case unknown => exact h.unknown.fresh_id_iff rfl hkey
  all_goals exact Iff.rfl

/-- The read loop of an input map follows the rules. -/
theorem follows (R : Runtime) (n : ℕ) :
    Follows (InputField.rules R n) (branch R) (StandsFor R n) := by
  intro rs i key t h ht
  have hkey : (InputField.rules R n).HasField (InputField.ofType t) key := ⟨t, ht, rfl⟩
  obtain ⟨hescapes, hcheck⟩ := branch_check_iff R key (rs.map Prod.fst) i t
  obtain ⟨check, put, hbranch, hput⟩ := branch_store R key (rs.map Prod.fst) i t
  have hbreaks := branch_store_iff R key (rs.map Prod.fst) i t hbranch
  rw [hbranch] at hescapes hcheck ⊢
  rw [h.version, h.new_iff hkey] at hcheck
  refine ⟨rfl, hescapes, hcheck, fun v => ⟨hbreaks v, ?_, ?_⟩⟩
  · simp only [← toOption_eq_some, hput v, ← Option.isSome_iff_exists, Option.isSome_map]
    exact isSome_ofRecord R key v _
  · intro st hc hst
    rw [← toOption_eq_some, hput v] at hst
    obtain ⟨e, he, rfl⟩ := Option.map_eq_some_iff.1 hst
    exact h.add hkey (hcheck.1 hc).1 he

end PartiallySignedInput

end Hwi
