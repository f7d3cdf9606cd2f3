import Hwi.Proofs.Output
import Hwi.Proofs.Rules

/-! The read loop of an output map follows the rules of output maps. -/

namespace Hwi

namespace PartiallySignedOutput

/-- A key is new to the object and the keys read. -/
def New (o : PartiallySignedOutput) (seen : List Bytes) (key : Bytes) : OutputField → Prop
  | .hdKeypath => o.hdKeypaths.contains (key.drop 1) = false
  | .unknown => o.unknown.contains key = false
  | _ => key ∉ seen

theorem branch_check_iff (key : Bytes) (seen : List Bytes) (o : PartiallySignedOutput) (t : ℕ) :
    ¬Escapes (branch key seen o t).check ∧ ((branch key seen o t).check = .ok () ↔
      (OutputField.ofType t).KeyShape o.version key ∧ o.New seen key (OutputField.ofType t)) := by
  unfold branch
  split
  case h_10 =>
    have hf : OutputField.ofType t = .unknown := by
      unfold OutputField.ofType
      split <;> first | rfl | contradiction
    rw [hf]
    exact ⟨not_escapes_unknown, unknownCheck_eq_ok.trans (by simp [OutputField.KeyShape, New])⟩
  case h_3 =>
    refine ⟨not_escapes_hdKeypathCheck, hdKeypathCheck_eq_ok.trans ?_⟩
    simp [OutputField.ofType, OutputField.KeyShape, New]
  case h_4 | h_5 =>
    refine ⟨not_escapes_v2Key, v2Key_eq_ok.trans ?_⟩
    simp [OutputField.ofType, OutputField.KeyShape, New]
    tauto
  all_goals
    refine ⟨not_escapes_checkKey, checkKey_eq_ok.trans ?_⟩
    simp [OutputField.ofType, OutputField.KeyShape, New, and_comm]

theorem branch_store_iff (key : Bytes) (seen : List Bytes) (o : PartiallySignedOutput) (t : ℕ)
    {check : Except Exc Unit} {store : Bytes → Except Exc PartiallySignedOutput}
    (h : branch key seen o t = .value check store) (v : Bytes) :
    Escapes (store v) ↔ (OutputField.ofType t).Breaks v := by
  unfold branch at h
  split at h
  all_goals cases h
  case h_10 =>
    have hf : OutputField.ofType t = .unknown := by
      unfold OutputField.ofType
      split <;> first | rfl | contradiction
    rw [hf]
    exact iff_of_false not_escapes_ok id
  case h_1 | h_2 | h_5 | h_7 => exact iff_of_false not_escapes_ok id
  case h_3 => exact escapes_bind_pure.trans escapes_hdKeypathStore
  case h_4 =>
    refine iff_of_false ?_ id
    rw [escapes_ite]
    rintro ⟨hlen, h⟩
    rw [unpackSigned, if_pos (not_not.1 hlen)] at h
    exact not_escapes_ok h
  case h_6 => exact iff_of_false (by simp) id
  case h_8 => exact escapes_bind_pure.trans escapes_tapBip32Value
  case h_9 => exact iff_of_false (not_escapes_bind_pure not_escapes_musig2Pubkeys) id

/-- A value is read as an entry exactly when it passes. -/
theorem isSome_ofRecord (key v : Bytes) (f : OutputField) :
    (OutputEntry.ofRecord key v f).isSome = true ↔ f.Passes v ∧ ¬f.Breaks v := by
  cases f
  all_goals simp only [OutputEntry.ofRecord, OutputField.Passes, OutputField.Breaks, Option.isSome_map,
    Option.isSome_some, true_and, not_false_eq_true, and_true, onlyEscapes_keyOrigin.isSome_iff,
    onlyEscapes_tapBip32Value.isSome_iff, escapes_keyOrigin, escapes_tapBip32Value]
  case amount =>
    unfold unpackSigned
    split_ifs with h <;> simp [h]
  case musig2ParticipantPubkeys =>
    unfold musig2Pubkeys
    split_ifs <;> simp_all
  all_goals simp

/-! ### The object -/

/-- The object stands for the records read so far. -/
structure StandsFor (n : ℕ) (rs : List MapRecord) (o : PartiallySignedOutput) : Prop where
  version : o.version = n
  hdKeypaths : Tracks (OutputField.rules n) .hdKeypath (List.drop 1) rs o.hdKeypaths
  unknown : Tracks (OutputField.rules n) .unknown id rs o.unknown
  amount : FieldRead 0x03 (fun v amount => ofSignedLE v = amount) rs o.amount
  script : (rs.lookup [0x04]).getD [] = o.script

variable {n : ℕ} {rs : List MapRecord} {key v : Bytes} {f : OutputField} {e : OutputEntry}
  {o : PartiallySignedOutput}

theorem standsFor_new : StandsFor n [] { version := n } where
  version := rfl
  hdKeypaths := tracks_nil
  unknown := tracks_nil
  amount := fieldRead_nil
  script := rfl

theorem add_frame (o : PartiallySignedOutput) (e : OutputEntry) :
    (o.add e).version = o.version ∧
    (e.field ≠ .hdKeypath → (o.add e).hdKeypaths = o.hdKeypaths) ∧
    (e.field ≠ .unknown → (o.add e).unknown = o.unknown) ∧
    (e.field ≠ .amount → (o.add e).amount = o.amount) ∧
    (e.field ≠ .script → (o.add e).script = o.script) := by
  cases e <;> refine ⟨rfl, ?_, ?_, ?_, ?_⟩ <;> first | exact fun _ => rfl | exact fun h => absurd rfl h

theorem ofType_amount {m : ℕ} (h : OutputField.ofType m = .amount) : m = 3 := by
  unfold OutputField.ofType at h
  split at h <;> first | rfl | cases h

theorem ofType_script {m : ℕ} (h : OutputField.ofType m = .script) : m = 4 := by
  unfold OutputField.ofType at h
  split at h <;> first | rfl | cases h

theorem StandsFor.add (h : StandsFor n rs o) (hkey : (OutputField.rules n).HasField f key)
    (hshape : f.KeyShape n key) (he : OutputEntry.ofRecord key v f = some e) :
    StandsFor n ((key, v) :: rs) (o.add e) := by
  obtain ⟨hversion, hpaths, hunknown, hamount, hscript⟩ := add_frame o e
  rw [OutputEntry.field_of_ofRecord he] at hpaths hunknown hamount hscript
  refine ⟨hversion.trans h.version, ?_, ?_, ?_, ?_⟩
  · by_cases hf : f = .hdKeypath
    · subst hf
      obtain ⟨origin, -, rfl⟩ := Option.map_eq_some_iff.1 he
      exact h.hdKeypaths.set hkey origin
    · rw [hpaths hf]
      exact h.hdKeypaths.skip hkey hf
  · by_cases hf : f = .unknown
    · subst hf
      cases he
      exact h.unknown.set hkey v
    · rw [hunknown hf]
      exact h.unknown.skip hkey hf
  · by_cases hf : f = .amount
    · subst hf
      obtain rfl := hkey.eq_single 0x03 hshape.2 fun m => ofType_amount
      obtain ⟨amount, hv, rfl⟩ := Option.map_eq_some_iff.1 he
      refine fieldRead_set ?_
      rw [toOption_eq_some, unpackSigned] at hv
      split_ifs at hv
      cases hv
      rfl
    · rw [hamount hf]
      exact h.amount.skip (ne_single (by decide) hkey (Ne.symm hf))
  · by_cases hf : f = .script
    · subst hf
      obtain rfl := hkey.eq_single 0x04 hshape.2 fun m => ofType_script
      cases he
      rw [List.lookup_cons_self]
      rfl
    · have hne : key ≠ [0x04] := ne_single (by decide) hkey (Ne.symm hf)
      rw [hscript hf, List.lookup_cons, show ([0x04] == key) = false by simpa using Ne.symm hne]
      exact h.script

/-- A key is new to the object exactly when it is new after the records. -/
theorem StandsFor.new_iff (h : StandsFor n rs o) (hkey : (OutputField.rules n).HasField f key) :
    o.New (rs.map Prod.fst) key f ↔ (OutputField.rules n).Fresh rs key f := by
  cases f
  case hdKeypath => exact h.hdKeypaths.fresh_iff rfl
  case unknown => exact h.unknown.fresh_id_iff rfl hkey
  all_goals exact Iff.rfl

/-- The read loop of an output map follows the rules. -/
theorem follows (n : ℕ) : Follows (OutputField.rules n) branch (StandsFor n) := by
  intro rs o key t h ht
  have hkey : (OutputField.rules n).HasField (OutputField.ofType t) key := ⟨t, ht, rfl⟩
  obtain ⟨hescapes, hcheck⟩ := branch_check_iff key (rs.map Prod.fst) o t
  obtain ⟨check, put, hbranch, hput⟩ := branch_store key (rs.map Prod.fst) o t
  have hbreaks := branch_store_iff key (rs.map Prod.fst) o t hbranch
  rw [hbranch] at hescapes hcheck ⊢
  rw [h.version, h.new_iff hkey] at hcheck
  refine ⟨rfl, hescapes, hcheck, fun v => ⟨hbreaks v, ?_, ?_⟩⟩
  · simp only [← toOption_eq_some, hput v, ← Option.isSome_iff_exists, Option.isSome_map]
    exact isSome_ofRecord key v _
  · intro st hc hst
    rw [← toOption_eq_some, hput v] at hst
    obtain ⟨e, he, rfl⟩ := Option.map_eq_some_iff.1 hst
    exact h.add hkey (hcheck.1 hc).1 he

end PartiallySignedOutput

end Hwi
