import Hwi.Format.Output
import Hwi.Proofs.Input

/-! The output map as a store of entries. -/

namespace Hwi

namespace OutputEntry

@[simp] theorem field_slot (e : OutputEntry) : e.slot.field = e.field := by cases e <;> rfl

@[simp] theorem key_slot (e : OutputEntry) : e.slot.key = e.key := by cases e <;> rfl

theorem null_of_valid {e : OutputEntry} (h : e.Valid) : e.null = false := by
  cases e
  case redeemScript v | witnessScript v | script v | tapTree v => simpa [null, Valid] using h
  case tapInternalKey v =>
    cases v with
    | nil => simp [Valid] at h
    | cons => rfl
  all_goals rfl

/-- The record of a valid entry is read as the entry. -/
theorem ofRecord_record {e : OutputEntry} (h : e.Valid) : ofRecord e.key e.value e.field = some e := by
  cases e
  case hdKeypath pubkey origin =>
    simp [ofRecord, field, value, key, KeyOriginInfo.deserialize_bytes h.2]
  case amount n =>
    simp [ofRecord, field, value, unpackSigned, ofSignedLE_toSignedLE h]
  case tapInternalKey v => exact if_pos h
  case tapBip32Path xonly leafHashes origin =>
    simp [ofRecord, field, value, key, tapBip32Value_bytes h.2, h.1]
  case musig2ParticipantPubkeys aggregate pubkeys =>
    simp [ofRecord, field, value, key, musig2Pubkeys_flatten h.2.1 h.2.2]
  all_goals rfl

theorem field_of_ofRecord {key v : Bytes} {e : OutputEntry} {f : OutputField}
    (h : ofRecord key v f = some e) : e.field = f := by
  cases f <;> simp only [ofRecord] at h
  all_goals first
    | (cases h; rfl)
    | (split_ifs at h; cases h; rfl)
    | (obtain ⟨_, _, rfl⟩ := Option.map_eq_some_iff.1 h; rfl)

end OutputEntry

namespace PartiallySignedOutput

theorem field_of_mem_contents {self : PartiallySignedOutput} {f : OutputField} {e : OutputEntry}
    (h : e ∈ self.contents f) : e.field = f := by
  cases f <;> simp only [contents] at h
  all_goals first
    | (obtain ⟨_, _, rfl⟩ := mem_optionEntries.1 h; rfl)
    | (obtain ⟨_, rfl⟩ := mem_listEntries.1 h; rfl)
    | (obtain ⟨_, _, _, rfl⟩ := mem_dictEntries.1 h; rfl)

theorem contents_add_of_ne {self : PartiallySignedOutput} {e : OutputEntry} {f : OutputField}
    (h : f ≠ e.field) : (self.add e).contents f = self.contents f := by
  cases e <;> cases f <;> first | rfl | exact absurd rfl h

/-- What adding an entry does to its own field. -/
theorem contents_add (self : PartiallySignedOutput) (e : OutputEntry) :
    ((self.add e).contents e.field).Perm ((if e.null then [] else [e]) ++
      (self.contents e.field).filter fun a => decide (a.slot ≠ e.slot)) := by
  cases e
  case tapBip32Path xonly leafHashes origin =>
    refine dictEntries_perm (fun (k : Bytes) (v : OrderedSet Bytes × KeyOriginInfo) =>
      OutputEntry.tapBip32Path k v.1 v.2) ?_ self.tapBip32Paths xonly (leafHashes, origin)
    simp [OutputEntry.slot]
  all_goals first
    | exact optionEntries_perm (fun _ _ => rfl) _ _
    | exact listEntries_perm (fun _ _ => rfl) _ _
    | exact dictEntries_perm _ (fun _ _ _ _ => by simp [OutputEntry.slot]) _ _ _

/-- The output map as a store of entries. -/
def store : FieldStore PartiallySignedOutput OutputEntry OutputField OutputEntry where
  fields := OutputField.all
  mem_fields f := by cases f <;> decide
  nodup_fields := by decide
  contents := contents
  add := add
  field := OutputEntry.field
  slot := OutputEntry.slot
  null := OutputEntry.null
  field_of_mem := field_of_mem_contents
  field_of_slot h := by simpa using congrArg OutputEntry.field h
  contents_add_of_ne := contents_add_of_ne
  contents_add := contents_add

/-! ### The branches of the read loop -/

/-- Every branch stores the entry its record is read as. -/
theorem branch_store (key : Bytes) (seen : List Bytes) (self : PartiallySignedOutput) (t : ℕ) :
    ∃ check store, branch key seen self t = .value check store ∧ ∀ v,
      (store v).toOption = (OutputEntry.ofRecord key v (OutputField.ofType t)).map self.add := by
  unfold branch
  split
  all_goals refine ⟨_, _, rfl, fun v => ?_⟩
  case h_10 =>
    have hf : OutputField.ofType t = .unknown := by
      unfold OutputField.ofType
      split <;> first | rfl | contradiction
    rw [hf]
    rfl
  all_goals simp only [OutputField.ofType, OutputEntry.ofRecord]
  all_goals first
    | rfl
    | (cases tapBip32Value v <;> rfl)
    | (cases musig2Pubkeys v <;> rfl)
    | (split_ifs <;> first | rfl | omega)
    | skip
  case h_3 =>
    rw [hdKeypathStore]
    cases KeyOriginInfo.deserialize v <;> rfl
  case h_4 =>
    by_cases hlen : v.length = 8
    · simp only [unpackSigned, hlen, ne_eq, not_true_eq_false, if_false, if_true]
      rfl
    · simp [unpackSigned, hlen]

/-- The branch of a valid entry that is new to the map passes its checks. -/
theorem branch_check {seen : List Bytes} {self : PartiallySignedOutput} {e : OutputEntry}
    (hv : e.Valid) (hver : e.field.isV2 → self.version ≠ 0) (hseen : e.key ∉ seen)
    (hfresh : ∀ a ∈ store.held self, a.key ≠ e.key) : ∃ t,
      runOn deserCompactSize e.key = .ok t ∧ OutputField.ofType t = e.field ∧
        (branch e.key seen self t).check = .ok () := by
  have hnot (a : OutputEntry) (ha : a.key = e.key) : a ∉ self.contents a.field := fun hmem =>
    hfresh a (store.mem_held.2 hmem) ha
  cases e
  case hdKeypath pubkey origin =>
    have hlen : ¬((0x02 :: pubkey).length ∉ [34, 66]) := by
      have := hv.1
      simp only [List.length_cons, List.mem_cons, List.not_mem_nil, or_false, not_not]
      omega
    have hdup : self.hdKeypaths.contains pubkey = false := contains_eq_false fun v hmem =>
      hnot (.hdKeypath pubkey v) rfl (mem_dictEntries.2 ⟨_, _, hmem, rfl⟩)
    refine ⟨2, runOn_type (by decide) _, rfl, ?_⟩
    simp only [branch, Branch.check, OutputEntry.key, hdKeypathCheck, if_neg hlen,
      List.drop_succ_cons, List.drop_zero, hdup]
    rfl
  case unknown key value =>
    obtain ⟨t, ht, hf⟩ := hv
    have hdup : self.unknown.contains key = false := contains_eq_false fun v hmem =>
      hnot (.unknown key v) rfl (mem_dictEntries.2 ⟨_, _, hmem, rfl⟩)
    refine ⟨t, ht, hf, ?_⟩
    unfold branch
    split
    case h_10 => simp [Branch.check, OutputEntry.key, hdup]
    all_goals exact absurd hf (by decide)
  case tapBip32Path xonly leafHashes origin =>
    refine ⟨_, runOn_type (by decide) _, rfl, checkKey_ok _ _ hseen ?_⟩
    simp [OutputEntry.key, hv.1]
  case musig2ParticipantPubkeys aggregate pubkeys =>
    refine ⟨_, runOn_type (by decide) _, rfl, checkKey_ok _ _ hseen ?_⟩
    simp [OutputEntry.key, hv.1]
  case amount | script =>
    refine ⟨_, runOn_type (by decide) _, rfl, ?_⟩
    simp only [branch, Branch.check, notInV0, if_neg (hver rfl)]
    exact checkKey_ok _ _ hseen rfl
  all_goals exact ⟨_, runOn_type (by decide) _, rfl, checkKey_ok _ _ hseen rfl⟩

@[simp] theorem add_version (self : PartiallySignedOutput) (e : OutputEntry) :
    (self.add e).version = self.version := by cases e <;> rfl

/-- The format of output maps. -/
def format (R : Runtime) : MapFormat R PartiallySignedOutput OutputEntry OutputField where
  store := store
  branch := branch
  key := OutputEntry.key
  value := OutputEntry.value
  stored := id
  ofRecord t key v := OutputEntry.ofRecord key v (OutputField.ofType t)
  Valid self e := e.Valid ∧ (e.field.isV2 → self.version ≠ 0)
  valid_add {self a e} h := ⟨h.1, by
    have hadd : (store.add self a).version = self.version := add_version self a
    rw [hadd]
    exact h.2⟩
  key_of_slot {a b} h := by
    have hslot : a.slot = b.slot := h
    simpa using congrArg OutputEntry.key hslot
  key_stored _ := rfl
  null_stored h := OutputEntry.null_of_valid h.1
  takes {seen self e} h hseen hfresh := by
    obtain ⟨t, ht, hf, hcheck⟩ := branch_check h.1 h.2 hseen hfresh
    obtain ⟨check, put, hbranch, hput⟩ := branch_store e.key seen self t
    refine ⟨t, ht, ?_⟩
    rw [hbranch] at hcheck ⊢
    obtain rfl : check = .ok () := hcheck
    refine .value (toOption_eq_some.1 ?_)
    rw [hput, hf, OutputEntry.ofRecord_record h.1]
    rfl
  reads {key seen self t f n v self' f'} h := by
    obtain ⟨check, put, hbranch, hput⟩ := branch_store key seen self t
    rw [hbranch] at h
    cases h with
    | value _ _ hst =>
      rw [← toOption_eq_some, hput, Option.map_eq_some_iff] at hst
      obtain ⟨e, he, rfl⟩ := hst
      exact ⟨e, he, rfl⟩

/-! ### The records an output writes -/

/-- The section of `sections` that writes a field. -/
def sectionOf (R : Runtime) (self : PartiallySignedOutput) :
    OutputField → Except Exc (List MapRecord)
  | .redeemScript => .ok (bytesRecord PSBT_OUT_REDEEM_SCRIPT self.redeemScript)
  | .witnessScript => .ok (bytesRecord PSBT_OUT_WITNESS_SCRIPT self.witnessScript)
  | .hdKeypath => dictRecords PSBT_OUT_BIP32_DERIVATION id KeyOriginInfo.serialize
    (sortedItems self.hdKeypaths)
  | .amount => optionRecord PSBT_OUT_AMOUNT (packSigned 8) self.amount
  | .script => .ok (bytesRecord PSBT_OUT_SCRIPT self.script)
  | .tapInternalKey => .ok (bytesRecord PSBT_OUT_TAP_INTERNAL_KEY self.tapInternalKey)
  | .tapTree => .ok (bytesRecord PSBT_OUT_TAP_TREE self.tapTree)
  | .tapBip32Path => dictRecords PSBT_OUT_TAP_BIP32_DERIVATION id
    (fun v => serTapBip32Value R v.1 v.2) self.tapBip32Paths.items
  | .musig2ParticipantPubkeys => dictRecords PSBT_OUT_MUSIG2_PARTICIPANT_PUBKEYS id
    (fun pubkeys => .ok pubkeys.flatten) self.musig2ParticipantPubkeys.items
  | .unknown => .ok (sortedItems self.unknown)

/-- The fields an output writes, in order. -/
def writtenFields (self : PartiallySignedOutput) : List OutputField :=
  [.redeemScript, .witnessScript, .hdKeypath] ++
  (if self.version ≥ 2 then [.amount, .script] else []) ++
  [.tapInternalKey, .tapTree, .tapBip32Path, .musig2ParticipantPubkeys, .unknown]

theorem sections_eq (R : Runtime) (self : PartiallySignedOutput) :
    self.sections R = self.writtenFields.map (self.sectionOf R) := by
  simp only [writtenFields, List.map_append, apply_ite (List.map (self.sectionOf R))]
  rfl

/-- A field writes the records of the entries it holds. -/
theorem writes_sectionOf (R : Runtime) {self : PartiallySignedOutput} {f : OutputField}
    (h : ∀ e ∈ self.contents f, e.Valid) :
    Writes (self.sectionOf R f) ((self.contents f).map fun e => (e.written R).record) := by
  cases f <;> simp only [contents] at h ⊢ <;> simp only [sectionOf]
  case redeemScript | witnessScript | script | tapInternalKey | tapTree =>
    exact writes_bytes fun _ => rfl
  case hdKeypath =>
    refine writes_dict (sortedItems_perm _) (fun k v hkv => ?_) fun _ _ => rfl
    exact KeyOriginInfo.serialize_ok (h _ (mem_dictEntries.2 ⟨k, v, hkv, rfl⟩)).2
  case amount =>
    refine writes_option (fun n hn => ?_) fun _ => rfl
    exact packSigned_ok (h _ (mem_optionEntries.2 ⟨n, hn, rfl⟩))
  case tapBip32Path =>
    refine writes_dict (.refl _) (fun k v hkv => ?_) fun _ _ => rfl
    exact serTapBip32Value_ok (h _ (mem_dictEntries.2 ⟨k, v, hkv, rfl⟩)).2.origin
  case musig2ParticipantPubkeys => exact writes_dict (.refl _) (fun _ _ _ => rfl) fun _ _ => rfl
  case unknown => exact writes_unknown fun _ _ => rfl

theorem mem_writtenFields {self : PartiallySignedOutput} {f : OutputField} :
    f ∈ self.writtenFields ↔ (f.isV2 → self.version ≥ 2) := by
  unfold writtenFields
  by_cases hv : self.version ≥ 2 <;> simp only [hv, if_true, if_false] <;> cases f <;> decide

theorem nodup_writtenFields (self : PartiallySignedOutput) : self.writtenFields.Nodup := by
  unfold writtenFields
  split_ifs <;> decide

/-- The entries an output writes. -/
def writtenEntries (self : PartiallySignedOutput) : List OutputEntry :=
  (store.held self).filter fun e => decide (e.field ∈ self.writtenFields)

/-- An output writes the records of these entries and a separator. -/
theorem serialize_ok (R : Runtime) {self : PartiallySignedOutput}
    (h : ∀ e ∈ self.writtenEntries, e.Valid) : ∃ rs, self.serialize R = .ok (mapBytes rs) ∧
      rs.Perm (self.writtenEntries.map fun e => (e.written R).record) := by
  have hperm := store.flatMap_contents_perm self self.nodup_writtenFields
  obtain ⟨rs, hrs, hrecs⟩ := serializeMap_fields_ok (fun f hf => writes_sectionOf R fun e he =>
    h e (hperm.mem_iff.1 (List.mem_flatMap.2 ⟨f, hf, he⟩)))
  refine ⟨rs, by rw [serialize, sections_eq, hrs], hrecs.trans ?_⟩
  rw [← List.map_flatMap]
  exact hperm.map _

end PartiallySignedOutput

end Hwi
