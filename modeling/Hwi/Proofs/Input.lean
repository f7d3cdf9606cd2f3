import Hwi.Format.Input
import Hwi.Proofs.RecordMap
import Hwi.Proofs.Values

/-! The input map as a store of entries. -/

namespace Hwi

namespace InputEntry

@[simp] theorem field_slot (e : InputEntry) : e.slot.field = e.field := by cases e <;> rfl

@[simp] theorem key_slot (e : InputEntry) : e.slot.key = e.key := by cases e <;> rfl

@[simp] theorem key_stored (R : Runtime) (e : InputEntry) : (e.stored R).key = e.key := by
  cases e <;> rfl

@[simp] theorem field_stored (R : Runtime) (e : InputEntry) : (e.stored R).field = e.field := by
  cases e <;> rfl

theorem null_stored (R : Runtime) {e : InputEntry} (h : e.Valid) : (e.stored R).null = false := by
  cases e
  case redeemScript v | witnessScript v | finalScriptSig v => simpa [null, stored, Valid] using h
  case prevTxid v | tapInternalKey v | tapMerkleRoot v =>
    cases v with
    | nil => simp [Valid] at h
    | cons => rfl
  case tapKeySig v =>
    cases v with
    | nil => simp [Valid] at h
    | cons => rfl
  case finalScriptWitness wit => simpa [null, stored, CTxInWitness.isNull] using h.2
  all_goals rfl

/-- The record of a valid entry is read as the entry. -/
theorem ofRecord_record (R : Runtime) {e : InputEntry} (h : e.Valid) :
    ofRecord R e.key e.value e.field = some (e.stored R) := by
  cases e
  case nonWitnessUtxo tx =>
    simp only [ofRecord, field, value, stored, runOn_of_exactly (CTransaction.exactly_deserialize h.1.onWire h.2),
      toOption_ok, Option.bind_eq_bind, Option.bind_some,
      CTransaction.rehash_ok (CTransaction.asRead_valid h.1).onWire]
    rfl
  case witnessUtxo txout =>
    simp [ofRecord, field, value, stored, runOn_of_exactly (CTxOut.exactly_deserialize h)]
  case hdKeypath pubkey origin =>
    simp [ofRecord, field, value, stored, key, KeyOriginInfo.deserialize_bytes h.2]
  case finalScriptWitness wit =>
    simp [ofRecord, field, value, stored, runOn_of_exactly (CTxInWitness.exactly_deserialize h.1)]
  case sighash n | prevOut n | sequence n =>
    simp [ofRecord, field, value, stored, unpack_four h]
  case timeLocktime n =>
    simp [ofRecord, field, value, stored, unpack_four h.2, Nat.not_lt.2 h.1]
  case heightLocktime n =>
    have hn : n < 2 ^ 32 := h.2.trans (by decide)
    have hrange : ¬(n = 0 ∨ 500000000 ≤ n) := by
      have := h.1
      have := h.2
      omega
    simp [ofRecord, field, value, stored, unpack_four hn, hrange]
  case prevTxid v | tapInternalKey v | tapMerkleRoot v =>
    exact if_pos h
  case tapKeySig v => exact if_pos h
  case tapScriptSig xonly leafHash sig =>
    obtain ⟨hx, hl, hs⟩ := h
    have hx' : (xonly ++ leafHash).take 32 = xonly := List.take_left' hx
    have hl' : (xonly ++ leafHash).drop 32 = leafHash := List.drop_left' hx
    simp [ofRecord, field, value, stored, key, hs, hx', hl', hl]
  case tapScript controlBlock script leafVer =>
    simp [ofRecord, field, value, stored, key]
  case tapBip32Path xonly leafHashes origin =>
    simp [ofRecord, field, value, stored, key, tapBip32Value_bytes h.2, h.1]
  case musig2ParticipantPubkeys aggregate pubkeys =>
    simp [ofRecord, field, value, stored, key, musig2Pubkeys_flatten h.2.1 h.2.2]
  case musig2PubNonce k nonces =>
    simp only [ofRecord, field, value, stored, key, musig2Key_key h.1, if_pos h.2]
  case musig2PartialSig k sig =>
    simp only [ofRecord, field, value, stored, key, musig2Key_key h.1, if_pos h.2]
  all_goals rfl

theorem field_of_ofRecord {R : Runtime} {key v : Bytes} {e : InputEntry} {f : InputField}
    (h : ofRecord R key v f = some e) : e.field = f := by
  cases f <;> simp only [ofRecord] at h
  case nonWitnessUtxo =>
    obtain ⟨tx, _, h⟩ := Option.bind_eq_some_iff.1 h
    obtain ⟨tx', _, h⟩ := Option.bind_eq_some_iff.1 h
    cases h
    rfl
  case timeLocktime | heightLocktime =>
    obtain ⟨n, _, h⟩ := Option.bind_eq_some_iff.1 h
    split_ifs at h
    cases h
    rfl
  all_goals first
    | (cases h; rfl)
    | (split_ifs at h; cases h; rfl)
    | (obtain ⟨_, _, rfl⟩ := Option.map_eq_some_iff.1 h; rfl)

/-- The entry a record is read as. -/
def Parsed (R : Runtime) (e : InputEntry) : Prop := ∃ key v, ofRecord R key v e.field = some e

theorem parsed_of_ofRecord {R : Runtime} {key v : Bytes} {e : InputEntry} {f : InputField}
    (h : ofRecord R key v f = some e) : e.Parsed R := by
  obtain rfl := field_of_ofRecord h
  exact ⟨key, v, h⟩

end InputEntry

namespace PartiallySignedInput

theorem field_of_mem_contents {self : PartiallySignedInput} {f : InputField} {e : InputEntry}
    (h : e ∈ self.contents f) : e.field = f := by
  cases f <;> simp only [contents] at h
  case finalScriptWitness =>
    split_ifs at h
    · exact absurd h List.not_mem_nil
    · rw [List.mem_singleton.1 h]
      rfl
  case tapScript =>
    obtain ⟨_, _, rfl⟩ := List.mem_map.1 h
    rfl
  all_goals first
    | (obtain ⟨_, _, rfl⟩ := mem_optionEntries.1 h; rfl)
    | (obtain ⟨_, rfl⟩ := mem_listEntries.1 h; rfl)
    | (obtain ⟨_, _, _, rfl⟩ := mem_dictEntries.1 h; rfl)

theorem contents_add_of_ne {self : PartiallySignedInput} {e : InputEntry} {f : InputField}
    (h : f ≠ e.field) : (self.add e).contents f = self.contents f := by
  cases e <;> cases f <;> first | rfl | exact absurd rfl h

/-- What adding an entry does to its own field. -/
theorem contents_add (self : PartiallySignedInput) (e : InputEntry) :
    ((self.add e).contents e.field).Perm ((if e.null then [] else [e]) ++
      (self.contents e.field).filter fun a => decide (a.slot ≠ e.slot)) := by
  cases e
  case finalScriptWitness wit =>
    simp only [InputEntry.field, add, contents, InputEntry.null]
    rw [filter_slot_eq_nil, List.append_nil]
    · rfl
    · intro a ha
      split_ifs at ha
      · exact absurd ha List.not_mem_nil
      · rw [List.mem_singleton.1 ha]
        rfl
  case tapScript controlBlock script leafVer =>
    refine ((self.tapScripts.pairs_addPair_perm (script, leafVer) controlBlock).map _).trans ?_
    rw [List.map_cons, InputEntry.field, contents, List.filter_map]
    refine List.Perm.cons _ (List.Perm.of_eq (congrArg _ (List.filter_congr ?_)))
    rintro ⟨⟨s, v⟩, c⟩ _
    simp [InputEntry.slot, and_comm]
  case tapScriptSig xonly leafHash sig =>
    refine dictEntries_perm (fun (k : Bytes × Bytes) => InputEntry.tapScriptSig k.1 k.2) ?_
      self.tapScriptSigs (xonly, leafHash) sig
    simp [InputEntry.slot, Prod.ext_iff]
  case tapBip32Path xonly leafHashes origin =>
    refine dictEntries_perm (fun (k : Bytes) (v : OrderedSet Bytes × KeyOriginInfo) =>
      InputEntry.tapBip32Path k v.1 v.2) ?_ self.tapBip32Paths xonly (leafHashes, origin)
    simp [InputEntry.slot]
  all_goals first
    | exact optionEntries_perm (fun _ _ => rfl) _ _
    | exact listEntries_perm (fun _ _ => rfl) _ _
    | exact dictEntries_perm _ (fun _ _ _ _ => by simp [InputEntry.slot]) _ _ _

/-- The input map as a store of entries. -/
def store : FieldStore PartiallySignedInput InputEntry InputField InputEntry where
  fields := InputField.all
  mem_fields f := by cases f <;> decide
  nodup_fields := by decide
  contents := contents
  add := add
  field := InputEntry.field
  slot := InputEntry.slot
  null := InputEntry.null
  field_of_mem := field_of_mem_contents
  field_of_slot h := by simpa using congrArg InputEntry.field h
  contents_add_of_ne := contents_add_of_ne
  contents_add := contents_add

/-! ### The branches of the read loop -/

/-- Every branch stores the entry its record is read as. -/
theorem branch_store (R : Runtime) (key : Bytes) (seen : List Bytes) (self : PartiallySignedInput)
    (t : ℕ) : ∃ check store, branch R key seen self t = .value check store ∧ ∀ v,
      (store v).toOption = (InputEntry.ofRecord R key v (InputField.ofType t)).map self.add := by
  unfold branch
  split
  all_goals refine ⟨_, _, rfl, fun v => ?_⟩
  case h_24 =>
    have hf : InputField.ofType t = .unknown := by
      unfold InputField.ofType
      split <;> first | rfl | contradiction
    rw [hf]
    rfl
  all_goals simp only [InputField.ofType, InputEntry.ofRecord]
  all_goals first
    | rfl
    | (cases runOn (CTxOut.deserialize R) v <;> rfl)
    | (cases unpack 4 v <;> rfl)
    | (cases runOn (CTxInWitness.deserialize R) v <;> rfl)
    | (cases tapBip32Value v <;> rfl)
    | (cases musig2Pubkeys v <;> rfl)
    | (cases v.getLast? <;> rfl)
    | (split_ifs <;> first | rfl | omega)
    | (simp only [toOption_bind, fixedInt_toOption]; cases unpack 4 v <;> rfl)
    | skip
  case h_1 =>
    simp only [toOption_bind]
    cases runOn (CTransaction.deserialize R {}) v with
    | error => rfl
    | ok tx =>
      cases htx : tx.rehash R with
      | error => simp [htx]
      | ok tx' => simp [htx]; rfl
  case h_7 =>
    rw [hdKeypathStore]
    cases KeyOriginInfo.deserialize v <;> rfl
  case h_13 =>
    simp only [toOption_bind, fixedInt_toOption]
    cases unpack 4 v with
    | error => rfl
    | ok n =>
      by_cases hn : n < 500000000
      · simp [hn]
      · simp [hn]; rfl
  case h_14 =>
    simp only [toOption_bind, fixedInt_toOption]
    cases unpack 4 v with
    | error => rfl
    | ok n =>
      by_cases hn : n = 0 ∨ n ≥ 500000000
      · simp [hn]
      · simp [hn]; rfl

/-- The branch of a valid entry that is new to the map passes its checks. -/
theorem branch_check (R : Runtime) {seen : List Bytes} {self : PartiallySignedInput} {e : InputEntry}
    (hv : e.Valid) (hver : e.field.isV2 → self.version ≠ 0) (hseen : e.key ∉ seen)
    (hfresh : ∀ a ∈ store.held self, a.key ≠ e.key) : ∃ t,
      runOn deserCompactSize e.key = .ok t ∧ InputField.ofType t = e.field ∧
        (branch R e.key seen self t).check = .ok () := by
  have hnot (a : InputEntry) (ha : a.key = e.key) : a ∉ self.contents a.field := fun hmem =>
    hfresh a (store.mem_held.2 hmem) ha
  cases e
  case partialSig pubkey sig =>
    have hlen : ¬((0x02 :: pubkey).length ≠ 34 ∧ (0x02 :: pubkey).length ≠ 66) := by
      simp only [InputEntry.Valid] at hv
      simp only [List.length_cons]
      omega
    have hdup : self.partialSigs.contains pubkey = false := contains_eq_false fun v hmem =>
      hnot (.partialSig pubkey v) rfl (mem_dictEntries.2 ⟨_, _, hmem, rfl⟩)
    refine ⟨2, runOn_type (by decide) _, rfl, ?_⟩
    simp only [branch, Branch.check, InputEntry.key, if_neg hlen, List.drop_succ_cons,
      List.drop_zero, hdup]
    rfl
  case hdKeypath pubkey origin =>
    have hlen : ¬((0x06 :: pubkey).length ∉ [34, 66]) := by
      have := hv.1
      simp only [List.length_cons, List.mem_cons, List.not_mem_nil, or_false, not_not]
      omega
    have hdup : self.hdKeypaths.contains pubkey = false := contains_eq_false fun v hmem =>
      hnot (.hdKeypath pubkey v) rfl (mem_dictEntries.2 ⟨_, _, hmem, rfl⟩)
    refine ⟨6, runOn_type (by decide) _, rfl, ?_⟩
    simp only [branch, Branch.check, InputEntry.key, hdKeypathCheck, if_neg hlen,
      List.drop_succ_cons, List.drop_zero, hdup]
    rfl
  case tapScript controlBlock script leafVer =>
    obtain ⟨h33, hmod⟩ := hv
    have hlen : (InputEntry.tapScript controlBlock script leafVer).key.length =
      controlBlock.length + 1 := rfl
    refine ⟨0x15, runOn_type (by decide) _, rfl, ?_⟩
    simp only [branch, Branch.check]
    rw [if_neg hseen, if_neg (by omega), if_neg (by omega)]
  case unknown key value =>
    obtain ⟨t, ht, hf⟩ := hv
    have hdup : self.unknown.contains key = false := contains_eq_false fun v hmem =>
      hnot (.unknown key v) rfl (mem_dictEntries.2 ⟨_, _, hmem, rfl⟩)
    refine ⟨t, ht, hf, ?_⟩
    unfold branch
    split
    case h_24 => simp [Branch.check, InputEntry.key, hdup]
    all_goals exact absurd hf (by decide)
  case musig2PubNonce k nonces =>
    refine ⟨_, runOn_type (by decide) _, rfl, checkKey_ok _ _ hseen ?_⟩
    simp only [InputEntry.key, List.length_cons, serMusig2Key_length hv.1]
    split_ifs <;> rfl
  case musig2PartialSig k sig =>
    refine ⟨_, runOn_type (by decide) _, rfl, checkKey_ok _ _ hseen ?_⟩
    simp only [InputEntry.key, List.length_cons, serMusig2Key_length hv.1]
    split_ifs <;> rfl
  case tapScriptSig xonly leafHash sig =>
    refine ⟨_, runOn_type (by decide) _, rfl, checkKey_ok _ _ hseen ?_⟩
    simp [InputEntry.key, hv.1, hv.2.1]
  case tapBip32Path xonly leafHashes origin =>
    refine ⟨_, runOn_type (by decide) _, rfl, checkKey_ok _ _ hseen ?_⟩
    simp [InputEntry.key, hv.1]
  case musig2ParticipantPubkeys aggregate pubkeys =>
    refine ⟨_, runOn_type (by decide) _, rfl, checkKey_ok _ _ hseen ?_⟩
    simp [InputEntry.key, hv.1]
  case prevTxid | prevOut | sequence | timeLocktime | heightLocktime =>
    refine ⟨_, runOn_type (by decide) _, rfl, ?_⟩
    simp only [branch, Branch.check, notInV0, if_neg (hver rfl)]
    exact checkKey_ok _ _ hseen rfl
  all_goals exact ⟨_, runOn_type (by decide) _, rfl, checkKey_ok _ _ hseen rfl⟩

@[simp] theorem add_version (self : PartiallySignedInput) (e : InputEntry) :
    (self.add e).version = self.version := by cases e <;> rfl

/-- The format of input maps. -/
def format (R : Runtime) : MapFormat R PartiallySignedInput InputEntry InputField where
  store := store
  branch := branch R
  key := InputEntry.key
  value := InputEntry.value
  stored := InputEntry.stored R
  ofRecord t key v := InputEntry.ofRecord R key v (InputField.ofType t)
  Valid self e := e.Valid ∧ (e.field.isV2 → self.version ≠ 0)
  valid_add {self a e} h := ⟨h.1, by
    have hadd : (store.add self a).version = self.version := add_version self a
    rw [hadd]
    exact h.2⟩
  key_of_slot {a b} h := by
    have hslot : a.slot = b.slot := h
    simpa using congrArg InputEntry.key hslot
  key_stored := InputEntry.key_stored R
  null_stored h := InputEntry.null_stored R h.1
  takes {seen self e} h hseen hfresh := by
    obtain ⟨t, ht, hf, hcheck⟩ := branch_check R h.1 h.2 hseen hfresh
    obtain ⟨check, put, hbranch, hput⟩ := branch_store R e.key seen self t
    refine ⟨t, ht, ?_⟩
    rw [hbranch] at hcheck ⊢
    obtain rfl : check = .ok () := hcheck
    refine .value (toOption_eq_some.1 ?_)
    rw [hput, hf, InputEntry.ofRecord_record R h.1]
    rfl
  reads {key seen self t f n v self' f'} h := by
    obtain ⟨check, put, hbranch, hput⟩ := branch_store R key seen self t
    rw [hbranch] at h
    cases h with
    | value _ _ hst =>
      rw [← toOption_eq_some, hput, Option.map_eq_some_iff] at hst
      obtain ⟨e, he, rfl⟩ := hst
      exact ⟨e, he, rfl⟩

/-! ### The records an input writes -/

/-- The section of `sections` that writes a field. -/
def sectionOf (R : Runtime) (self : PartiallySignedInput) : InputField → Except Exc (List MapRecord)
  | .nonWitnessUtxo => optionRecord PSBT_IN_NON_WITNESS_UTXO CTransaction.serializeWithWitness
    self.nonWitnessUtxo
  | .witnessUtxo => optionRecord PSBT_IN_WITNESS_UTXO CTxOut.serialize self.witnessUtxo
  | .partialSig => dictRecords PSBT_IN_PARTIAL_SIG id .ok (sortedItems self.partialSigs)
  | .sighash => optionRecord PSBT_IN_SIGHASH_TYPE (fun n : ℕ => pack 4 n) self.sighash
  | .redeemScript => .ok (bytesRecord PSBT_IN_REDEEM_SCRIPT self.redeemScript)
  | .witnessScript => .ok (bytesRecord PSBT_IN_WITNESS_SCRIPT self.witnessScript)
  | .hdKeypath => dictRecords PSBT_IN_BIP32_DERIVATION id KeyOriginInfo.serialize
    (sortedItems self.hdKeypaths)
  | .finalScriptSig => .ok (bytesRecord PSBT_IN_FINAL_SCRIPTSIG self.finalScriptSig)
  | .finalScriptWitness => .ok (if !self.finalScriptWitness.isNull then
      [(serCompactSize PSBT_IN_FINAL_SCRIPTWITNESS, self.finalScriptWitness.serialize)] else [])
  | .prevTxid => .ok (bytesRecord PSBT_IN_PREVIOUS_TXID self.prevTxid)
  | .prevOut => optionRecord PSBT_IN_OUTPUT_INDEX (fun n : ℕ => pack 4 n) self.prevOut
  | .sequence => optionRecord PSBT_IN_SEQUENCE (fun n : ℕ => pack 4 n) self.sequence
  | .timeLocktime => optionRecord PSBT_IN_REQUIRED_TIME_LOCKTIME (fun n : ℕ => pack 4 n) self.timeLocktime
  | .heightLocktime => optionRecord PSBT_IN_REQUIRED_HEIGHT_LOCKTIME (fun n : ℕ => pack 4 n)
    self.heightLocktime
  | .tapKeySig => .ok (bytesRecord PSBT_IN_TAP_KEY_SIG self.tapKeySig)
  | .tapScriptSig => dictRecords PSBT_IN_TAP_SCRIPT_SIG (fun k => k.1 ++ k.2) .ok
    self.tapScriptSigs.items
  | .tapScript => .ok (self.tapScripts.items.flatMap fun ((script, leafVer), controlBlocks) =>
      (R.setOrder controlBlocks.elems).map fun controlBlock =>
        (serCompactSize PSBT_IN_TAP_LEAF_SCRIPT ++ controlBlock, script ++ [leafVer]))
  | .tapBip32Path => dictRecords PSBT_IN_TAP_BIP32_DERIVATION id (fun v => serTapBip32Value R v.1 v.2)
    self.tapBip32Paths.items
  | .tapInternalKey => .ok (bytesRecord PSBT_IN_TAP_INTERNAL_KEY self.tapInternalKey)
  | .tapMerkleRoot => .ok (bytesRecord PSBT_IN_TAP_MERKLE_ROOT self.tapMerkleRoot)
  | .musig2ParticipantPubkeys => dictRecords PSBT_IN_MUSIG2_PARTICIPANT_PUBKEYS id
    (fun pubkeys => .ok pubkeys.flatten) self.musig2ParticipantPubkeys.items
  | .musig2PubNonce => dictRecords PSBT_IN_MUSIG2_PUB_NONCE serMusig2Key .ok self.musig2PubNonces.items
  | .musig2PartialSig => dictRecords PSBT_IN_MUSIG2_PARTIAL_SIG serMusig2Key .ok
    self.musig2PartialSigs.items
  | .unknown => .ok (sortedItems self.unknown)

/-- The fields an input writes, in order. -/
def writtenFields (self : PartiallySignedInput) : List InputField :=
  [.nonWitnessUtxo, .witnessUtxo] ++
  (if self.isUnfinalised then [.partialSig, .sighash, .redeemScript, .witnessScript, .hdKeypath,
    .tapKeySig, .tapScriptSig, .tapScript, .tapBip32Path, .tapInternalKey, .tapMerkleRoot] else []) ++
  [.finalScriptSig, .finalScriptWitness, .musig2ParticipantPubkeys, .musig2PubNonce,
    .musig2PartialSig] ++
  (if self.version ≥ 2 then [.prevTxid, .prevOut, .sequence, .timeLocktime, .heightLocktime]
  else []) ++ [.unknown]

theorem sections_eq (R : Runtime) (self : PartiallySignedInput) :
    self.sections R = self.writtenFields.map (self.sectionOf R) := by
  simp only [writtenFields, List.map_append, apply_ite (List.map (self.sectionOf R))]
  rfl

/-- A field writes the records of the entries it holds. -/
theorem writes_sectionOf (R : Runtime) {self : PartiallySignedInput} {f : InputField}
    (h : ∀ e ∈ self.contents f, e.Valid) :
    Writes (self.sectionOf R f) ((self.contents f).map fun e => (e.written R).record) := by
  cases f <;> simp only [contents] at h ⊢ <;> simp only [sectionOf]
  case nonWitnessUtxo =>
    refine writes_option (fun tx htx => ?_) fun _ => rfl
    exact CTransaction.serializeWithWitness_ok (h _ (mem_optionEntries.2 ⟨tx, htx, rfl⟩)).1.onWire
  case witnessUtxo =>
    refine writes_option (fun txout ho => ?_) fun _ => rfl
    exact CTxOut.serialize_ok (h _ (mem_optionEntries.2 ⟨txout, ho, rfl⟩))
  case sighash | prevOut | sequence =>
    refine writes_option (fun n hn => ?_) fun _ => rfl
    exact pack_four (h _ (mem_optionEntries.2 ⟨n, hn, rfl⟩))
  case timeLocktime =>
    refine writes_option (fun n hn => ?_) fun _ => rfl
    exact pack_four (h _ (mem_optionEntries.2 ⟨n, hn, rfl⟩)).2
  case heightLocktime =>
    refine writes_option (fun n hn => ?_) fun _ => rfl
    exact pack_four ((h _ (mem_optionEntries.2 ⟨n, hn, rfl⟩)).2.trans (by decide))
  case redeemScript | witnessScript | finalScriptSig | prevTxid | tapKeySig | tapInternalKey
      | tapMerkleRoot =>
    exact writes_bytes fun _ => rfl
  case hdKeypath =>
    refine writes_dict (sortedItems_perm _) (fun k v hkv => ?_) fun _ _ => rfl
    exact KeyOriginInfo.serialize_ok (h _ (mem_dictEntries.2 ⟨k, v, hkv, rfl⟩)).2
  case tapBip32Path =>
    refine writes_dict (.refl _) (fun k v hkv => ?_) fun _ _ => rfl
    exact serTapBip32Value_ok (h _ (mem_dictEntries.2 ⟨k, v, hkv, rfl⟩)).2.origin
  case partialSig => exact writes_dict (sortedItems_perm _) (fun _ _ _ => rfl) fun _ _ => rfl
  case tapScriptSig | musig2ParticipantPubkeys | musig2PubNonce | musig2PartialSig =>
    exact writes_dict (.refl _) (fun _ _ _ => rfl) fun _ _ => rfl
  case unknown => exact writes_unknown fun _ _ => rfl
  case finalScriptWitness =>
    refine .of_eq (congrArg _ ?_)
    cases self.finalScriptWitness.isNull <;> rfl
  case tapScript =>
    refine ⟨_, rfl, ?_⟩
    rw [List.map_map, Dict.pairs, List.map_flatMap]
    refine List.Perm.flatMap_left _ fun e _ => ?_
    obtain ⟨⟨script, leafVer⟩, controlBlocks⟩ := e
    rw [List.map_map]
    exact (R.setOrder_perm controlBlocks.elems).map _

theorem mem_writtenFields {self : PartiallySignedInput} {f : InputField} :
    f ∈ self.writtenFields ↔
      (f.isSigning → self.isUnfinalised) ∧ (f.isV2 → self.version ≥ 2) := by
  unfold writtenFields
  by_cases hu : self.isUnfinalised <;> by_cases hv : self.version ≥ 2 <;>
    simp only [hu, hv, if_true, if_false] <;> cases f <;> decide

theorem nodup_writtenFields (self : PartiallySignedInput) : self.writtenFields.Nodup := by
  unfold writtenFields
  split_ifs <;> decide

/-- The entries an input writes. -/
def writtenEntries (self : PartiallySignedInput) : List InputEntry :=
  (store.held self).filter fun e => decide (e.field ∈ self.writtenFields)

/-- An input writes the records of these entries and a separator. -/
theorem serialize_ok (R : Runtime) {self : PartiallySignedInput}
    (h : ∀ e ∈ self.writtenEntries, e.Valid) : ∃ rs, self.serialize R = .ok (mapBytes rs) ∧
      rs.Perm (self.writtenEntries.map fun e => (e.written R).record) := by
  have hperm := store.flatMap_contents_perm self self.nodup_writtenFields
  obtain ⟨rs, hrs, hrecs⟩ := serializeMap_fields_ok (fun f hf => writes_sectionOf R fun e he =>
    h e (hperm.mem_iff.1 (List.mem_flatMap.2 ⟨f, hf, he⟩)))
  refine ⟨rs, by rw [serialize, sections_eq, hrs], hrecs.trans ?_⟩
  rw [← List.map_flatMap]
  exact hperm.map _

end PartiallySignedInput

end Hwi
