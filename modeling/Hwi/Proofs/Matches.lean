import Hwi.Proofs.PsbtCanonical

/-! What is read back from the map written for an input or an output: field by
field the entries the object has. -/

namespace Hwi

/-! ### Distinct keys -/

section Fields

variable {α β κ ν ε : Type} {key : ε → β}

theorem nodup_optionEntries {entry : α → ε} (o : Option α) :
    ((optionEntries entry o).map key).Nodup := by
  cases o <;> simp [optionEntries]

theorem nodup_listEntries {entry : List α → ε} (v : List α) :
    ((listEntries entry v).map key).Nodup := by
  unfold listEntries
  split_ifs <;> simp

theorem nodup_dictEntries {entry : κ → ν → ε} {g : κ → β} (d : Dict κ ν)
    (hkey : ∀ k v, key (entry k v) = g k)
    (hinj : ∀ k v k' v', (k, v) ∈ d.items → (k', v') ∈ d.items → g k = g k' → k = k') :
    ((dictEntries entry d).map key).Nodup := by
  have hmap : (dictEntries entry d).map key = (d.items.map Prod.fst).map g := by
    simp [dictEntries, hkey, Function.comp_def]
  rw [hmap]
  refine d.nodup.map_on fun k hk k' hk' heq => ?_
  obtain ⟨⟨_, v⟩, hv, rfl⟩ := List.mem_map.1 hk
  obtain ⟨⟨_, v'⟩, hv', rfl⟩ := List.mem_map.1 hk'
  exact hinj _ v _ v' hv hv' heq

end Fields

/-- Keys that tell their field are distinct when they are within each field. -/
theorem nodup_flatMap_keys {φ ε β : Type} {fields : List φ} (hnd : fields.Nodup)
    {contents : φ → List ε} {key : ε → β} (hown : ∀ f, ((contents f).map key).Nodup)
    (hother : ∀ f g, ∀ a ∈ contents f, ∀ b ∈ contents g, key a = key b → f = g) :
    ((fields.flatMap contents).map key).Nodup := by
  rw [List.map_flatMap]
  refine List.nodup_flatMap.2 ⟨fun f _ => hown f, hnd.imp fun {f g} hne => ?_⟩
  intro k hk hk'
  obtain ⟨a, ha, rfl⟩ := List.mem_map.1 hk
  obtain ⟨b, hb, hkey⟩ := List.mem_map.1 hk'
  exact hne (hother f g a ha b hb hkey.symm)

namespace InputEntry

/-- The key of a valid entry tells its field. -/
theorem type_key {e : InputEntry} (h : e.Valid) :
    ∃ t, runOn deserCompactSize e.key = .ok t ∧ InputField.ofType t = e.field := by
  obtain ⟨t, ht, hf, -⟩ := @PartiallySignedInput.branch_check Runtime.zeros [] { version := 2 } e h
    (fun _ => by decide) List.not_mem_nil fun _ ha => absurd ha List.not_mem_nil
  exact ⟨t, ht, hf⟩

theorem field_of_key {a b : InputEntry} (ha : a.Valid) (hb : b.Valid) (h : a.key = b.key) :
    a.field = b.field := by
  obtain ⟨t, ht, hf⟩ := type_key ha
  obtain ⟨t', ht', hf'⟩ := type_key hb
  rw [h, ht'] at ht
  cases ht
  exact hf.symm.trans hf'

end InputEntry

namespace PartiallySignedInput

theorem WellFormed.nodup_contents {n : ℕ} {i : PartiallySignedInput} (h : i.WellFormed n)
    (f : InputField) : ((i.contents f).map InputEntry.key).Nodup := by
  have hvalid := h.valid f
  cases f <;> simp only [contents] at hvalid ⊢
  case finalScriptWitness => split_ifs <;> simp
  case tapScript =>
    rw [List.map_map]
    have hcons : (InputEntry.key ∘ fun e : (Bytes × UInt8) × Bytes => .tapScript e.2 e.1.1 e.1.2) =
        List.cons 0x15 ∘ Prod.snd := rfl
    rw [hcons, ← List.map_map]
    exact h.controlBlocks.map List.cons_injective
  case tapScriptSig =>
    refine nodup_dictEntries (g := fun k => 0x14 :: (k.1 ++ k.2)) _ (fun _ _ => rfl) ?_
    intro k v k' v' hk hk' heq
    have h32 := (hvalid _ (mem_dictEntries.2 ⟨k, v, hk, rfl⟩)).1
    have h32' := (hvalid _ (mem_dictEntries.2 ⟨k', v', hk', rfl⟩)).1
    have happ := List.append_inj (List.tail_eq_of_cons_eq heq) (h32.trans h32'.symm)
    exact Prod.ext happ.1 happ.2
  case musig2PubNonce =>
    refine nodup_dictEntries (g := fun k => 0x1b :: serMusig2Key k) _ (fun _ _ => rfl) ?_
    intro k v k' v' hk hk' heq
    rw [← musig2Key_key (hvalid _ (mem_dictEntries.2 ⟨k, v, hk, rfl⟩)).1 0x1b, heq]
    exact musig2Key_key (hvalid _ (mem_dictEntries.2 ⟨k', v', hk', rfl⟩)).1 0x1b
  case musig2PartialSig =>
    refine nodup_dictEntries (g := fun k => 0x1c :: serMusig2Key k) _ (fun _ _ => rfl) ?_
    intro k v k' v' hk hk' heq
    rw [← musig2Key_key (hvalid _ (mem_dictEntries.2 ⟨k, v, hk, rfl⟩)).1 0x1c, heq]
    exact musig2Key_key (hvalid _ (mem_dictEntries.2 ⟨k', v', hk', rfl⟩)).1 0x1c
  case partialSig | hdKeypath | tapBip32Path | musig2ParticipantPubkeys =>
    exact nodup_dictEntries _ (fun _ _ => rfl) fun _ _ _ _ _ _ heq => List.tail_eq_of_cons_eq heq
  case unknown => exact nodup_dictEntries _ (fun _ _ => rfl) fun _ _ _ _ _ _ heq => heq
  all_goals first
    | exact nodup_optionEntries _
    | exact nodup_listEntries _

theorem WellFormed.nodup_held {n : ℕ} {i : PartiallySignedInput} (h : i.WellFormed n) :
    ((store.held i).map InputEntry.key).Nodup := by
  refine nodup_flatMap_keys store.nodup_fields h.nodup_contents fun f g a ha b hb hkey => ?_
  have hfield := InputEntry.field_of_key (h.valid f a ha) (h.valid g b hb) hkey
  rwa [field_of_mem_contents ha, field_of_mem_contents hb] at hfield

end PartiallySignedInput

namespace OutputEntry

/-- The key of a valid entry tells its field. -/
theorem type_key {e : OutputEntry} (h : e.Valid) :
    ∃ t, runOn deserCompactSize e.key = .ok t ∧ OutputField.ofType t = e.field := by
  obtain ⟨t, ht, hf, -⟩ := @PartiallySignedOutput.branch_check [] { version := 2 } e h
    (fun _ => by decide) List.not_mem_nil fun _ ha => absurd ha List.not_mem_nil
  exact ⟨t, ht, hf⟩

theorem field_of_key {a b : OutputEntry} (ha : a.Valid) (hb : b.Valid) (h : a.key = b.key) :
    a.field = b.field := by
  obtain ⟨t, ht, hf⟩ := type_key ha
  obtain ⟨t', ht', hf'⟩ := type_key hb
  rw [h, ht'] at ht
  cases ht
  exact hf.symm.trans hf'

end OutputEntry

namespace PartiallySignedOutput

theorem nodup_contents (o : PartiallySignedOutput) (f : OutputField) :
    ((o.contents f).map OutputEntry.key).Nodup := by
  cases f <;> simp only [contents]
  case hdKeypath | tapBip32Path | musig2ParticipantPubkeys =>
    exact nodup_dictEntries _ (fun _ _ => rfl) fun _ _ _ _ _ _ heq => List.tail_eq_of_cons_eq heq
  case unknown => exact nodup_dictEntries _ (fun _ _ => rfl) fun _ _ _ _ _ _ heq => heq
  all_goals first
    | exact nodup_optionEntries _
    | exact nodup_listEntries _

theorem WellFormed.nodup_held {n : ℕ} {o : PartiallySignedOutput} (h : o.WellFormed n) :
    ((store.held o).map OutputEntry.key).Nodup := by
  refine nodup_flatMap_keys store.nodup_fields o.nodup_contents fun f g a ha b hb hkey => ?_
  have hfield := OutputEntry.field_of_key (h.valid f a ha) (h.valid g b hb) hkey
  rwa [field_of_mem_contents ha, field_of_mem_contents hb] at hfield

end PartiallySignedOutput

namespace GlobalEntry

/-- The key of a valid entry tells its field. -/
theorem type_key {e : GlobalEntry} (h : e.Valid) :
    ∃ t, runOn deserCompactSize e.key = .ok t ∧ GlobalField.ofType t = e.field := by
  obtain ⟨t, ht, hf, -⟩ := @PSBT.Global.branch_check Runtime.zeros [] { psbt := {} } e h
    List.not_mem_nil fun _ ha => absurd ha List.not_mem_nil
  exact ⟨t, ht, hf⟩

theorem field_of_key {a b : GlobalEntry} (ha : a.Valid) (hb : b.Valid) (h : a.key = b.key) :
    a.field = b.field := by
  obtain ⟨t, ht, hf⟩ := type_key ha
  obtain ⟨t', ht', hf'⟩ := type_key hb
  rw [h, ht'] at ht
  cases ht
  exact hf.symm.trans hf'

end GlobalEntry

/-! ### The same fields -/

theorem OrderedSet.same_iterated (R : Runtime) (s : OrderedSet Bytes) : s.Same (s.iterated R) :=
  (R.setOrder_perm _).symm

namespace PartiallySignedInput

variable {R : Runtime} {i j : PartiallySignedInput}

/-- One input has in each field what the other has there, written and read again. -/
structure Matches (R : Runtime) (i j : PartiallySignedInput) : Prop where
  version : i.version = j.version
  contents : ∀ f, (j.contents f).Perm ((i.contents f).map fun e => (e.written R).stored R)
  leafScripts : ∀ s ∈ j.tapScripts.values, s.elems ≠ []

theorem Matches.nonWitnessUtxo (h : Matches R i j) :
    Option.Rel CTransaction.Same i.nonWitnessUtxo j.nonWitnessUtxo := by
  have hrel : Option.Rel (fun tx tx' => tx' = tx.asRead.hashed R) i.nonWitnessUtxo j.nonWitnessUtxo :=
    rel_of_optionEntries (h.contents .nonWitnessUtxo) fun _ _ heq => InputEntry.nonWitnessUtxo.inj heq
  generalize i.nonWitnessUtxo = o, j.nonWitnessUtxo = o' at hrel ⊢
  cases hrel with
  | none => exact .none
  | some heq =>
    rw [heq]
    exact .some (CTransaction.asRead_same _)

theorem Matches.finalScriptWitness (h : Matches R i j) :
    i.finalScriptWitness = j.finalScriptWitness := by
  have hperm := h.contents .finalScriptWitness
  simp only [PartiallySignedInput.contents] at hperm
  obtain ⟨w, hw⟩ : ∃ w, i.finalScriptWitness = w := ⟨_, rfl⟩
  obtain ⟨w', hw'⟩ : ∃ w', j.finalScriptWitness = w' := ⟨_, rfl⟩
  rw [hw, hw'] at hperm ⊢
  split_ifs at hperm with hj hi hi
  · rw [CTxInWitness.isNull, List.isEmpty_iff] at hi hj
    exact congrArg CTxInWitness.mk (hi.trans hj.symm)
  · exact absurd hperm.length_eq (by simp)
  · exact absurd hperm.length_eq (by simp)
  · exact (InputEntry.finalScriptWitness.inj (List.singleton_perm_singleton.1 hperm)).symm

theorem Matches.tapScripts (h : Matches R i j)
    (hi : ∀ s ∈ i.tapScripts.values, s.elems ≠ []) :
    i.tapScripts.Rel OrderedSet.Same j.tapScripts := by
  refine Dict.rel_of_pairs_perm ?_ hi h.leafScripts
  have hperm := h.contents .tapScript
  simp only [PartiallySignedInput.contents, List.map_map] at hperm
  refine (List.map_perm_map_iff ?_).1 hperm
  rintro ⟨⟨s, v⟩, c⟩ ⟨⟨s', v'⟩, c'⟩ heq
  cases heq
  rfl

/-- Inputs that match have the same fields. -/
theorem Matches.same {n : ℕ} (h : Matches R i j) (hi : i.WellFormed n) : i.Same j where
  nonWitnessUtxo := h.nonWitnessUtxo
  witnessUtxo := eq_of_optionEntries (h.contents .witnessUtxo) fun _ _ heq => by cases heq; rfl
  partialSigs := (rel_of_dictEntries _ (h.contents .partialSig) fun _ _ _ _ heq => by cases heq; simp).same
  sighash := eq_of_optionEntries (h.contents .sighash) fun _ _ heq => by cases heq; rfl
  redeemScript := eq_of_listEntries (h.contents .redeemScript) fun _ _ heq => by cases heq; rfl
  witnessScript := eq_of_listEntries (h.contents .witnessScript) fun _ _ heq => by cases heq; rfl
  hdKeypaths := (rel_of_dictEntries _ (h.contents .hdKeypath) fun _ _ _ _ heq => by cases heq; simp).same
  finalScriptSig := eq_of_listEntries (h.contents .finalScriptSig) fun _ _ heq => by cases heq; rfl
  finalScriptWitness := h.finalScriptWitness
  prevTxid := eq_of_listEntries (h.contents .prevTxid) fun _ _ heq => by cases heq; rfl
  prevOut := eq_of_optionEntries (h.contents .prevOut) fun _ _ heq => by cases heq; rfl
  sequence := eq_of_optionEntries (h.contents .sequence) fun _ _ heq => by cases heq; rfl
  timeLocktime := eq_of_optionEntries (h.contents .timeLocktime) fun _ _ heq => by cases heq; rfl
  heightLocktime := eq_of_optionEntries (h.contents .heightLocktime) fun _ _ heq => by cases heq; rfl
  tapKeySig := eq_of_listEntries (h.contents .tapKeySig) fun _ _ heq => by cases heq; rfl
  tapScriptSigs := (rel_of_dictEntries (fun (k : Bytes × Bytes) => InputEntry.tapScriptSig k.1 k.2)
    (h.contents .tapScriptSig)
    fun _ _ _ _ heq => ⟨Prod.ext (InputEntry.tapScriptSig.inj heq).1 (InputEntry.tapScriptSig.inj heq).2.1,
      (InputEntry.tapScriptSig.inj heq).2.2.symm⟩).same
  tapScripts := h.tapScripts hi.leafScripts
  tapBip32Paths := rel_of_dictEntries (fun k (v : OrderedSet Bytes × KeyOriginInfo) =>
    InputEntry.tapBip32Path k v.1 v.2) (h.contents .tapBip32Path) fun _ v _ v' heq => by
    obtain ⟨hk, hs, ho⟩ := InputEntry.tapBip32Path.inj heq
    exact ⟨hk, hs ▸ OrderedSet.same_iterated R v.1, ho.symm⟩
  tapInternalKey := eq_of_listEntries (h.contents .tapInternalKey) fun _ _ heq => by cases heq; rfl
  tapMerkleRoot := eq_of_listEntries (h.contents .tapMerkleRoot) fun _ _ heq => by cases heq; rfl
  musig2ParticipantPubkeys := (rel_of_dictEntries _ (h.contents .musig2ParticipantPubkeys)
    fun _ _ _ _ heq => by cases heq; simp).same
  musig2PubNonces := (rel_of_dictEntries _ (h.contents .musig2PubNonce)
    fun _ _ _ _ heq => by cases heq; simp).same
  musig2PartialSigs := (rel_of_dictEntries _ (h.contents .musig2PartialSig)
    fun _ _ _ _ heq => by cases heq; simp).same
  unknown := (rel_of_dictEntries _ (h.contents .unknown) fun _ _ _ _ heq => by cases heq; simp).same
  version := h.version

end PartiallySignedInput

namespace PartiallySignedOutput

variable {R : Runtime} {i j : PartiallySignedOutput}

/-- One output has in each field what the other has there, written again. -/
structure Matches (R : Runtime) (i j : PartiallySignedOutput) : Prop where
  version : i.version = j.version
  contents : ∀ f, (j.contents f).Perm ((i.contents f).map fun e => e.written R)

/-- Outputs that match have the same fields. -/
theorem Matches.same (h : Matches R i j) : i.Same j where
  redeemScript := eq_of_listEntries (h.contents .redeemScript) fun _ _ heq => by cases heq; rfl
  witnessScript := eq_of_listEntries (h.contents .witnessScript) fun _ _ heq => by cases heq; rfl
  hdKeypaths := (rel_of_dictEntries _ (h.contents .hdKeypath) fun _ _ _ _ heq => by cases heq; simp).same
  amount := eq_of_optionEntries (h.contents .amount) fun _ _ heq => by cases heq; rfl
  script := eq_of_listEntries (h.contents .script) fun _ _ heq => by cases heq; rfl
  tapInternalKey := eq_of_listEntries (h.contents .tapInternalKey) fun _ _ heq => by cases heq; rfl
  tapTree := eq_of_listEntries (h.contents .tapTree) fun _ _ heq => by cases heq; rfl
  tapBip32Paths := rel_of_dictEntries (fun k (v : OrderedSet Bytes × KeyOriginInfo) =>
    OutputEntry.tapBip32Path k v.1 v.2) (h.contents .tapBip32Path) fun _ v _ v' heq => by
    obtain ⟨hk, hs, ho⟩ := OutputEntry.tapBip32Path.inj heq
    exact ⟨hk, hs ▸ OrderedSet.same_iterated R v.1, ho.symm⟩
  musig2ParticipantPubkeys := (rel_of_dictEntries _ (h.contents .musig2ParticipantPubkeys)
    fun _ _ _ _ heq => by cases heq; simp).same
  unknown := (rel_of_dictEntries _ (h.contents .unknown) fun _ _ _ _ heq => by cases heq; simp).same
  version := h.version

end PartiallySignedOutput

/-! ### The maps written for an object -/

theorem tapPathBytes_iterated_length (R : Runtime) (s : OrderedSet Bytes) (o : KeyOriginInfo) :
    (tapPathBytes (s.iterated R) o).length = (tapPathBytes s o).length := by
  have hperm : (s.iterated R).elems.Perm s.elems := R.setOrder_perm _
  simp only [tapPathBytes, List.length_append, hperm.length_eq, hperm.flatten.length_eq]

/-- Records in some order are the records of the entries in that order. -/
theorem exists_perm_of_perm_map {α β : Type} {f : α → β} {l : List α} {rs : List β}
    (h : rs.Perm (l.map f)) : ∃ es : List α, es.Perm l ∧ es.map f = rs := by
  have hmap : List.Forall₂ (fun b a => f a = b) (l.map f) l :=
    List.forall₂_map_left_iff.2 (List.forall₂_same.2 fun _ _ => rfl)
  obtain ⟨es, hes, hperm⟩ := List.perm_comp_forall₂ h hmap
  refine ⟨es, hperm, ?_⟩
  have heq : List.Forall₂ Eq (es.map f) rs :=
    List.forall₂_map_left_iff.2 (List.Forall₂.flip hes)
  rwa [List.forall₂_eq_eq_eq] at heq

namespace InputEntry

variable {R : Runtime} {e : InputEntry}

@[simp] theorem key_written : (e.written R).key = e.key := by cases e <;> rfl

@[simp] theorem field_written : (e.written R).field = e.field := by cases e <;> rfl

theorem valid_written (h : e.Valid) : (e.written R).Valid := by
  cases e with
  | tapBip32Path xonly leafHashes origin => exact ⟨h.1, h.2.iterated⟩
  | _ => exact h

theorem fits_written (h : RecordFits e.record) : RecordFits (e.written R).record := by
  cases e with
  | tapBip32Path xonly leafHashes origin =>
    refine ⟨h.key, h.keySize, ?_⟩
    exact (tapPathBytes_iterated_length R leafHashes origin).trans_le h.valueSize
  | _ => exact h

end InputEntry

namespace PartiallySignedInput

variable {R : Runtime} {n : ℕ} {i : PartiallySignedInput} {es : List InputEntry}

/-- The entries of a map written for an input. -/
def WrittenAs (R : Runtime) (i : PartiallySignedInput) (es : List InputEntry) : Prop :=
  es.Perm (i.writtenEntries.map (InputEntry.written R))

theorem mem_writtenEntries {e : InputEntry} :
    e ∈ i.writtenEntries ↔ e ∈ i.contents e.field ∧ e.field ∈ i.writtenFields := by
  rw [writtenEntries, List.mem_filter, decide_eq_true_iff]
  exact and_congr_left' store.mem_held

theorem WrittenAs.exists_entry (h : WrittenAs R i es) {e : InputEntry} (he : e ∈ es) :
    ∃ a, a ∈ i.contents a.field ∧ a.field ∈ i.writtenFields ∧ a.written R = e := by
  obtain ⟨a, ha, rfl⟩ := List.mem_map.1 (h.mem_iff.1 he)
  exact ⟨a, (mem_writtenEntries.1 ha).1, (mem_writtenEntries.1 ha).2, rfl⟩

theorem WrittenAs.mem (h : WrittenAs R i es) {e : InputEntry} (he : e ∈ i.contents e.field)
    (hf : e.field ∈ i.writtenFields) : e.written R ∈ es :=
  h.mem_iff.2 (List.mem_map_of_mem (mem_writtenEntries.2 ⟨he, hf⟩))

theorem WrittenAs.canonical (h : WrittenAs R i es) (hi : i.WellFormed n) :
    PsbtMaps.MapCanonical InputEntry.Valid InputEntry.record es where
  valid e he := by
    obtain ⟨a, ha, -, rfl⟩ := h.exists_entry he
    exact InputEntry.valid_written (hi.valid _ a ha)
  fits e he := by
    obtain ⟨a, ha, -, rfl⟩ := h.exists_entry he
    exact InputEntry.fits_written (hi.fits _ a ha)
  nodup := by
    have hkeys : (es.map InputEntry.key).Perm (i.writtenEntries.map InputEntry.key) := by
      refine (h.map _).trans (.of_eq ?_)
      simp [Function.comp_def]
    refine hkeys.nodup_iff.2 (hi.nodup_held.sublist ?_)
    exact List.filter_sublist.map _

/-- Only version 0 leaves fields of a well-formed input out. -/
theorem WellFormed.mem_writtenFields (hi : i.WellFormed n) {f : InputField} :
    f ∈ i.writtenFields ↔ (f.isV2 → n ≥ 2) := by
  rw [PartiallySignedInput.mem_writtenFields, hi.unfinalised, hi.version]
  simp

theorem WrittenAs.complete (h : WrittenAs R i es) (hi : i.WellFormed n)
    (hv2 : n ≥ 2 → i.HasV2 R) : Complete R n es where
  canonical := h.canonical hi
  v0 e he hf := by
    obtain ⟨a, -, ha, rfl⟩ := h.exists_entry he
    rw [InputEntry.field_written] at hf
    have := hi.mem_writtenFields.1 ha hf
    omega
  prevTxid hn := by
    have hmem : InputEntry.prevTxid i.prevTxid ∈ i.contents .prevTxid :=
      mem_listEntries.2 ⟨(hv2 hn).prevTxid, rfl⟩
    exact ⟨_, h.mem hmem (hi.mem_writtenFields.2 fun _ => hn)⟩
  prevOut hn := by
    obtain ⟨k, hk⟩ := Option.ne_none_iff_exists'.1 (hv2 hn).prevOut
    have hmem : InputEntry.prevOut k ∈ i.contents .prevOut := mem_optionEntries.2 ⟨k, hk, rfl⟩
    exact ⟨_, h.mem hmem (hi.mem_writtenFields.2 fun _ => hn)⟩

/-- The UTXO written for an input is the one it has. -/
theorem WrittenAs.nonWitnessUtxo (h : WrittenAs R i es) {utxo : CTransaction}
    (hmem : .nonWitnessUtxo utxo ∈ es) : i.nonWitnessUtxo = some utxo := by
  obtain ⟨a, ha, -, heq⟩ := h.exists_entry hmem
  cases a with
  | nonWitnessUtxo tx =>
    cases heq
    exact nonWitnessUtxo_mem_held.1 (store.mem_held.2 ha)
  | _ => cases heq

theorem WrittenAs.prevTxid (h : WrittenAs R i es) {txid : Bytes} (hmem : .prevTxid txid ∈ es) :
    i.prevTxid = txid := by
  obtain ⟨a, ha, -, heq⟩ := h.exists_entry hmem
  cases a with
  | prevTxid v =>
    cases heq
    exact (prevTxid_of_mem_held (store.mem_held.2 ha)).1
  | _ => cases heq

/-- What the input read from the map has in each field. -/
theorem WrittenAs.contents_ofEntries (h : WrittenAs R i es) (hc : Complete R n es) (f : InputField) : ((ofEntries R n es).contents f).Perm
      (if decide (f ∈ i.writtenFields) then
        (i.contents f).map fun e => (e.written R).stored R else []) := by
  refine store.contents_perm_of_held (q := fun f => decide (f ∈ i.writtenFields))
    (fun e => ?_) ((held_ofEntries hc.canonical hc.v0).trans ?_) f
  · exact (InputEntry.field_stored R _).trans InputEntry.field_written
  · refine (h.map _).trans (.of_eq ?_)
    rw [List.map_map]
    rfl

theorem leafScripts_ofEntries (R : Runtime) (n : ℕ) (es : List InputEntry) :
    ∀ s ∈ (ofEntries R n es).tapScripts.values, s.elems ≠ [] := by
  refine store.addAll_invariant (P := fun i => ∀ s ∈ i.tapScripts.values, s.elems ≠ [])
    (fun i e hi => ?_) (by simp [Dict.values]) _
  cases e
  case tapScript controlBlock script leafVer => exact Dict.addPair_values_ne_nil hi _ _
  all_goals exact hi

/-- A version 2 input is read back as it was. -/
theorem WrittenAs.matches_ofEntries (h : WrittenAs R i es) (hi : i.WellFormed n) (hn : n ≥ 2)
    (hc : Complete R n es) : Matches R i (ofEntries R n es) where
  version := hi.version.trans (ofEntries_version R n es).symm
  contents f := by
    have hf : f ∈ i.writtenFields := hi.mem_writtenFields.2 fun _ => hn
    have hcontents := h.contents_ofEntries hc f
    rwa [if_pos (decide_eq_true hf)] at hcontents
  leafScripts := leafScripts_ofEntries R n es

/-- A version 0 input is read back as it was, up to the fields of the transaction. -/
theorem WrittenAs.matches_setupInput (h : WrittenAs R i es) (hi : i.WellFormed 0)
    (hc : Complete R 0 es) {txin : CTxIn} (hcache : i.Caches R txin) :
    Matches R i (PSBT.setupInput (ofEntries R 0 es) txin) where
  version := hi.version.trans (ofEntries_version R 0 es).symm
  contents f := by
    have hcontents := h.contents_ofEntries hc f
    by_cases hf : f.isV2
    · have hnot : f ∉ i.writtenFields := fun hmem => by
        have := hi.mem_writtenFields.1 hmem hf
        omega
      rw [if_neg (by simpa using hnot)] at hcontents
      cases f
      case prevTxid =>
        refine .of_eq ?_
        simp only [PartiallySignedInput.contents, hcache.prevTxid, PSBT.setupInput]
        unfold listEntries
        split_ifs <;> rfl
      case prevOut =>
        refine .of_eq ?_
        simp only [PartiallySignedInput.contents, hcache.prevOut, PSBT.setupInput]
        rfl
      case sequence =>
        refine .of_eq ?_
        simp only [PartiallySignedInput.contents, hcache.sequence, PSBT.setupInput]
        rfl
      case timeLocktime =>
        refine .trans hcontents (.of_eq ?_)
        simp only [PartiallySignedInput.contents, hcache.timeLocktime]
        rfl
      case heightLocktime =>
        refine .trans hcontents (.of_eq ?_)
        simp only [PartiallySignedInput.contents, hcache.heightLocktime]
        rfl
      all_goals cases hf
    · have hmem : f ∈ i.writtenFields := hi.mem_writtenFields.2 fun h => absurd h hf
      rw [if_pos (decide_eq_true hmem)] at hcontents
      refine .trans (.of_eq ?_) hcontents
      cases f <;> first | rfl | exact absurd rfl hf
  leafScripts := leafScripts_ofEntries R 0 es

end PartiallySignedInput

namespace OutputEntry

variable {R : Runtime} {e : OutputEntry}

@[simp] theorem key_written : (e.written R).key = e.key := by cases e <;> rfl

@[simp] theorem field_written : (e.written R).field = e.field := by cases e <;> rfl

theorem valid_written (h : e.Valid) : (e.written R).Valid := by
  cases e with
  | tapBip32Path xonly leafHashes origin => exact ⟨h.1, h.2.iterated⟩
  | _ => exact h

theorem fits_written (h : RecordFits e.record) : RecordFits (e.written R).record := by
  cases e with
  | tapBip32Path xonly leafHashes origin =>
    refine ⟨h.key, h.keySize, ?_⟩
    exact (tapPathBytes_iterated_length R leafHashes origin).trans_le h.valueSize
  | _ => exact h

end OutputEntry

namespace PartiallySignedOutput

variable {R : Runtime} {n : ℕ} {o : PartiallySignedOutput} {es : List OutputEntry}

/-- The entries of a map written for an output. -/
def WrittenAs (R : Runtime) (o : PartiallySignedOutput) (es : List OutputEntry) : Prop :=
  es.Perm (o.writtenEntries.map (OutputEntry.written R))

theorem mem_writtenEntries {e : OutputEntry} :
    e ∈ o.writtenEntries ↔ e ∈ o.contents e.field ∧ e.field ∈ o.writtenFields := by
  rw [writtenEntries, List.mem_filter, decide_eq_true_iff]
  exact and_congr_left' store.mem_held

theorem WrittenAs.exists_entry (h : WrittenAs R o es) {e : OutputEntry} (he : e ∈ es) :
    ∃ a, a ∈ o.contents a.field ∧ a.field ∈ o.writtenFields ∧ a.written R = e := by
  obtain ⟨a, ha, rfl⟩ := List.mem_map.1 (h.mem_iff.1 he)
  exact ⟨a, (mem_writtenEntries.1 ha).1, (mem_writtenEntries.1 ha).2, rfl⟩

theorem WrittenAs.mem (h : WrittenAs R o es) {e : OutputEntry} (he : e ∈ o.contents e.field)
    (hf : e.field ∈ o.writtenFields) : e.written R ∈ es :=
  h.mem_iff.2 (List.mem_map_of_mem (mem_writtenEntries.2 ⟨he, hf⟩))

theorem WrittenAs.canonical (h : WrittenAs R o es) (ho : o.WellFormed n) :
    PsbtMaps.MapCanonical OutputEntry.Valid OutputEntry.record es where
  valid e he := by
    obtain ⟨a, ha, -, rfl⟩ := h.exists_entry he
    exact OutputEntry.valid_written (ho.valid _ a ha)
  fits e he := by
    obtain ⟨a, ha, -, rfl⟩ := h.exists_entry he
    exact OutputEntry.fits_written (ho.fits _ a ha)
  nodup := by
    have hkeys : (es.map OutputEntry.key).Perm (o.writtenEntries.map OutputEntry.key) := by
      refine (h.map _).trans (.of_eq ?_)
      simp [Function.comp_def]
    refine hkeys.nodup_iff.2 (ho.nodup_held.sublist ?_)
    exact List.filter_sublist.map _

theorem WellFormed.mem_writtenFields (ho : o.WellFormed n) {f : OutputField} :
    f ∈ o.writtenFields ↔ (f.isV2 → n ≥ 2) := by
  rw [PartiallySignedOutput.mem_writtenFields, ho.version]

theorem WrittenAs.complete (h : WrittenAs R o es) (ho : o.WellFormed n)
    (hv2 : n ≥ 2 → o.HasV2) : Complete n es where
  canonical := h.canonical ho
  v0 e he hf := by
    obtain ⟨a, -, ha, rfl⟩ := h.exists_entry he
    rw [OutputEntry.field_written] at hf
    have := ho.mem_writtenFields.1 ha hf
    omega
  amount hn := by
    obtain ⟨k, hk⟩ := Option.ne_none_iff_exists'.1 (hv2 hn).amount
    have hmem : OutputEntry.amount k ∈ o.contents .amount := mem_optionEntries.2 ⟨k, hk, rfl⟩
    exact ⟨_, h.mem hmem (ho.mem_writtenFields.2 fun _ => hn)⟩
  script hn := by
    have hmem : OutputEntry.script o.script ∈ o.contents .script :=
      mem_listEntries.2 ⟨(hv2 hn).script, rfl⟩
    exact ⟨_, h.mem hmem (ho.mem_writtenFields.2 fun _ => hn)⟩

/-- What the output read from the map has in each field. -/
theorem WrittenAs.contents_ofEntries (h : WrittenAs R o es) (hc : Complete n es) (f : OutputField) :
    ((ofEntries n es).contents f).Perm
      (if decide (f ∈ o.writtenFields) then (o.contents f).map fun e => e.written R else []) :=
  store.contents_perm_of_held (q := fun f => decide (f ∈ o.writtenFields))
    (fun _ => OutputEntry.field_written) (hc.held.trans h) f

/-- A version 2 output is read back as it was. -/
theorem WrittenAs.matches_ofEntries (h : WrittenAs R o es) (ho : o.WellFormed n) (hn : n ≥ 2)
    (hc : Complete n es) : Matches R o (ofEntries n es) where
  version := ho.version.trans (ofEntries_version n es).symm
  contents f := by
    have hf : f ∈ o.writtenFields := ho.mem_writtenFields.2 fun _ => hn
    have hcontents := h.contents_ofEntries hc f
    rwa [if_pos (decide_eq_true hf)] at hcontents

/-- A version 0 output is read back as it was, up to the fields of the transaction. -/
theorem WrittenAs.matches_setupOutput (h : WrittenAs R o es) (ho : o.WellFormed 0)
    (hc : Complete 0 es) {txout : CTxOut} (hcache : o.Caches txout) :
    Matches R o (PSBT.setupOutput (ofEntries 0 es) txout) where
  version := ho.version.trans (ofEntries_version 0 es).symm
  contents f := by
    have hcontents := h.contents_ofEntries hc f
    by_cases hf : f.isV2
    · cases f
      case amount =>
        refine .of_eq ?_
        simp only [PartiallySignedOutput.contents, hcache.amount, PSBT.setupOutput]
        rfl
      case script =>
        refine .of_eq ?_
        simp only [PartiallySignedOutput.contents, hcache.script, PSBT.setupOutput]
        unfold listEntries
        split_ifs <;> rfl
      all_goals cases hf
    · have hmem : f ∈ o.writtenFields := ho.mem_writtenFields.2 fun h => absurd h hf
      rw [if_pos (decide_eq_true hmem)] at hcontents
      refine .trans (.of_eq ?_) hcontents
      cases f <;> first | rfl | exact absurd rfl hf

end PartiallySignedOutput

end Hwi
