import Hwi.Proofs.PsbtRead
import Hwi.Proofs.PsbtWrite

/-! Encode undoes decode: the maps written for the object a canonical PSBT is
read as hold the records that were read. -/

namespace Hwi

open RawMaps

/-! ### Entries after one round -/

namespace CTransaction

variable {t : CTransaction}

theorem hashed_valid {R : Runtime} (h : t.Valid) : (t.hashed R).Valid where
  nVersion := h.nVersion
  vin := h.vin
  vinSize := h.vinSize
  vout := h.vout
  voutSize := h.voutSize
  wit := h.wit
  witSize := h.witSize
  nLockTime := h.nLockTime

theorem fitWitness_all_isNull (h : t.Valid) : t.fitWitness.all CTxInWitness.isNull = t.witIsNull := by
  rw [fitWitness, List.take_of_length_le h.witSize, List.all_append, List.all_replicate]
  simp [witIsNull, CTxInWitness.isNull]

theorem asRead_witIsNull (h : t.Valid) : t.asRead.witIsNull = t.witIsNull := by
  by_cases hnull : t.witIsNull
  · have hempty : t.asRead.vtxinwit = [] := if_pos hnull
    rw [witIsNull, hempty, hnull]
    rfl
  · have hfit : t.asRead.vtxinwit = t.fitWitness := by simp [asRead, hnull]
    rw [witIsNull, hfit, fitWitness_all_isNull h]

theorem asRead_witnessBytes (h : t.Valid) : t.asRead.witnessBytes = t.witnessBytes := by
  rw [witnessBytes, witnessBytes, asRead_witIsNull h, (asRead_same t).2.2.2.1]
  rfl

end CTransaction

namespace InputEntry

variable {R : Runtime} {e : InputEntry}

theorem valid_stored (h : e.Valid) : (e.stored R).Valid := by
  cases e with
  | nonWitnessUtxo tx => exact ⟨CTransaction.hashed_valid (CTransaction.asRead_valid h.1), h.2⟩
  | _ => exact h

/-- Reading an entry and writing it again keeps its record. -/
theorem sameRecord_written_stored (h : e.Valid) :
    SameRecord 0x16 e.record ((e.stored R).written R).record := by
  cases e with
  | nonWitnessUtxo tx => exact ⟨rfl, Or.inl (CTransaction.asRead_witnessBytes h.1)⟩
  | tapBip32Path xonly leafHashes origin =>
    refine ⟨rfl, Or.inr ⟨rfl, leafHashes.elems, R.setOrder leafHashes.elems, origin.bytes, ?_⟩⟩
    exact ⟨(R.setOrder_perm _).symm, h.2.leafHash, rfl, rfl⟩
  | _ => exact ⟨rfl, Or.inl rfl⟩

/-- The type a valid entry's key starts with is the one of its field. -/
theorem ofType_head (h : e.Valid) {b : UInt8} (hb : e.key.head? = some b) (hlt : b < 253) :
    InputField.ofType b.toNat = e.field := by
  cases e
  case unknown key v =>
    obtain ⟨t, ht, hf⟩ := h
    cases key with
    | nil => cases hb
    | cons c rest =>
      obtain rfl : c = b := by simpa [key] using hb
      rw [runOn_type hlt] at ht
      cases ht
      exact hf
  all_goals
    simp only [key, List.head?_cons, Option.some.injEq] at hb
    subst hb
    rfl

theorem isSigning_of_range {b : UInt8}
    (h : (0x02 ≤ b ∧ b ≤ 0x06) ∨ (0x13 ≤ b ∧ b ≤ 0x18)) :
    (InputField.ofType b.toNat).isSigning = true := by
  have hcases : b.toNat ∈ [2, 3, 4, 5, 6, 0x13, 0x14, 0x15, 0x16, 0x17, 0x18] := by
    simp only [UInt8.le_iff_toNat_le] at h
    have hlits : (0x02 : UInt8).toNat = 2 ∧ (0x06 : UInt8).toNat = 6 ∧
      (0x13 : UInt8).toNat = 0x13 ∧ (0x18 : UInt8).toNat = 0x18 := by decide
    simp only [hlits] at h
    simp only [List.mem_cons, List.not_mem_nil, or_false]
    omega
  have hall : ∀ n ∈ [2, 3, 4, 5, 6, 0x13, 0x14, 0x15, 0x16, 0x17, 0x18],
      (InputField.ofType n).isSigning = true := by decide
  exact hall _ hcases

theorem isSigning_record (h : e.Valid) : RawMaps.isSigning e.record = e.field.isSigning := by
  cases e
  case unknown key v =>
    refine Bool.eq_false_iff.2 fun hs => ?_
    obtain ⟨b, hb, hrange⟩ := (Option.any_eq_true ..).1 hs
    have hrange' := of_decide_eq_true hrange
    have hlt : b < 253 := by
      rcases hrange' with hr | hr
      · exact UInt8.lt_of_le_of_lt hr.2 (by decide)
      · exact UInt8.lt_of_le_of_lt hr.2 (by decide)
    have hsigning := isSigning_of_range hrange'
    rw [ofType_head h hb hlt] at hsigning
    cases hsigning
  all_goals rfl

theorem key_eq_singleton (h : e.Valid) {b : UInt8} (hlt : b < 253) (hkey : e.key = [b]) :
    e.field = InputField.ofType b.toNat :=
  (ofType_head h (by rw [hkey]; rfl) hlt).symm

/-- Whether an entry makes its input final. -/
def isFinal (e : InputEntry) : Bool := e.field = .finalScriptSig ∨ e.field = .finalScriptWitness

theorem isFinal_iff_key (h : e.Valid) : e.isFinal = decide (e.key = [0x07] ∨ e.key = [0x08]) := by
  rw [isFinal, decide_eq_decide]
  constructor
  · intro hf
    cases e <;> first | exact Or.inl rfl | exact Or.inr rfl | simp [field] at hf
  · rintro (hkey | hkey)
    · exact Or.inl (key_eq_singleton h (by decide) hkey)
    · exact Or.inr (key_eq_singleton h (by decide) hkey)

/-- The entries of an input map that are written again. -/
def kept (es : List InputEntry) : List InputEntry :=
  if es.any isFinal then es.filter fun e => !e.field.isSigning else es

theorem kept_records {es : List InputEntry} (h : ∀ e ∈ es, e.Valid) :
    RawMaps.kept (es.map record) = (kept es).map record := by
  have hfinal : RawMaps.isFinal (es.map record) = es.any isFinal := by
    rw [RawMaps.isFinal, List.any_map, Bool.eq_iff_iff, List.any_eq_true, List.any_eq_true]
    refine exists_congr fun e => and_congr_right fun he => ?_
    rw [isFinal_iff_key (h e he)]
    rfl
  rw [RawMaps.kept, kept, hfinal]
  split_ifs
  · rw [List.filter_map]
    refine congrArg _ (List.filter_congr fun e he => ?_)
    exact congrArg _ (isSigning_record (h e he))
  · rfl

theorem mem_of_mem_kept {es : List InputEntry} (h : e ∈ kept es) : e ∈ es := by
  unfold kept at h
  split_ifs at h
  · exact (List.mem_filter.1 h).1
  · exact h

end InputEntry

namespace GlobalEntry

theorem valid_stored {e : GlobalEntry} (h : e.Valid) : e.stored.Valid := by
  cases e with
  | unsignedTx tx =>
    exact ⟨CTransaction.asRead_valid h.1, (CTransaction.asRead_witIsNull h.1).trans h.2.1, h.2.2⟩
  | _ => exact h

theorem record_stored (e : GlobalEntry) : e.stored.record = e.record := by cases e <;> rfl

end GlobalEntry

/-! ### Input maps -/

namespace PartiallySignedInput

variable {R : Runtime} {version : ℕ} {es : List InputEntry}

/-- An input is final exactly when it holds an entry that makes it so. -/
theorem isUnfinalised_eq (i : PartiallySignedInput) :
    i.isUnfinalised = !(store.held i).any InputEntry.isFinal := by
  have hsig : i.finalScriptSig = [] ↔ i.contents .finalScriptSig = [] := by
    rw [contents, listEntries]
    cases i.finalScriptSig <;> simp
  have hwit : i.finalScriptWitness.isNull = true ↔ i.contents .finalScriptWitness = [] := by
    rw [contents]
    split_ifs with h <;> simp [h]
  rw [Bool.eq_iff_iff, isUnfinalised, decide_eq_true_iff, List.length_eq_zero_iff, hsig, hwit,
    Bool.not_eq_true', List.any_eq_false]
  constructor
  · rintro ⟨hs, hw⟩ e he
    have hmem := store.mem_held.1 he
    simp only [InputEntry.isFinal, decide_eq_true_eq]
    rintro (hf | hf)
    · have hmem' : e ∈ i.contents e.field := hmem
      rw [hf, hs] at hmem'
      exact List.not_mem_nil hmem'
    · have hmem' : e ∈ i.contents e.field := hmem
      rw [hf, hw] at hmem'
      exact List.not_mem_nil hmem'
  · intro hnone
    have hempty (f : InputField) (hf : f = .finalScriptSig ∨ f = .finalScriptWitness) :
        i.contents f = [] := by
      refine List.eq_nil_iff_forall_not_mem.2 fun e he => ?_
      obtain rfl := field_of_mem_contents he
      exact hnone e (store.mem_held.2 he) (by simpa [InputEntry.isFinal] using hf)
    exact ⟨hempty _ (Or.inl rfl), hempty _ (Or.inr rfl)⟩

theorem Complete.isUnfinalised (h : Complete R version es) :
    (ofEntries R version es).isUnfinalised = !es.any InputEntry.isFinal := by
  rw [isUnfinalised_eq, (held_ofEntries h.canonical h.v0).any_eq, List.any_map]
  congr 2
  funext e
  simp [InputEntry.isFinal]

/-- An input writes the entries of this map that are written again. -/
def Rewrites (R : Runtime) (es : List InputEntry) (i : PartiallySignedInput) : Prop :=
  i.writtenEntries.Perm ((InputEntry.kept es).map (InputEntry.stored R))

theorem Complete.rewrites (h : Complete R version es) (hv : version = 0 ∨ 2 ≤ version) :
    Rewrites R es (ofEntries R version es) := by
  have hwritten : ∀ e ∈ es, (e.stored R).field ∈ (ofEntries R version es).writtenFields ↔
      (e.field.isSigning → es.any InputEntry.isFinal = false) := by
    intro e he
    rw [mem_writtenFields, InputEntry.field_stored, h.isUnfinalised, ofEntries_version,
      Bool.not_eq_true']
    refine and_iff_left fun hf => ?_
    have := h.v0 e he hf
    omega
  have hkept : (es.filter fun e => decide ((e.stored R).field ∈
      (ofEntries R version es).writtenFields)) = InputEntry.kept es := by
    rw [InputEntry.kept]
    split_ifs with hfinal
    · refine List.filter_congr fun e he => ?_
      rw [Bool.eq_iff_iff, decide_eq_true_iff, hwritten e he]
      simp [hfinal]
    · refine List.filter_eq_self.2 fun e he => ?_
      rw [decide_eq_true_iff, hwritten e he]
      exact fun _ => Bool.eq_false_iff.2 hfinal
  have hheld := (held_ofEntries (R := R) h.canonical h.v0).filter
    fun e => decide (e.field ∈ (ofEntries R version es).writtenFields)
  rw [List.filter_map] at hheld
  exact hheld.trans (List.Perm.of_eq (congrArg _ hkept))

/-- What version 0 fills in is not written. -/
theorem writtenEntries_setupInput {i : PartiallySignedInput} (hv : i.version = 0) (txin : CTxIn) :
    (PSBT.setupInput i txin).writtenEntries.Perm i.writtenEntries := by
  have hfields : (PSBT.setupInput i txin).writtenFields = i.writtenFields := rfl
  refine (store.flatMap_contents_perm _ (nodup_writtenFields _)).symm.trans ?_
  refine .trans ?_ (store.flatMap_contents_perm _ (nodup_writtenFields _))
  rw [hfields]
  refine List.Perm.of_eq (List.flatMap_congr fun f hf => ?_)
  have hv2 : f.isV2 ≠ true := fun h => by
    have := (mem_writtenFields.1 hf).2 h
    omega
  cases f <;> first | rfl | exact absurd rfl hv2

end PartiallySignedInput

/-! ### Output maps -/

namespace PartiallySignedOutput

variable {version : ℕ} {es : List OutputEntry}

def Rewrites (es : List OutputEntry) (o : PartiallySignedOutput) : Prop := o.writtenEntries.Perm es

theorem Complete.rewrites (h : Complete version es) (hv : version = 0 ∨ 2 ≤ version) :
    Rewrites es (ofEntries version es) := by
  have hfilter : (es.filter fun e => decide (e.field ∈ (ofEntries version es).writtenFields)) = es := by
    refine List.filter_eq_self.2 fun e he => ?_
    rw [decide_eq_true_iff, mem_writtenFields, ofEntries_version]
    intro hf
    have := h.v0 e he hf
    omega
  exact (h.held.filter _).trans (List.Perm.of_eq hfilter)

theorem writtenEntries_setupOutput {o : PartiallySignedOutput} (hv : o.version = 0) (txout : CTxOut) :
    (PSBT.setupOutput o txout).writtenEntries.Perm o.writtenEntries := by
  have hfields : (PSBT.setupOutput o txout).writtenFields = o.writtenFields := rfl
  refine (store.flatMap_contents_perm _ (nodup_writtenFields _)).symm.trans ?_
  refine .trans ?_ (store.flatMap_contents_perm _ (nodup_writtenFields _))
  rw [hfields]
  refine List.Perm.of_eq (List.flatMap_congr fun f hf => ?_)
  have hv2 : f.isV2 ≠ true := fun h => by
    have := mem_writtenFields.1 hf h
    omega
  cases f <;> first | rfl | exact absurd rfl hv2

theorem sameRecord_written (R : Runtime) {e : OutputEntry} (h : e.Valid) :
    SameRecord 0x07 e.record (e.written R).record := by
  cases e with
  | tapBip32Path xonly leafHashes origin =>
    refine ⟨rfl, Or.inr ⟨rfl, leafHashes.elems, R.setOrder leafHashes.elems, origin.bytes, ?_⟩⟩
    exact ⟨(R.setOrder_perm _).symm, h.2.leafHash, rfl, rfl⟩
  | _ => exact ⟨rfl, Or.inl rfl⟩

end PartiallySignedOutput

/-! ### The whole PSBT -/

namespace PSBT

/-- The global entries of a PSBT and of the object at the end of the global loop. -/
theorem globalEntries_eq_held {p : PSBT} {g : Global} (htx : p.tx = g.psbt.tx)
    (hxpub : p.xpub = g.psbt.xpub) (hunknown : p.unknown = g.psbt.unknown)
    (hversion : p.version = g.psbt.version)
    (h : p.version = 0 ∧ g.OkV0 ∧ p.explicitVersion = g.psbt.explicitVersion ∨
      2 ≤ p.version ∧ g.OkV2 ∧ g.psbt.explicitVersion = true ∧ p.txVersion = g.psbt.txVersion ∧ p.fallbackLocktime = g.psbt.fallbackLocktime ∧
      g.inputCount = some p.inputs.length ∧ g.outputCount = some p.outputs.length ∧
      p.txModifiable = g.psbt.txModifiable) :
    p.globalEntries = Global.store.held g := by
  have hheld : Global.store.held g = (GlobalField.all.map g.contents).flatten := rfl
  rw [hheld, globalEntries, globalSections, GlobalField.all]
  simp only [List.map_cons, List.map_nil, Global.contents]
  rcases h with ⟨h0, hok, hexplicit⟩ | ⟨h2, hok, hexp, htxv, hfallback, hin, hout, hmod⟩
  · have hnot2 : ¬p.version ≥ 2 := by omega
    have hversion' : g.psbt.version = 0 := hversion.symm.trans h0
    simp only [h0, hok.foundUnsignedTx, hok.txVersion, hok.fallbackLocktime, hok.inputCount,
      hok.outputCount, hok.txModifiable, hversion', hexplicit, htx, hxpub, hunknown]
    cases g.psbt.explicitVersion <;> rfl
  · have hne0 : ¬p.version = 0 := by omega
    have hpos : p.version > 0 := by omega
    simp only [hne0, hpos, h2, hok.foundUnsignedTx, hexp, ← htxv, ← hfallback, hin, hout, ← hmod,
      hxpub, hunknown, ← hversion, if_true, if_false, true_or]
    rfl

end PSBT

namespace PsbtMaps

variable {R : Runtime} {m : PsbtMaps} {version : ℕ}

/-- What the object read from canonical maps is, as far as writing it goes. -/
structure Rewritten (R : Runtime) (m : PsbtMaps) (p : PSBT) : Prop where
  globals : p.globalEntries.Perm (m.globals.map GlobalEntry.stored)
  txVersion : p.version ≥ 2 → p.txVersion ≠ none
  inputs : List.Forall₂ (PartiallySignedInput.Rewrites R) m.inputs p.inputs
  outputs : List.Forall₂ PartiallySignedOutput.Rewrites m.outputs p.outputs

theorem V0.cache_ok {tx : CTransaction} (h : m.Canonical R) (h0 : m.V0 R tx) :
    (m.object R 0).inputs.length = (m.object R 0).tx.vin.length ∧
      (m.object R 0).outputs.length = (m.object R 0).tx.vout.length ∧
        (m.object R 0).cacheUnsignedTxPieces = .ok (m.object R 0).filled := by
  have htx : (m.object R 0).tx = tx.asRead := (V0.unsignedTx_eq h h0).2
  have hin : (m.object R 0).inputs.length = (m.object R 0).tx.vin.length := by
    rw [htx, CTransaction.asRead_vin, ← h0.inputCount]
    exact List.length_map _
  have hout : (m.object R 0).outputs.length = (m.object R 0).tx.vout.length := by
    rw [htx, show tx.asRead.vout = tx.vout from rfl, ← h0.outputCount]
    exact List.length_map _
  exact ⟨hin, hout, PSBT.cacheUnsignedTxPieces_ok (V0.version_eq h h0) hin hout⟩

theorem V0.rewritten {tx : CTransaction} (h : m.Canonical R) (h0 : m.V0 R tx) :
    m.Rewritten R (m.object R 0).filled := by
  have hv := V0.version_eq h h0
  have hok := V0.ok h h0
  have hready := V0.ready h h0
  obtain ⟨hin, hout, -⟩ := V0.cache_ok h h0
  refine ⟨?_, ?_, ?_, ?_⟩
  · refine .trans (.of_eq ?_) h.held
    exact PSBT.globalEntries_eq_held rfl rfl rfl rfl (Or.inl ⟨hv, hok, rfl⟩)
  · intro hge
    exact Option.some_ne_none _
  · refine forall₂_zipWith (List.length_map _).symm hin fun i es psbtIn txin hes hpsbtIn htxin => ?_
    obtain rfl : .ofEntries R 0 es = psbtIn := by
      simpa [object, inputObjects, hes] using hpsbtIn
    exact (PartiallySignedInput.writtenEntries_setupInput
      (PartiallySignedInput.ofEntries_version R 0 es) txin).trans
      ((hready.inputs es (List.mem_of_getElem? hes)).rewrites (Or.inl rfl))
  · refine forall₂_zipWith (List.length_map _).symm hout fun i es psbtOut txout hes hpsbtOut htxout => ?_
    obtain rfl : .ofEntries 0 es = psbtOut := by
      simpa [object, outputObjects, hes] using hpsbtOut
    exact (PartiallySignedOutput.writtenEntries_setupOutput
      (PartiallySignedOutput.ofEntries_version 0 es) txout).trans
      ((hready.outputs es (List.mem_of_getElem? hes)).rewrites (Or.inl rfl))

theorem V2.cache_ok {n : ℕ} (h : m.Canonical R) (hn : 2 ≤ n) (h2 : m.V2 R n) :
    (m.object R n).cacheUnsignedTxPieces = .ok (m.object R n) := by
  have hversion : (m.object R n).version = n := (V2.version_eq h h2).2
  exact PSBT.cacheUnsignedTxPieces_of_ne (by omega)

theorem V2.rewritten {n : ℕ} (h : m.Canonical R) (hn : 2 ≤ n) (h2 : m.V2 R n) :
    m.Rewritten R (m.object R n) := by
  obtain ⟨hexp, hv⟩ := V2.version_eq h h2
  have hready := V2.ready h hn h2
  have hversion : (m.object R n).version = n := hv
  refine ⟨?_, ?_, ?_, ?_⟩
  · refine .trans (.of_eq ?_) h.held
    refine PSBT.globalEntries_eq_held rfl rfl rfl rfl
      (Or.inr ⟨by omega, V2.ok h h2, hexp, rfl, rfl, ?_, ?_, rfl⟩)
    · rw [V2.inputCount_eq h h2, object, inputObjects, List.length_map]
    · rw [V2.outputCount_eq h h2, object, outputObjects, List.length_map]
  · exact fun _ => (V2.ok h h2).txVersion
  · refine List.forall₂_map_right_iff.2 (List.forall₂_same.2 fun es hes => ?_)
    exact (hready.inputs es hes).rewrites (Or.inr hn)
  · refine List.forall₂_map_right_iff.2 (List.forall₂_same.2 fun es hes => ?_)
    exact (hready.outputs es hes).rewrites (Or.inr hn)

theorem Canonical.deserializeStream (h : m.Canonical R) : ∃ p, m.Rewritten R p ∧
    ∀ rest, PSBT.deserializeStream R {} (m.raw.bytes ++ rest) = .ok p rest := by
  obtain ⟨tx, h0⟩ | ⟨n, hn, h2⟩ := h.version
  · exact ⟨_, V0.rewritten h h0, (V0.ready h h0).deserializeStream h (V0.cache_ok h h0).2.2⟩
  · exact ⟨_, V2.rewritten h hn h2, (V2.ready h hn h2).deserializeStream h (V2.cache_ok h hn h2)⟩

theorem Rewritten.writable {p : PSBT} (h : m.Canonical R) (hre : m.Rewritten R p) : p.Writable where
  globals := by
    refine ⟨fun e he => ?_, hre.txVersion⟩
    obtain ⟨a, ha, rfl⟩ := List.mem_map.1 (hre.globals.mem_iff.1 he)
    exact GlobalEntry.valid_stored (h.globals.valid a ha)
  inputs psbtIn hin e he := by
    obtain ⟨es, hes, hperm⟩ := exists_of_forall₂_right hre.inputs hin
    obtain ⟨a, ha, rfl⟩ := List.mem_map.1 (hperm.mem_iff.1 he)
    exact InputEntry.valid_stored ((h.inputs es hes).valid a (InputEntry.mem_of_mem_kept ha))
  outputs psbtOut hout e he := by
    obtain ⟨es, hes, hperm⟩ := exists_of_forall₂_right hre.outputs hout
    exact (h.outputs es hes).valid e (hperm.mem_iff.1 he)

/-- The maps written for the object have the records that were read. -/
theorem Rewritten.sameRecords {p : PSBT} (h : m.Canonical R) (hre : m.Rewritten R p) {raw : RawMaps}
    (hw : PSBT.Written R p raw) : m.raw.SameRecords raw where
  globals := by
    refine .symm (hw.globals.trans ((hre.globals.map _).trans (.of_eq ?_)))
    rw [List.map_map]
    exact List.map_congr_left fun e _ => GlobalEntry.record_stored e
  inputs := by
    refine List.forall₂_map_left_iff.2 (forall₂_trans ?_ hre.inputs hw.inputs)
    intro es hes psbtIn rs hre hrs
    have hvalid := (h.inputs es hes).valid
    refine ⟨_, ((hrs.trans (hre.map _)).symm), ?_⟩
    rw [InputEntry.kept_records hvalid, List.map_map, List.forall₂_map_left_iff,
      List.forall₂_map_right_iff, List.forall₂_same]
    exact fun e he => InputEntry.sameRecord_written_stored (hvalid e (InputEntry.mem_of_mem_kept he))
  outputs := by
    refine List.forall₂_map_left_iff.2 (forall₂_trans ?_ hre.outputs hw.outputs)
    intro es hes psbtOut rs hre hrs
    refine ⟨_, ((hrs.trans (hre.map _)).symm), ?_⟩
    rw [List.forall₂_map_left_iff, List.forall₂_map_right_iff, List.forall₂_same]
    exact fun e he => PartiallySignedOutput.sameRecord_written R ((h.outputs es hes).valid e he)

end PsbtMaps

/-- Every canonical PSBT is accepted, and what is written for it has the records
of its maps. -/
theorem PSBT.deserialize_serialize_of_canonical {R : Runtime} {raw : RawMaps} (h : raw.Canonical R)
    {psbt : Str} (hs : b64decode (strip psbt) = .ok raw.bytes) : ∃ p out raw',
      PSBT.deserialize R {} psbt = .ok p ∧ p.serialize R = .ok out ∧
        b64decode (strip out) = .ok raw'.bytes ∧ raw.SameRecords raw' := by
  obtain ⟨m, hm, rfl⟩ := h
  obtain ⟨p, hre, hread⟩ := hm.deserializeStream
  obtain ⟨raw', hbytes, hwritten⟩ := PSBT.serializeBytes_ok (R := R) (hre.writable hm)
  have hstream := hread []
  rw [List.append_nil] at hstream
  refine ⟨p, b64encode raw'.bytes, raw', ?_, ?_, b64decode_strip_encode _, hre.sameRecords hm hwritten⟩
  · rw [PSBT.deserialize, hs, ok_bind, runOn, hstream]
  · rw [PSBT.serialize, hbytes]
    rfl

/-- A version 2 PSBT with a final input. -/
def finalMaps : PsbtMaps where
  globals := [.txVersion 2, .inputCount 1, .outputCount 1, .version 2]
  inputs := [[.redeemScript [0x51], .prevTxid (List.replicate 32 0), .prevOut 1,
    .finalScriptSig [0x01, 0x51]]]
  outputs := [[.amount 1000, .script [0x51]]]

theorem finalMaps_canonical : finalMaps.Canonical Runtime.zeros where
  globals := ⟨by simp [finalMaps, GlobalEntry.Valid], by decide, by decide⟩
  inputs := List.forall_mem_singleton.2 ⟨by simp [InputEntry.Valid], by decide, by decide⟩
  outputs := List.forall_mem_singleton.2 ⟨by simp [OutputEntry.Valid, SignedFits], by decide, by decide⟩
  version := by
    refine Or.inr ⟨2, le_refl 2, by simp [finalMaps], by simp [finalMaps], ⟨2, by simp [finalMaps]⟩,
      by simp [finalMaps], by simp [finalMaps], List.forall_mem_singleton.2 ⟨?_, ?_⟩,
      List.forall_mem_singleton.2 ⟨?_, ?_⟩⟩
    · exact ⟨List.replicate 32 0, by simp, by simp⟩
    · exact ⟨1, by simp⟩
    · exact ⟨1000, by simp⟩
    · exact ⟨[0x51], by simp⟩

theorem PSBT.deserialize_serialize_finalMaps : ∃ p out raw',
    PSBT.deserialize Runtime.zeros {} (b64encode finalMaps.raw.bytes) = .ok p ∧
      p.serialize Runtime.zeros = .ok out ∧ b64decode (strip out) = .ok raw'.bytes ∧
        finalMaps.raw.SameRecords raw' :=
  PSBT.deserialize_serialize_of_canonical ⟨finalMaps, finalMaps_canonical, rfl⟩
    (b64decode_strip_encode _)

end Hwi
