import Hwi.Proofs.Matches

/-! Decode undoes encode: the PSBT read from what is written for a well-formed
PSBT is the same. -/

namespace Hwi

namespace PSBT

/-- The state of the global loop that holds what a PSBT writes. -/
def asGlobal (p : PSBT) : Global where
  psbt := { p with
    txVersion := if p.version = 0 then none else p.txVersion
    fallbackLocktime := if p.version = 0 then none else p.fallbackLocktime
    txModifiable := if p.version = 0 then none else p.txModifiable
    explicitVersion := p.explicitVersion || decide (p.version > 0) }
  inputCount := if p.version = 0 then none else some p.inputs.length
  outputCount := if p.version = 0 then none else some p.outputs.length
  foundUnsignedTx := decide (p.version = 0)


variable {R : Runtime} {p : PSBT}

theorem WellFormed.globalEntries_eq (h : p.WellFormed R) :
    p.globalEntries = Global.store.held p.asGlobal := by
  refine globalEntries_eq_held rfl rfl rfl rfl ?_
  rcases h.version with ⟨h0, hv0⟩ | ⟨hn, hv2⟩
  · refine Or.inl ⟨h0, ⟨?_, ?_, ?_, ?_, ?_, ?_⟩, ?_⟩ <;> simp [asGlobal, h0]
  · have hne : p.version ≠ 0 := by omega
    have hpos : 0 < p.version := by omega
    refine Or.inr ⟨hn, ⟨?_, ?_, ?_, ?_⟩, ?_, ?_, ?_, ?_, ?_, ?_⟩ <;>
      simp [asGlobal, hne, hpos, hv2.txVersion]

theorem Global.nodup_contents (g : Global) (f : GlobalField) :
    ((g.contents f).map GlobalEntry.key).Nodup := by
  cases f <;> simp only [Global.contents]
  case unsignedTx | version => split_ifs <;> simp
  case xpub => exact nodup_dictEntries _ (fun _ _ => rfl) fun _ _ _ _ _ _ heq => List.tail_eq_of_cons_eq heq
  case unknown => exact nodup_dictEntries _ (fun _ _ => rfl) fun _ _ _ _ _ _ heq => heq
  all_goals exact nodup_optionEntries _

theorem WellFormed.nodup_globalEntries (h : p.WellFormed R) :
    (p.globalEntries.map GlobalEntry.key).Nodup := by
  have hvalid (f : GlobalField) (e : GlobalEntry) (he : e ∈ p.asGlobal.contents f) : e.Valid := by
    refine h.valid e ?_
    rw [h.globalEntries_eq]
    exact List.mem_flatMap.2 ⟨f, Global.store.mem_fields f, he⟩
  rw [h.globalEntries_eq]
  refine nodup_flatMap_keys Global.store.nodup_fields (Global.nodup_contents _)
    fun f g a ha b hb hkey => ?_
  have hfield := GlobalEntry.field_of_key (hvalid f a ha) (hvalid g b hb) hkey
  rwa [Global.field_of_mem_contents ha, Global.field_of_mem_contents hb] at hfield

theorem WellFormed.writable (h : p.WellFormed R) : p.Writable where
  globals := by
    refine ⟨h.valid, fun hn => ?_⟩
    rcases h.version with ⟨h0, -⟩ | ⟨-, hv2⟩
    · omega
    · exact hv2.txVersion
  inputs i hi e he :=
    (h.inputs i hi).valid _ e (PartiallySignedInput.mem_writtenEntries.1 he).1
  outputs o ho e he :=
    (h.outputs o ho).valid _ e (PartiallySignedOutput.mem_writtenEntries.1 he).1

/-- The maps written for a PSBT as entries. -/
structure WrittenAs (R : Runtime) (p : PSBT) (m : PsbtMaps) : Prop where
  globals : m.globals.Perm p.globalEntries
  inputs : List.Forall₂ (PartiallySignedInput.WrittenAs R) p.inputs m.inputs
  outputs : List.Forall₂ (PartiallySignedOutput.WrittenAs R) p.outputs m.outputs

theorem Written.exists_maps {raw : RawMaps} (h : Written R p raw) :
    ∃ m : PsbtMaps, WrittenAs R p m ∧ m.raw = raw := by
  obtain ⟨globals, hglobals, hgraw⟩ := exists_perm_of_perm_map h.globals
  obtain ⟨inputs, hinputs, hiraw⟩ := exists_forall₂_map (q := PartiallySignedInput.WrittenAs R)
    (f := List.map InputEntry.record) (fun i rs hrs => by
      rw [← Function.comp_def InputEntry.record, ← List.map_map] at hrs
      exact exists_perm_of_perm_map hrs) h.inputs
  obtain ⟨outputs, houtputs, horaw⟩ := exists_forall₂_map (q := PartiallySignedOutput.WrittenAs R)
    (f := List.map OutputEntry.record) (fun o rs hrs => by
      rw [← Function.comp_def OutputEntry.record, ← List.map_map] at hrs
      exact exists_perm_of_perm_map hrs) h.outputs
  refine ⟨⟨globals, inputs, outputs⟩, ⟨hglobals, hinputs, houtputs⟩, ?_⟩
  rw [PsbtMaps.raw, hgraw, hiraw, horaw]

theorem WellFormed.complete_input (hp : p.WellFormed R) {i : PartiallySignedInput}
    {es : List InputEntry} (hi : i ∈ p.inputs) (hw : i.WrittenAs R es) :
    PartiallySignedInput.Complete R p.version es := by
  refine hw.complete (hp.inputs i hi) fun hn => ?_
  rcases hp.version with ⟨h0, -⟩ | ⟨-, hv2⟩
  · omega
  · exact hv2.inputs i hi

theorem WellFormed.complete_output (hp : p.WellFormed R) {o : PartiallySignedOutput}
    {es : List OutputEntry} (ho : o ∈ p.outputs) (hw : o.WrittenAs R es) :
    PartiallySignedOutput.Complete p.version es := by
  refine hw.complete (hp.outputs o ho) fun hn => ?_
  rcases hp.version with ⟨h0, -⟩ | ⟨-, hv2⟩
  · omega
  · exact hv2.outputs o ho

section Maps

variable {m : PsbtMaps}

theorem WrittenAs.mem_globals (h : WrittenAs R p m) (hp : p.WellFormed R) {e : GlobalEntry} :
    e ∈ m.globals ↔ e ∈ Global.store.held p.asGlobal := by
  rw [h.globals.mem_iff, hp.globalEntries_eq]

theorem WrittenAs.v0 (h : WrittenAs R p m) (hp : p.WellFormed R) (h0 : p.version = 0)
    (hv0 : p.WellFormedV0 R) : m.V0 R p.tx where
  unsignedTx := (h.mem_globals hp).2 (Global.unsignedTx_mem_held.2 ⟨by simp [asGlobal, h0], rfl⟩)
  version n hn := (Global.version_mem_held.1 ((h.mem_globals hp).1 hn)).2.symm.trans h0
  globals e he := by
    have hheld := (h.mem_globals hp).1 he
    cases e with
    | txVersion n => simp [asGlobal, h0, Global.txVersion_mem_held] at hheld
    | fallbackLocktime n => simp [asGlobal, h0, Global.fallbackLocktime_mem_held] at hheld
    | inputCount n => simp [asGlobal, h0, Global.inputCount_mem_held] at hheld
    | outputCount n => simp [asGlobal, h0, Global.outputCount_mem_held] at hheld
    | txModifiable n => simp [asGlobal, h0, Global.txModifiable_mem_held] at hheld
    | _ => simp [GlobalEntry.field]
  inputs es hes e he := by
    obtain ⟨i, hi, hw⟩ := exists_of_forall₂_right h.inputs hes
    refine Bool.eq_false_iff.2 fun hf => (hp.complete_input hi hw).v0 e he hf h0
  outputs es hes e he := by
    obtain ⟨o, ho, hw⟩ := exists_of_forall₂_right h.outputs hes
    refine Bool.eq_false_iff.2 fun hf => (hp.complete_output ho hw).v0 e he hf h0
  inputCount := h.inputs.length_eq.symm.trans hv0.inputs.length_eq
  outputCount := h.outputs.length_eq.symm.trans hv0.outputs.length_eq
  txid i es txin hes htxin utxo hutxo := by
    have hlt : i < p.inputs.length := by
      rw [h.inputs.length_eq]
      exact (List.getElem?_eq_some_iff.1 hes).1
    have hin : p.inputs[i]? = some p.inputs[i] := List.getElem?_eq_getElem hlt
    have hcache := forall₂_getElem? hv0.inputs hin htxin
    rw [hcache.txid utxo ((forall₂_getElem? h.inputs hin hes).nonWitnessUtxo hutxo), hcache.prevTxid]

theorem WrittenAs.v2 (h : WrittenAs R p m) (hp : p.WellFormed R) (hn : 2 ≤ p.version)
    (hv2 : p.WellFormedV2 R) : m.V2 R p.version := by
  have hne : p.version ≠ 0 := by omega
  have hpos : 0 < p.version := by omega
  have hin := h.inputs.length_eq
  have hout := h.outputs.length_eq
  refine ⟨?_, fun tx htx => ?_, ?_, ?_, ?_, fun es hes => ?_, fun es hes => ?_⟩
  · exact (h.mem_globals hp).2 (Global.version_mem_held.2 ⟨by simp [asGlobal, hpos], rfl⟩)
  · have hfound := (Global.unsignedTx_mem_held.1 ((h.mem_globals hp).1 htx)).1
    simp [asGlobal, hne] at hfound
  · obtain ⟨n, hn⟩ := Option.ne_none_iff_exists'.1 hv2.txVersion
    exact ⟨n, (h.mem_globals hp).2 (Global.txVersion_mem_held.2 (by simp [asGlobal, hne, hn]))⟩
  · exact (h.mem_globals hp).2 (Global.inputCount_mem_held.2 (by simp [asGlobal, hne, hin]))
  · exact (h.mem_globals hp).2 (Global.outputCount_mem_held.2 (by simp [asGlobal, hne, hout]))
  · obtain ⟨i, hi, hw⟩ := exists_of_forall₂_right h.inputs hes
    have hc := hp.complete_input hi hw
    obtain ⟨txid, htxid⟩ := hc.prevTxid hn
    refine ⟨⟨txid, htxid, fun utxo hutxo => ?_⟩, hc.prevOut hn⟩
    rw [(hv2.inputs i hi).txid utxo (hw.nonWitnessUtxo hutxo)]
    exact hw.prevTxid htxid
  · obtain ⟨o, ho, hw⟩ := exists_of_forall₂_right h.outputs hes
    have hc := hp.complete_output ho hw
    exact ⟨hc.amount hn, hc.script hn⟩

theorem WrittenAs.canonical (h : WrittenAs R p m) (hp : p.WellFormed R) : m.Canonical R where
  globals := by
    refine ⟨fun e he => hp.valid e (h.globals.mem_iff.1 he),
      fun e he => hp.fits e (h.globals.mem_iff.1 he), ?_⟩
    exact (h.globals.map GlobalEntry.key).nodup_iff.2 hp.nodup_globalEntries
  inputs es hes := by
    obtain ⟨i, hi, hw⟩ := exists_of_forall₂_right h.inputs hes
    exact hw.canonical (hp.inputs i hi)
  outputs es hes := by
    obtain ⟨o, ho, hw⟩ := exists_of_forall₂_right h.outputs hes
    exact hw.canonical (hp.outputs o ho)
  version := by
    rcases hp.version with ⟨h0, hv0⟩ | ⟨hn, hv2⟩
    · exact Or.inl ⟨p.tx, h.v0 hp h0 hv0⟩
    · exact Or.inr ⟨p.version, hn, h.v2 hp hn hv2⟩

/-- What the global object read from the map has in each field. -/
theorem WrittenAs.globalContents (h : WrittenAs R p m) (hp : p.WellFormed R) (f : GlobalField) :
    (m.globalObject.contents f).Perm ((p.asGlobal.contents f).map GlobalEntry.stored) := by
  refine Global.store.contents_perm_of_held (q := fun _ => true) GlobalEntry.field_stored ?_ f
  refine ((h.canonical hp).held.trans (h.globals.map _)).trans (.of_eq ?_)
  rw [hp.globalEntries_eq, List.filter_eq_self.2 fun _ _ => rfl]

theorem WrittenAs.explicitVersion_eq (h : WrittenAs R p m) (hp : p.WellFormed R) :
    m.globalObject.psbt.explicitVersion = (p.explicitVersion || decide (p.version > 0)) := by
  have hlen := (h.globalContents hp .version).length_eq
  simp only [Global.contents, List.length_map] at hlen
  have heq : m.globalObject.psbt.explicitVersion = p.asGlobal.psbt.explicitVersion := by
    cases hg : m.globalObject.psbt.explicitVersion <;> cases ha : p.asGlobal.psbt.explicitVersion <;>
      simp [hg, ha] at hlen ⊢
  exact heq

theorem WrittenAs.xpub_same (h : WrittenAs R p m) (hp : p.WellFormed R) :
    p.xpub.Same m.globalObject.psbt.xpub :=
  (rel_of_dictEntries _ (h.globalContents hp .xpub) fun _ _ _ _ heq => by cases heq; simp).same

theorem WrittenAs.unknown_same (h : WrittenAs R p m) (hp : p.WellFormed R) :
    p.unknown.Same m.globalObject.psbt.unknown :=
  (rel_of_dictEntries _ (h.globalContents hp .unknown) fun _ _ _ _ heq => by cases heq; simp).same

/-- The lock time of inputs with the same lock times. -/
theorem computeLockTimeLoop_congr {l l' : List PartiallySignedInput}
    (h : List.Forall₂ (fun a b => a.timeLocktime = b.timeLocktime ∧
      a.heightLocktime = b.heightLocktime) l l') (t ht : Option ℕ) :
    computeLockTimeLoop l t ht = computeLockTimeLoop l' t ht := by
  induction h generalizing t ht with
  | nil => rfl
  | cons hab _ ih =>
    rw [computeLockTimeLoop, computeLockTimeLoop, hab.1, hab.2]
    simp only [ih]

/-- PSBTs of version 2 with the same fields describe the same transaction. -/
theorem getUnsignedTx_congr {a b : PSBT} (ha : a.version ≠ 0) (hversion : a.version = b.version)
    (htx : a.txVersion = b.txVersion) (hfallback : a.fallbackLocktime = b.fallbackLocktime)
    (hin : List.Forall₂ PartiallySignedInput.Same a.inputs b.inputs)
    (hout : List.Forall₂ PartiallySignedOutput.Same a.outputs b.outputs) :
    a.getUnsignedTx R = b.getUnsignedTx R := by
  have hlock : a.computeLockTime = b.computeLockTime := by
    rw [computeLockTime, computeLockTime, hfallback]
    rw [computeLockTimeLoop_congr (hin.imp fun _ _ h => ⟨h.timeLocktime, h.heightLocktime⟩)]
  have hvin : a.inputs.mapM unsignedTxIn = b.inputs.mapM unsignedTxIn :=
    mapM_congr_forall₂ (hin.imp fun _ _ h => by
      rw [unsignedTxIn, unsignedTxIn, h.prevOut, h.prevTxid, h.sequence])
  have hvout : a.outputs.mapM unsignedTxOut = b.outputs.mapM unsignedTxOut :=
    mapM_congr_forall₂ (hout.imp fun _ _ h => by
      rw [unsignedTxOut, unsignedTxOut, h.amount, h.script])
  rw [getUnsignedTx, getUnsignedTx, if_neg ha, if_neg (hversion ▸ ha), htx, hlock, hvin, hvout]

theorem WrittenAs.same_v0 (h : WrittenAs R p m) (hp : p.WellFormed R) (h0 : p.version = 0)
    (hv0 : p.WellFormedV0 R) : p.Same R (m.object R 0).filled := by
  have hm := h.canonical hp
  have hmv0 := h.v0 hp h0 hv0
  obtain ⟨hin, hout, -⟩ := PsbtMaps.V0.cache_ok hm hmv0
  have htx : (m.object R 0).tx = p.tx.asRead := (PsbtMaps.V0.unsignedTx_eq hm hmv0).2
  have hversion : (m.object R 0).version = 0 := PsbtMaps.V0.version_eq hm hmv0
  have hsame : p.tx.Same (m.object R 0).filled.tx := by
    have hvalid : GlobalEntry.Valid (.unsignedTx p.tx) :=
      hp.valid _ (h.globals.mem_iff.1 hmv0.unsignedTx)
    rw [show (m.object R 0).filled.tx = p.tx.asRead from htx]
    exact CTransaction.asRead_same _
  have hinputs : List.Forall₂ PartiallySignedInput.Same p.inputs (m.object R 0).filled.inputs := by
    have hlen : p.inputs.length = (m.object R 0).inputs.length := by
      rw [h.inputs.length_eq]
      exact (List.length_map _).symm
    refine forall₂_zipWith hlen hin fun i psbtIn psbtIn' txin hpi hoi hti => ?_
    obtain ⟨es, hes, rfl⟩ : ∃ es, m.inputs[i]? = some es ∧ .ofEntries R 0 es = psbtIn' := by
      simpa [PsbtMaps.object, PsbtMaps.inputObjects] using hoi
    have hmem := List.mem_of_getElem? hpi
    have hw := forall₂_getElem? h.inputs hpi hes
    have hwf : psbtIn.WellFormed 0 := h0 ▸ hp.inputs _ hmem
    have hc : PartiallySignedInput.Complete R 0 es := h0 ▸ hp.complete_input hmem hw
    rw [htx, CTransaction.asRead_vin] at hti
    exact (hw.matches_setupInput hwf hc (forall₂_getElem? hv0.inputs hpi hti)).same hwf
  have houtputs : List.Forall₂ PartiallySignedOutput.Same p.outputs (m.object R 0).filled.outputs := by
    have hlen : p.outputs.length = (m.object R 0).outputs.length := by
      rw [h.outputs.length_eq]
      exact (List.length_map _).symm
    refine forall₂_zipWith hlen hout fun i psbtOut psbtOut' txout hpi hoi hti => ?_
    obtain ⟨es, hes, rfl⟩ : ∃ es, m.outputs[i]? = some es ∧ .ofEntries 0 es = psbtOut' := by
      simpa [PsbtMaps.object, PsbtMaps.outputObjects] using hoi
    have hmem := List.mem_of_getElem? hpi
    have hw := forall₂_getElem? h.outputs hpi hes
    have hwf : psbtOut.WellFormed 0 := h0 ▸ hp.outputs _ hmem
    have hc : PartiallySignedOutput.Complete 0 es := h0 ▸ hp.complete_output hmem hw
    rw [htx] at hti
    exact (hw.matches_setupOutput hwf hc (forall₂_getElem? hv0.outputs hpi hti)).same
  exact {
    version := h0.trans hversion.symm
    tx := fun _ => hsame
    unsignedTx := fun tx hget => by
      rw [getUnsignedTx, if_pos h0] at hget
      cases hget
      exact ⟨_, if_pos hversion, hsame⟩
    inputs := hinputs
    outputs := houtputs
    unknown := h.unknown_same hp
    xpub := h.xpub_same hp
    txVersion := by
      rw [hv0.txVersion, show (m.object R 0).filled.txVersion = some (m.object R 0).tx.nVersion from rfl,
        htx]
      rfl
    fallbackLocktime := by
      rw [hv0.fallbackLocktime,
        show (m.object R 0).filled.fallbackLocktime = some (m.object R 0).tx.nLockTime from rfl, htx]
      rfl
    txModifiable := hv0.txModifiable.trans (PsbtMaps.V0.ok hm hmv0).txModifiable.symm
    explicitVersion := h.explicitVersion_eq hp }

theorem WrittenAs.same_v2 (h : WrittenAs R p m) (hp : p.WellFormed R) (hn : 2 ≤ p.version)
    (hv2 : p.WellFormedV2 R) : p.Same R (m.object R p.version) := by
  have hm := h.canonical hp
  have hmv2 := h.v2 hp hn hv2
  have hne : p.version ≠ 0 := by omega
  have hversion : p.version = (m.object R p.version).version := (PsbtMaps.V2.version_eq hm hmv2).2.symm
  have hinputs : List.Forall₂ PartiallySignedInput.Same p.inputs (m.object R p.version).inputs := by
    refine List.forall₂_map_right_iff.2 ((forall₂_and_mem h.inputs).imp fun psbtIn es ⟨hw, hmem⟩ => ?_)
    have hc := hp.complete_input hmem hw
    exact (hw.matches_ofEntries (hp.inputs _ hmem) hn hc).same (hp.inputs _ hmem)
  have houtputs : List.Forall₂ PartiallySignedOutput.Same p.outputs (m.object R p.version).outputs := by
    refine List.forall₂_map_right_iff.2 ((forall₂_and_mem h.outputs).imp fun psbtOut es ⟨hw, hmem⟩ => ?_)
    have hc := hp.complete_output hmem hw
    exact (hw.matches_ofEntries (hp.outputs _ hmem) hn hc).same
  have htxVersion : p.txVersion = (m.object R p.version).txVersion := by
    have hcontents := h.globalContents hp .txVersion
    simp only [Global.contents, asGlobal, hne, if_false] at hcontents
    exact eq_of_optionEntries hcontents fun _ _ heq => by cases heq; rfl
  have hfallback : p.fallbackLocktime = (m.object R p.version).fallbackLocktime := by
    have hcontents := h.globalContents hp .fallbackLocktime
    simp only [Global.contents, asGlobal, hne, if_false] at hcontents
    exact eq_of_optionEntries hcontents fun _ _ heq => by cases heq; rfl
  have htxModifiable : p.txModifiable = (m.object R p.version).txModifiable := by
    have hcontents := h.globalContents hp .txModifiable
    simp only [Global.contents, asGlobal, hne, if_false] at hcontents
    exact eq_of_optionEntries hcontents fun _ _ heq => by cases heq; rfl
  exact {
    version := hversion
    tx := fun h0 => absurd h0 hne
    unsignedTx := fun tx hget => by
      refine ⟨tx, ?_, rfl, rfl, rfl, rfl, rfl⟩
      rwa [← getUnsignedTx_congr hne hversion htxVersion hfallback hinputs houtputs]
    inputs := hinputs
    outputs := houtputs
    unknown := h.unknown_same hp
    xpub := h.xpub_same hp
    txVersion := htxVersion
    fallbackLocktime := hfallback
    txModifiable := htxModifiable
    explicitVersion := h.explicitVersion_eq hp }

end Maps

/-- What is written for a well-formed PSBT is read back as the same PSBT. -/
theorem serialize_deserialize_of_wellFormed (h : p.WellFormed R) : ∃ s p',
    p.serialize R = .ok s ∧ deserialize R {} s = .ok p' ∧ p.Same R p' := by
  obtain ⟨raw, hbytes, hwritten⟩ := serializeBytes_ok (R := R) h.writable
  obtain ⟨m, hm, rfl⟩ := hwritten.exists_maps
  have hcanonical := hm.canonical h
  have hserialize : p.serialize R = .ok (b64encode m.raw.bytes) := by
    rw [serialize, hbytes]
    rfl
  have hdeserialize {p' : PSBT} (hread : deserializeStream R {} (m.raw.bytes ++ []) = .ok p' []) :
      deserialize R {} (b64encode m.raw.bytes) = .ok p' := by
    rw [List.append_nil] at hread
    rw [deserialize, b64decode_strip_encode, ok_bind, runOn, hread]
  rcases h.version with ⟨h0, hv0⟩ | ⟨hn, hv2⟩
  · have hmv0 := hm.v0 h h0 hv0
    refine ⟨_, _, hserialize, hdeserialize ?_, hm.same_v0 h h0 hv0⟩
    exact (PsbtMaps.V0.ready hcanonical hmv0).deserializeStream hcanonical
      (PsbtMaps.V0.cache_ok hcanonical hmv0).2.2 []
  · have hmv2 := hm.v2 h hn hv2
    refine ⟨_, _, hserialize, hdeserialize ?_, hm.same_v2 h hn hv2⟩
    exact (PsbtMaps.V2.ready hcanonical hn hmv2).deserializeStream hcanonical
      (PsbtMaps.V2.cache_ok hcanonical hn hmv2) []

/-- A version 0 PSBT with one input and one output. -/
def sample : PSBT where
  tx := {
    nVersion := 2
    vin := [{ prevout := { hash := 7, n := 1 }, nSequence := 5 }]
    vout := [{ nValue := 1000, scriptPubKey := [0x51] }] }
  inputs := [{
    prevTxid := serUint256 7
    prevOut := some 1
    sequence := some 5
    sighash := some 1
    redeemScript := [0x51]
    version := 0 }]
  outputs := [{ amount := some 1000, script := [0x51], witnessScript := [0x52], version := 0 }]
  txVersion := some 2
  fallbackLocktime := some 0

theorem sample_wellFormed : sample.WellFormed Runtime.zeros where
  valid := by
    have hglobals : sample.globalEntries = [.unsignedTx sample.tx] := rfl
    rw [hglobals, List.forall_mem_singleton]
    refine ⟨⟨by decide, ?_, by decide, ?_, by decide, by simp [sample], by decide, by decide⟩, rfl, ?_⟩
    · exact List.forall_mem_singleton.2 ⟨⟨by decide, by decide⟩, by decide, by decide⟩
    · exact List.forall_mem_singleton.2 ⟨by decide, by decide⟩
    · simp [sample]
  fits := by decide
  inputs := by
    refine List.forall_mem_singleton.2 ⟨rfl, fun f => ?_, fun f => ?_, by decide, by decide, by decide⟩
    · cases f <;> simp [PartiallySignedInput.contents, optionEntries, listEntries, dictEntries,
        Dict.pairs, InputEntry.Valid, CTxInWitness.isNull]
    · cases f <;> decide
  outputs := by
    refine List.forall_mem_singleton.2 ⟨rfl, fun f => ?_, fun f => ?_⟩
    · cases f <;> simp [PartiallySignedOutput.contents, optionEntries, listEntries, dictEntries,
        OutputEntry.Valid, SignedFits]
    · cases f <;> decide
  version := Or.inl ⟨rfl, rfl, rfl, rfl, .cons ⟨rfl, rfl, rfl, rfl, rfl, by simp⟩ .nil,
    .cons ⟨rfl, rfl⟩ .nil⟩

theorem serialize_deserialize_sample : ∃ s p', sample.serialize Runtime.zeros = .ok s ∧
    deserialize Runtime.zeros {} s = .ok p' ∧ sample.Same Runtime.zeros p' :=
  serialize_deserialize_of_wellFormed sample_wellFormed

end PSBT

end Hwi
