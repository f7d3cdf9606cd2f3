import Hwi.Proofs.Psbt

/-! Reading canonical maps: the object `deserialize` returns for them. -/

namespace Hwi

open Reader

namespace PsbtMaps

variable {R : Runtime} {m : PsbtMaps}

def inputObjects (R : Runtime) (m : PsbtMaps) (version : ℕ) : List PartiallySignedInput :=
  m.inputs.map (PartiallySignedInput.ofEntries R version)

def outputObjects (m : PsbtMaps) (version : ℕ) : List PartiallySignedOutput :=
  m.outputs.map (PartiallySignedOutput.ofEntries version)

def globalObject (m : PsbtMaps) : PSBT.Global := PSBT.Global.ofEntries m.globals

/-! ### The global map -/

theorem Canonical.addable (h : m.Canonical R) :
    (PSBT.Global.format R).Addable { psbt := {} } m.globals where
  valid := h.globals.valid
  nodup := h.globals.nodup
  fresh _ _ _ ha := absurd ha List.not_mem_nil

theorem Canonical.held (h : m.Canonical R) :
    (PSBT.Global.store.held m.globalObject).Perm (m.globals.map GlobalEntry.stored) :=
  h.addable.held.trans (List.Perm.of_eq (List.append_nil _))

theorem Canonical.mem_held (h : m.Canonical R) {e : GlobalEntry} (hf : e.field ≠ .unsignedTx) :
    e ∈ PSBT.Global.store.held m.globalObject ↔ e ∈ m.globals :=
  h.held.mem_iff.trans (GlobalEntry.mem_map_stored hf)

theorem Canonical.exactly_globals (h : m.Canonical R) :
    Exactly (readMap R (PSBT.branch R) { psbt := {} }) (mapBytes (m.globals.map GlobalEntry.record))
      m.globalObject :=
  h.addable.exactly_readMap h.globals.fits

theorem untouched_globalObject (m : PsbtMaps) : PSBT.Global.Untouched m.globalObject :=
  PSBT.Global.untouched_addAll _

/-- A field the map has no entry for is left empty. -/
theorem eq_none_of_field {α : Type} {o : Option α} {entry : α → GlobalEntry}
    (hmem : ∀ a, o = some a → entry a ∈ m.globals) {fs : List GlobalField}
    (hfs : ∀ e ∈ m.globals, e.field ∈ fs) (hentry : ∀ a, (entry a).field ∉ fs) : o = none := by
  cases o with
  | none => rfl
  | some a => exact absurd (hfs _ (hmem a rfl)) (hentry a)

section V0

variable {tx : CTransaction}

theorem V0.version_eq (h : m.Canonical R) (h0 : m.V0 R tx) : m.globalObject.psbt.version = 0 := by
  cases hexp : m.globalObject.psbt.explicitVersion with
  | false => exact (untouched_globalObject m).version hexp
  | true =>
    refine h0.version _ ((h.mem_held (by rintro ⟨⟩)).1 ?_)
    exact PSBT.Global.version_mem_held.2 ⟨hexp, rfl⟩

theorem V0.unsignedTx_eq (h : m.Canonical R) (h0 : m.V0 R tx) :
    m.globalObject.foundUnsignedTx = true ∧ m.globalObject.psbt.tx = tx.asRead :=
  PSBT.Global.unsignedTx_mem_held.1
    (h.held.mem_iff.2 (List.mem_map.2 ⟨_, h0.unsignedTx, rfl⟩))

theorem V0.ok (h : m.Canonical R) (h0 : m.V0 R tx) : PSBT.Global.OkV0 m.globalObject where
  foundUnsignedTx := (V0.unsignedTx_eq h h0).1
  txVersion := eq_none_of_field (fun _ ha => (h.mem_held (by rintro ⟨⟩)).1
    (PSBT.Global.txVersion_mem_held.2 ha)) h0.globals fun _ => by simp [GlobalEntry.field]
  fallbackLocktime := eq_none_of_field (fun _ ha => (h.mem_held (by rintro ⟨⟩)).1
    (PSBT.Global.fallbackLocktime_mem_held.2 ha)) h0.globals fun _ => by simp [GlobalEntry.field]
  inputCount := eq_none_of_field (fun _ ha => (h.mem_held (by rintro ⟨⟩)).1
    (PSBT.Global.inputCount_mem_held.2 ha)) h0.globals fun _ => by simp [GlobalEntry.field]
  outputCount := eq_none_of_field (fun _ ha => (h.mem_held (by rintro ⟨⟩)).1
    (PSBT.Global.outputCount_mem_held.2 ha)) h0.globals fun _ => by simp [GlobalEntry.field]
  txModifiable := eq_none_of_field (fun _ ha => (h.mem_held (by rintro ⟨⟩)).1
    (PSBT.Global.txModifiable_mem_held.2 ha)) h0.globals fun _ => by simp [GlobalEntry.field]

end V0

section V2

variable {n : ℕ}

theorem V2.version_eq (h : m.Canonical R) (h2 : m.V2 R n) :
    m.globalObject.psbt.explicitVersion = true ∧ m.globalObject.psbt.version = n :=
  PSBT.Global.version_mem_held.1 ((h.mem_held (by rintro ⟨⟩)).2 h2.version)

theorem V2.inputCount_eq (h : m.Canonical R) (h2 : m.V2 R n) :
    m.globalObject.inputCount = some m.inputs.length :=
  PSBT.Global.inputCount_mem_held.1 ((h.mem_held (by rintro ⟨⟩)).2 h2.inputCount)

theorem V2.outputCount_eq (h : m.Canonical R) (h2 : m.V2 R n) :
    m.globalObject.outputCount = some m.outputs.length :=
  PSBT.Global.outputCount_mem_held.1 ((h.mem_held (by rintro ⟨⟩)).2 h2.outputCount)

theorem V2.ok (h : m.Canonical R) (h2 : m.V2 R n) : PSBT.Global.OkV2 m.globalObject where
  txVersion := by
    obtain ⟨v, hv⟩ := h2.txVersion
    rw [PSBT.Global.txVersion_mem_held.1 ((h.mem_held (by rintro ⟨⟩)).2 hv)]
    exact Option.some_ne_none v
  inputCount := by
    rw [V2.inputCount_eq h h2]
    exact Option.some_ne_none _
  outputCount := by
    rw [V2.outputCount_eq h h2]
    exact Option.some_ne_none _
  foundUnsignedTx := by
    cases hfound : m.globalObject.foundUnsignedTx with
    | false => rfl
    | true =>
      obtain ⟨e, he, hstored⟩ := List.mem_map.1
        (h.held.mem_iff.1 (PSBT.Global.unsignedTx_mem_held.2 ⟨hfound, rfl⟩))
      cases e with
      | unsignedTx tx => exact absurd he (h2.unsignedTx tx)
      | _ => cases hstored

end V2

/-! ### The input and output maps -/

theorem mapBytes_ne_nil (rs : List MapRecord) : mapBytes rs ≠ [] := by simp [mapBytes]

/-- The version a canonical PSBT has, and what its maps are complete for. -/
structure Ready (R : Runtime) (m : PsbtMaps) (version : ℕ) : Prop where
  versionEq : m.globalObject.psbt.version = version
  check : PSBT.checkVersion m.globalObject = .ok ()
  inputTotal : PSBT.inputTotal m.globalObject = m.inputs.length
  outputTotal : PSBT.outputTotal m.globalObject = m.outputs.length
  inputs : ∀ es ∈ m.inputs, PartiallySignedInput.Complete R version es
  outputs : ∀ es ∈ m.outputs, PartiallySignedOutput.Complete version es
  txid : ∀ (i : ℕ) es, m.inputs[i]? = some es → ∃ txid,
    PSBT.prevTxid m.globalObject.psbt i (.ofEntries R version es) = .ok txid ∧
      ∀ utxo, .nonWitnessUtxo utxo ∈ es → R.hash256 utxo.bytes = txid

theorem V0.ready {tx : CTransaction} (h : m.Canonical R) (h0 : m.V0 R tx) : m.Ready R 0 where
  versionEq := V0.version_eq h h0
  check := PSBT.Global.checkVersion_eq_ok.2 (Or.inl ⟨V0.version_eq h h0, V0.ok h h0⟩)
  inputTotal := by
    rw [PSBT.inputTotal, (V0.ok h h0).inputCount, (V0.unsignedTx_eq h h0).2, h0.inputCount]
    rfl
  outputTotal := by
    rw [PSBT.outputTotal, (V0.ok h h0).outputCount, (V0.unsignedTx_eq h h0).2, h0.outputCount]
    rfl
  inputs es hes := ⟨h.inputs es hes, fun e he hf => by simp [h0.inputs es hes e he] at hf, by simp, by simp⟩
  outputs es hes :=
    ⟨h.outputs es hes, fun e he hf => by simp [h0.outputs es hes e he] at hf, by simp, by simp⟩
  txid i es hes := by
    have hlt : i < tx.vin.length := by
      rw [← h0.inputCount]
      exact (List.getElem?_eq_some_iff.1 hes).1
    have htxin : tx.vin[i]? = some tx.vin[i] := List.getElem?_eq_getElem hlt
    refine ⟨serUint256 tx.vin[i].prevout.hash, ?_, h0.txid i es _ hes htxin⟩
    rw [PSBT.prevTxid, V0.version_eq h h0, (V0.unsignedTx_eq h h0).2, CTransaction.asRead_vin, htxin]
    rfl

theorem V2.ready {n : ℕ} (h : m.Canonical R) (hn : 2 ≤ n) (h2 : m.V2 R n) : m.Ready R n := by
  have hcomplete : ∀ es ∈ m.inputs, PartiallySignedInput.Complete R n es := fun es hes =>
    ⟨h.inputs es hes, fun _ _ _ => by omega, fun _ => (h2.inputs es hes).prevTxid.imp fun _ ht => ht.1,
      fun _ => (h2.inputs es hes).prevOut⟩
  refine ⟨(V2.version_eq h h2).2, ?_, ?_, ?_, hcomplete, fun es hes => ⟨h.outputs es hes,
    fun _ _ _ => by omega, fun _ => (h2.outputs es hes).amount, fun _ => (h2.outputs es hes).script⟩, ?_⟩
  · refine PSBT.Global.checkVersion_eq_ok.2 (Or.inr ⟨?_, V2.ok h h2⟩)
    rw [(V2.version_eq h h2).2]
    exact hn
  · rw [PSBT.inputTotal, V2.inputCount_eq h h2]
    rfl
  · rw [PSBT.outputTotal, V2.outputCount_eq h h2]
    rfl
  · intro i es hes
    have hmem := List.mem_of_getElem? hes
    obtain ⟨txid, htxid, hutxo⟩ := (h2.inputs es hmem).prevTxid
    refine ⟨txid, ?_, hutxo⟩
    rw [PSBT.prevTxid, (V2.version_eq h h2).2, if_pos hn]
    exact congrArg _ (PartiallySignedInput.prevTxid_of_mem_held
      (((hcomplete es hmem).mem_held (by rintro ⟨⟩)).2 htxid)).1

theorem Canonical.ready (h : m.Canonical R) : ∃ version, m.Ready R version := by
  obtain ⟨tx, h0⟩ | ⟨n, hn, h2⟩ := h.version
  · exact ⟨0, V0.ready h h0⟩
  · exact ⟨n, V2.ready h hn h2⟩

theorem Ready.exactly_readInputs {version : ℕ} (h : m.Ready R version) :
    Exactly (PSBT.readInputs R m.globalObject) (m.raw.inputs.flatMap mapBytes)
      (m.inputObjects R version) := by
  have hread : Exactly (PSBT.readWhile (PSBT.readInput R m.globalObject.psbt) m.inputs.length 0)
      (m.inputs.flatMap fun es => mapBytes (es.map InputEntry.record))
      (m.inputObjects R version) := by
    refine exactly_readWhile (fun es _ => mapBytes_ne_nil _) fun j es hes => ?_
    obtain ⟨txid, htxid, hutxo⟩ := h.txid j es hes
    rw [Nat.zero_add]
    exact (h.inputs es (List.mem_of_getElem? hes)).exactly_readInput h.versionEq htxid hutxo
  have hnil := (untouched_globalObject m).inputs
  intro rest
  refine PSBT.readInputs_eq_ok.2 ⟨m.inputObjects R version, ?_, ?_, ?_⟩
  · rw [h.inputTotal, raw, List.flatMap_map]
    exact hread rest
  · rw [hnil, h.inputTotal, inputObjects, List.length_map, List.length_nil, Nat.zero_add]
  · rw [hnil, List.nil_append]

theorem Ready.exactly_readOutputs {version : ℕ} (h : m.Ready R version) :
    Exactly (PSBT.readOutputs R m.globalObject) (m.raw.outputs.flatMap mapBytes)
      (m.outputObjects version) := by
  have hread : Exactly (PSBT.readWhile
      (fun _ => PartiallySignedOutput.deserialize R { version := m.globalObject.psbt.version })
      m.outputs.length 0) (m.outputs.flatMap fun es => mapBytes (es.map OutputEntry.record))
      (m.outputObjects version) := by
    refine exactly_readWhile (fun es _ => mapBytes_ne_nil _) fun j es hes => ?_
    rw [h.versionEq]
    exact (h.outputs es (List.mem_of_getElem? hes)).exactly_deserialize R
  have hnil := (untouched_globalObject m).outputs
  intro rest
  refine PSBT.readOutputs_eq_ok.2 ⟨m.outputObjects version, ?_, ?_, ?_⟩
  · rw [h.outputTotal, raw, List.flatMap_map]
    exact hread rest
  · rw [hnil, h.outputTotal, outputObjects, List.length_map, List.length_nil, Nat.zero_add]
  · rw [hnil, List.nil_append]

/-- The object read, before the version 0 fields are filled in. -/
def object (R : Runtime) (m : PsbtMaps) (version : ℕ) : PSBT :=
  { m.globalObject.psbt with
    inputs := m.inputObjects R version, outputs := m.outputObjects version }

theorem Ready.deserializeStream {version : ℕ} (h : m.Canonical R) (hr : m.Ready R version) {p : PSBT}
    (hp : (m.object R version).cacheUnsignedTxPieces = .ok p) (rest : Bytes) :
    PSBT.deserializeStream R {} (m.raw.bytes ++ rest) = .ok p rest := by
  have hmagic : PSBT.magic.length = 5 := rfl
  have hbytes : m.raw.bytes ++ rest = PSBT.magic ++ (mapBytes (m.globals.map GlobalEntry.record) ++
      (m.raw.inputs.flatMap mapBytes ++ (m.raw.outputs.flatMap mapBytes ++ rest))) := by
    simp only [RawMaps.bytes, raw, List.append_assoc]
  rw [hbytes, PSBT.deserializeStream_eq_ok, List.take_left' hmagic, List.drop_left' hmagic]
  exact ⟨rfl, m.globalObject, _, _, _, _, h.exactly_globals _, hr.check, hr.exactly_readInputs _,
    hr.exactly_readOutputs _, hp⟩

end PsbtMaps

end Hwi
