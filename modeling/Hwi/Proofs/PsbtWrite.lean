import Hwi.Lib.Cut
import Hwi.Proofs.Psbt

/-! Writing a PSBT: the records of its maps and their base 64 string. -/

namespace Hwi

namespace PSBT

/-- What the global map needs to be written. -/
structure GlobalWritable (p : PSBT) : Prop where
  valid : ∀ e ∈ p.globalEntries, e.Valid
  txVersion : p.version ≥ 2 → p.txVersion ≠ none

theorem GlobalWritable.section_valid {self : PSBT} (h : self.GlobalWritable) (es : List GlobalEntry)
    (hes : es ∈ self.globalSections) {e : GlobalEntry} (he : e ∈ es) : e.Valid :=
  h.valid e (List.mem_flatten.2 ⟨es, hes, he⟩)

theorem writes_v0 {self : PSBT} (h : self.GlobalWritable) (hv : self.version = 0) :
    Writes (optionRecord PSBT_GLOBAL_UNSIGNED_TX CTransaction.serializeWithWitness (some self.tx))
      [GlobalEntry.record (.unsignedTx self.tx)] := by
  have hvalid : GlobalEntry.Valid (.unsignedTx self.tx) :=
    h.section_valid [.unsignedTx self.tx] (by simp [globalSections, hv]) (by simp)
  refine .of_eq ?_
  rw [optionRecord, CTransaction.serializeWithWitness_ok hvalid.1.onWire, ok_bind,
    CTransaction.witnessBytes, if_pos hvalid.2.1]
  rfl

theorem writes_txVersion {self : PSBT} (h : self.GlobalWritable) (hv : self.version ≥ 2) :
    Writes self.txVersionRecord
      ((optionEntries .txVersion self.txVersion).map GlobalEntry.record) := by
  have hsome := h.txVersion hv
  cases ht : self.txVersion with
  | none => exact absurd ht hsome
  | some n =>
    obtain ⟨h0, hlt⟩ : GlobalEntry.Valid (.txVersion n) :=
      h.section_valid (optionEntries .txVersion self.txVersion)
        (by simp [globalSections, hv]) (mem_optionEntries.2 ⟨n, ht, rfl⟩)
    refine .of_eq ?_
    rw [txVersionRecord, ht]
    change optionRecord _ _ _ = _
    rw [optionRecord, pack, if_pos ⟨h0, by omega⟩]
    rfl

theorem sections_writes {self : PSBT} (h : self.GlobalWritable) :
    List.Forall₂ Writes self.sections (self.globalSections.map (List.map GlobalEntry.record)) := by
  have hxpub : Writes (dictRecords PSBT_GLOBAL_XPUB id KeyOriginInfo.serialize
      (sortedItems self.xpub)) ((dictEntries .xpub self.xpub).map GlobalEntry.record) := by
    refine writes_dict (sortedItems_perm _) (fun k v hkv => ?_) fun _ _ => rfl
    have hvalid : GlobalEntry.Valid (.xpub k v) :=
      h.section_valid (dictEntries .xpub self.xpub) (by simp [globalSections])
        (mem_dictEntries.2 ⟨k, v, hkv, rfl⟩)
    exact KeyOriginInfo.serialize_ok hvalid.2
  have hunknown : Writes (.ok (sortedItems self.unknown))
      ((dictEntries .unknown self.unknown).map GlobalEntry.record) :=
    writes_unknown fun _ _ => rfl
  have hv0 : List.Forall₂ Writes
      (if self.version = 0 then [optionRecord PSBT_GLOBAL_UNSIGNED_TX
        CTransaction.serializeWithWitness (some self.tx)] else [])
      ((if self.version = 0 then [[.unsignedTx self.tx]] else []).map
        (List.map GlobalEntry.record)) := by
    split_ifs with hv
    · exact .cons (writes_v0 h hv) .nil
    · exact .nil
  have hversion : List.Forall₂ Writes
      (if self.version > 0 ∨ self.explicitVersion then [optionRecord PSBT_GLOBAL_VERSION
        (fun n : ℕ => pack 4 n) (some self.version)] else [])
      ((if self.version > 0 ∨ self.explicitVersion then [[.version self.version]] else []).map
        (List.map GlobalEntry.record)) := by
    split_ifs with hv
    · have hvalid : GlobalEntry.Valid (.version self.version) :=
        h.section_valid [.version self.version] (by simp [globalSections, hv]) (by simp)
      exact .cons (.of_eq (by rw [optionRecord, pack_four hvalid]; rfl)) .nil
    · exact .nil
  have hv2 : List.Forall₂ Writes
      (if self.version ≥ 2 then [self.txVersionRecord,
        optionRecord PSBT_GLOBAL_FALLBACK_LOCKTIME (fun n : ℕ => pack 4 n) self.fallbackLocktime,
        .ok [(serCompactSize PSBT_GLOBAL_INPUT_COUNT, serCompactSize self.inputs.length)],
        .ok [(serCompactSize PSBT_GLOBAL_OUTPUT_COUNT, serCompactSize self.outputs.length)],
        optionRecord PSBT_GLOBAL_TX_MODIFIABLE (fun n : ℕ => pack 1 n) self.txModifiable] else [])
      ((if self.version ≥ 2 then [optionEntries .txVersion self.txVersion,
        optionEntries .fallbackLocktime self.fallbackLocktime, [.inputCount self.inputs.length],
        [.outputCount self.outputs.length], optionEntries .txModifiable self.txModifiable]
        else []).map (List.map GlobalEntry.record)) := by
    split_ifs with hv
    · refine .cons (writes_txVersion h hv) (.cons ?_ (.cons (.of_eq rfl) (.cons (.of_eq rfl)
        (.cons ?_ .nil))))
      · refine writes_option (fun n hn => ?_) fun _ => rfl
        have hvalid : GlobalEntry.Valid (.fallbackLocktime n) :=
          h.section_valid (optionEntries .fallbackLocktime self.fallbackLocktime)
            (by simp [globalSections, hv]) (mem_optionEntries.2 ⟨n, hn, rfl⟩)
        exact pack_four hvalid
      · refine writes_option (fun n hn => ?_) fun _ => rfl
        have hvalid : GlobalEntry.Valid (.txModifiable n) :=
          h.section_valid (optionEntries .txModifiable self.txModifiable)
            (by simp [globalSections, hv]) (mem_optionEntries.2 ⟨n, hn, rfl⟩)
        exact pack_natCast (by simpa [GlobalEntry.Valid] using hvalid)
    · exact .nil
  have hall := List.rel_append (List.rel_append (List.rel_append (List.rel_append hv0
    (.cons hxpub .nil)) hv2) hversion) (.cons hunknown .nil)
  simpa only [sections, globalSections, List.map_append, List.map_cons, List.map_nil] using hall

/-- What the maps of a PSBT need to be written. -/
structure Writable (p : PSBT) : Prop where
  globals : p.GlobalWritable
  inputs : ∀ psbtIn ∈ p.inputs, ∀ e ∈ psbtIn.writtenEntries, e.Valid
  outputs : ∀ psbtOut ∈ p.outputs, ∀ e ∈ psbtOut.writtenEntries, e.Valid

/-- The maps written for a PSBT: each map has the records of its entries. -/
structure Written (R : Runtime) (p : PSBT) (m : RawMaps) : Prop where
  globals : m.globals.Perm (p.globalEntries.map GlobalEntry.record)
  inputs : List.Forall₂ (fun psbtIn rs =>
    rs.Perm (psbtIn.writtenEntries.map fun e => (e.written R).record)) p.inputs m.inputs
  outputs : List.Forall₂ (fun psbtOut rs =>
    rs.Perm (psbtOut.writtenEntries.map fun e => (e.written R).record)) p.outputs m.outputs

theorem serializeBytes_ok {R : Runtime} {self : PSBT} (h : self.Writable) :
    ∃ m, self.serializeBytes R = .ok m.bytes ∧ Written R self m := by
  obtain ⟨globals, hglobals, hgperm⟩ := serializeMap_ok (sections_writes h.globals)
  obtain ⟨inputs, hinputs, hiperm⟩ := exists_mapM_ok (fun psbtIn hin =>
    PartiallySignedInput.serialize_ok R (h.inputs psbtIn hin))
  obtain ⟨outputs, houtputs, hoperm⟩ := exists_mapM_ok (fun psbtOut hout =>
    PartiallySignedOutput.serialize_ok R (h.outputs psbtOut hout))
  refine ⟨⟨globals, inputs, outputs⟩, ?_, ?_, hiperm, hoperm⟩
  · rw [serializeBytes, hglobals, ok_bind, hinputs, ok_bind, houtputs, ok_bind]
    simp only [RawMaps.bytes, List.flatMap_def, List.append_assoc]
    rfl
  · rwa [← List.map_flatten] at hgperm

end PSBT

/-! ### The base 64 string -/

/-- The characters of the encoding are ASCII and not blank. -/
theorem encode_char {bs : Bytes} {c : Char} (h : c ∈ Base64.encode bs) :
    isSpace c = false ∧ c.toNat < 128 := by
  have halphabet : (Base64.alphabet.all fun c => !isSpace c && decide (c.toNat < 128)) = true := rfl
  rcases Base64.mem_encode h with h | rfl
  · simpa using List.all_eq_true.1 halphabet c h
  · decide

theorem strip_encode (bs : Bytes) : strip (Base64.encode bs) = Base64.encode bs := by
  rw [strip, dropWhile_eq_self fun c hc => (encode_char hc).1, dropWhile_eq_self,
    List.reverse_reverse]
  exact fun c hc => (encode_char (List.mem_reverse.1 hc)).1

theorem b64decode_strip_encode (bs : Bytes) : b64decode (strip (b64encode bs)) = .ok bs := by
  have hascii : ((Base64.encode bs).any fun c => decide (128 ≤ c.toNat)) = false := by
    rw [List.any_eq_false]
    intro c hc
    have := (encode_char hc).2
    simp only [decide_eq_true_eq]
    omega
  rw [b64encode, strip_encode, b64decode, hascii, Base64.decode_encode]
  rfl

end Hwi
