import Hwi.Proofs.Framing
import Hwi.Proofs.GlobalRules
import Hwi.Proofs.InputRules
import Hwi.Proofs.OutputRules

/-! On which strings the parser of PSBTs raises something else than its own exception: those whose
records break off, after records and maps that pass. -/

namespace Hwi

open Reader

variable {R : Runtime} {α β : Type}

/-! ### Maps one after the other -/

section Items

variable {item : ℕ → Read α} {reads : ℕ → Bytes → Bytes → Prop} {fault : Bytes → Prop}

/-- The loop over maps reads all of them exactly when they pass. -/
theorem readWhile_iff {n i : ℕ} (h : ∀ j, j < i + n → ∀ s s', (∃ a, item j s = .ok a s') ↔ reads j s s')
    {s s' : Bytes} : (∃ l, PSBT.readWhile item n i s = .ok l s' ∧ l.length = n) ↔
      MapsRead reads n i s s' := by
  induction n generalizing i s with
  | zero =>
    constructor
    · rintro ⟨l, hl, -⟩
      cases hl
      exact .nil
    · intro hread
      cases hread
      exact ⟨[], rfl, rfl⟩
  | succ n ih =>
    have hnext (s : Bytes) := ih (i := i + 1) (fun j hj => h j (by omega)) (s := s)
    have hitem := h i (by omega)
    constructor
    · rintro ⟨l, hl, hlen⟩
      rw [readWhile_succ] at hl
      split_ifs at hl with hs
      · cases hl
        cases hlen
      · obtain ⟨a, s₁, ha, hl⟩ := Reader.bind_eq_ok.1 hl
        obtain ⟨rest, s₂, hrest, hpure⟩ := Reader.bind_eq_ok.1 hl
        cases hpure
        exact .cons hs ((hitem s s₁).1 ⟨a, ha⟩) ((hnext s₁).1 ⟨rest, hrest, by simpa using hlen⟩)
    · intro hread
      cases hread with
      | cons hne hread hrest =>
        obtain ⟨a, ha⟩ := (hitem _ _).2 hread
        obtain ⟨rest, hrest, hlen⟩ := (hnext _).2 hrest
        refine ⟨a :: rest, ?_, by rw [List.length_cons, hlen]⟩
        rw [readWhile_succ, if_neg hne]
        exact Reader.bind_eq_ok.2 ⟨a, _, ha, Reader.bind_eq_ok.2 ⟨rest, _, hrest, rfl⟩⟩

/-- It breaks off exactly when one of them does. -/
theorem raises_readWhile {n i : ℕ}
    (h : ∀ j, j < i + n → ∀ s s', (∃ a, item j s = .ok a s') ↔ reads j s s')
    (hfault : ∀ j, j < i + n → ∀ s, Raises Unexpected (item j) s ↔ fault s) {s : Bytes} :
    Raises Unexpected (PSBT.readWhile item n i) s ↔ MapsFault reads fault n i s := by
  induction n generalizing i s with
  | zero =>
    refine iff_of_false not_raises_pure fun hf => ?_
    cases hf
  | succ n ih =>
    have hnext (s : Bytes) := ih (i := i + 1) (fun j hj => h j (by omega))
      (fun j hj => hfault j (by omega)) (s := s)
    unfold Raises
    rw [readWhile_succ]
    split_ifs with hs
    · refine iff_of_false (by simp) fun hf => ?_
      cases hf with
      | here hne _ => exact hne hs
      | later hne _ _ => exact hne hs
    · refine raises_bind.trans ?_
      rw [hfault i (by omega)]
      constructor
      · rintro (hf | ⟨a, s₁, ha, hf⟩)
        · exact .here hs hf
        · exact .later hs ((h i (by omega) s s₁).1 ⟨a, ha⟩) ((hnext s₁).1 (raises_bind_pure.1 hf))
      · intro hf
        cases hf with
        | here _ hf => exact Or.inl hf
        | @later _ _ _ s₁ _ hread hf =>
          obtain ⟨a, ha⟩ := (h i (by omega) s s₁).2 hread
          exact Or.inr ⟨a, s₁, ha, raises_bind_pure.2 ((hnext s₁).2 hf)⟩

end Items

/-! ### An output map -/

variable {n : ℕ} {rs : List MapRecord} {s s' : Bytes}

theorem PartiallySignedOutput.StandsFor.requireV2_iff {o : PartiallySignedOutput}
    (h : o.StandsFor n rs) {asked : MapsAsked} (hversion : asked.version = n) :
    o.requireV2 = .ok () ↔ OutputPasses asked rs := by
  unfold requireV2 OutputPasses
  rw [h.version, hversion]
  split_ifs with hv hamount hscript
  · refine iff_of_false (by simp) fun hpass => ?_
    exact h.amount.ne_none_iff.1 (hpass hv).1 hamount
  · refine iff_of_false (by simp) fun hpass => ?_
    obtain ⟨script, hne, hlookup⟩ := (hpass hv).2
    have hscript' := h.script
    rw [hlookup] at hscript'
    rw [← hscript'] at hscript
    exact hne (List.length_eq_zero_iff.1 hscript)
  · refine iff_of_true rfl fun _ => ⟨h.amount.ne_none_iff.2 hamount, ?_⟩
    have hscript' := h.script
    cases hlookup : rs.lookup [0x04] with
    | none =>
      rw [hlookup] at hscript'
      rw [← hscript'] at hscript
      exact absurd rfl hscript
    | some script =>
      rw [hlookup] at hscript'
      refine ⟨script, ?_, rfl⟩
      rintro rfl
      rw [← hscript'] at hscript
      exact hscript rfl
  · exact iff_of_true rfl fun h2 => absurd h2 hv

theorem exists_output_iff {asked : MapsAsked} (hversion : asked.version = n) :
    (∃ o, PartiallySignedOutput.deserialize R { version := n } s = .ok o s') ↔
      ReadsOutput R asked s s' := by
  have hfollows := PartiallySignedOutput.follows n
  subst hversion
  simp only [PSBT.deserialize_output_eq_ok]
  constructor
  · rintro ⟨o, hread, hrequire⟩
    obtain ⟨rs, hrs, ho⟩ := hfollows.readMap_eq_ok PartiallySignedOutput.standsFor_new hread
    exact ⟨rs, hrs, (ho.requireV2_iff rfl).1 hrequire⟩
  · rintro ⟨rs, hrs, hpass⟩
    obtain ⟨o, hread, ho⟩ := hfollows.exists_readMap PartiallySignedOutput.standsFor_new hrs
    exact ⟨o, hread, (ho.requireV2_iff rfl).2 hpass⟩

theorem raises_output : Raises Unexpected (PartiallySignedOutput.deserialize R { version := n }) s ↔
    MapFault (OutputField.rules n) R [] s := by
  have hrequire (o : PartiallySignedOutput) : ¬Escapes o.requireV2 := by
    unfold PartiallySignedOutput.requireV2
    split_ifs <;> simp
  unfold PartiallySignedOutput.deserialize
  rw [raises_bind, (PartiallySignedOutput.follows n).raises_readMap PartiallySignedOutput.standsFor_new]
  refine or_iff_left ?_
  rintro ⟨o, f', -, h⟩
  exact hrequire o (raises_ofExcept_iff.1 (raises_bind_pure.1 h))

/-! ### An input map -/

theorem PartiallySignedInput.StandsFor.requireV2_iff {i : PartiallySignedInput} (h : i.StandsFor R n rs) :
    i.requireV2 = .ok () ↔ (2 ≤ n → rs.lookup [0x0e] ≠ none ∧ rs.lookup [0x0f] ≠ none) := by
  have htxid : rs.lookup [0x0e] ≠ none ↔ i.prevTxid ≠ [] := by
    rw [h.prevTxid.ne_none_iff, present]
    split_ifs with hnil <;> simp [hnil]
  rw [htxid, h.prevOut.ne_none_iff, requireV2, h.version]
  split_ifs with hv hnil hout
  · refine iff_of_false (by simp) fun hpass => ?_
    exact (hpass hv).1 (List.length_eq_zero_iff.1 hnil)
  · refine iff_of_false (by simp) fun hpass => ?_
    exact (hpass hv).2 hout
  · exact iff_of_true rfl fun _ => ⟨fun hnil' => hnil (List.length_eq_zero_iff.2 hnil'), hout⟩
  · exact iff_of_true rfl fun h2 => absurd h2 hv

/-- The id a UTXO is checked against. -/
theorem PartiallySignedInput.StandsFor.prevTxid_eq {i : PartiallySignedInput} {p : PSBT} {asked : MapsAsked}
    {k : ℕ} (h : i.StandsFor R p.version rs) (hversion : asked.version = p.version)
    (htxids : p.version = 0 → asked.txids = p.tx.vin.map fun txin => serUint256 txin.prevout.hash)
    (hindex : (p.version = 0 ∧ k < p.tx.vin.length) ∨ 2 ≤ p.version)
    (hrequire : i.requireV2 = .ok ()) : ∃ txid, PSBT.prevTxid p k i = .ok txid ∧
      some txid = if 2 ≤ asked.version then rs.lookup [0x0e] else asked.txids[k]? := by
  rw [PSBT.prevTxid, hversion]
  rcases hindex with ⟨hv, hk⟩ | hv
  · have hlt : ¬2 ≤ p.version := by omega
    rw [if_neg hlt, if_neg hlt, htxids hv, List.getElem?_map, List.getElem?_eq_getElem hk]
    exact ⟨_, rfl, rfl⟩
  · rw [if_pos hv, if_pos hv]
    refine ⟨_, rfl, ?_⟩
    obtain ⟨txid, htxid⟩ := Option.ne_none_iff_exists'.1 (h.prevTxid.ne_none_iff.1 ((h.requireV2_iff.1 hrequire) hv).1)
    obtain ⟨v, hv, rfl⟩ := h.prevTxid.exists_of_some htxid
    rw [hv]
    unfold present at htxid
    split_ifs at htxid
    exact htxid

theorem PartiallySignedInput.StandsFor.checkUtxoHash_iff {i : PartiallySignedInput} {txid : Bytes}
    (h : i.StandsFor R n rs) : (∃ i', PSBT.checkUtxoHash R txid i = .ok i') ↔
      ∀ v tx, rs.lookup [0x00] = some v → BeginsWith v tx → R.hash256 tx.bytes = txid := by
  simp only [PSBT.checkUtxoHash_eq_ok]
  constructor
  · rintro ⟨i', ⟨hnone, -⟩ | ⟨tx, tx', hutxo, hrehash, hhash, -⟩⟩ v t hv ht
    · obtain ⟨tx, hutxo, -⟩ := h.utxo.exists_of_lookup hv
      rw [hnone] at hutxo
      cases hutxo
    · obtain ⟨tx'', hutxo', t', ht', rfl⟩ := h.utxo.exists_of_lookup hv
      obtain rfl := ht.unique ht'
      rw [hutxo] at hutxo'
      cases hutxo'
      rw [CTransaction.rehash_rehash ht.rehash_ok] at hrehash
      cases hrehash
      exact Option.some.inj hhash
  · intro hpass
    cases hutxo : i.nonWitnessUtxo with
    | none => exact ⟨i, Or.inl ⟨rfl, rfl⟩⟩
    | some tx =>
      obtain ⟨v, hv, t, ht, rfl⟩ := h.utxo.exists_of_some hutxo
      refine ⟨_, Or.inr ⟨_, _, rfl, CTransaction.rehash_rehash ht.rehash_ok, ?_, rfl⟩⟩
      exact congrArg some (hpass v t hv ht)

theorem not_escapes_checkUtxoHash {i : PartiallySignedInput} {txid : Bytes} (h : i.StandsFor R n rs) :
    ¬Escapes (PSBT.checkUtxoHash R txid i) := by
  unfold PSBT.checkUtxoHash
  cases hutxo : i.nonWitnessUtxo with
  | none => exact not_escapes_ok
  | some tx =>
    obtain ⟨v, hv, t, ht, rfl⟩ := h.utxo.exists_of_some hutxo
    simp only [CTransaction.rehash_rehash ht.rehash_ok, ok_bind]
    split_ifs <;> simp

section Input

variable {p : PSBT} {asked : MapsAsked} {k : ℕ} (hversion : asked.version = p.version)
  (htxids : p.version = 0 → asked.txids = p.tx.vin.map fun txin => serUint256 txin.prevout.hash)
  (hindex : (p.version = 0 ∧ k < p.tx.vin.length) ∨ 2 ≤ p.version)

include hversion htxids hindex

theorem exists_input_iff :
    (∃ i, PSBT.readInput R p k s = .ok i s') ↔ ReadsInput R asked k s s' := by
  have hfollows := PartiallySignedInput.follows R p.version
  simp only [PSBT.readInput_eq_ok, PSBT.deserialize_input_eq_ok]
  unfold ReadsInput
  rw [hversion]
  constructor
  · rintro ⟨i', i, txid, ⟨hread, hrequire⟩, htxid, hcheck⟩
    obtain ⟨rs, hrs, hi⟩ := hfollows.readMap_eq_ok PartiallySignedInput.standsFor_new hread
    obtain ⟨txid', htxid', hasked⟩ := hi.prevTxid_eq hversion htxids hindex hrequire
    rw [htxid'] at htxid
    cases htxid
    refine ⟨rs, hrs, fun h2 => hi.requireV2_iff.1 hrequire (hversion ▸ h2), fun v tx hv ht => ?_⟩
    rw [← hasked, hi.checkUtxoHash_iff.1 ⟨i', hcheck⟩ v tx hv ht]
  · rintro ⟨rs, hrs, houtpoint, hutxo⟩
    obtain ⟨i, hread, hi⟩ := hfollows.exists_readMap PartiallySignedInput.standsFor_new hrs
    have hrequire := hi.requireV2_iff.2 (hversion ▸ houtpoint)
    obtain ⟨txid, htxid, hasked⟩ := hi.prevTxid_eq hversion htxids hindex hrequire
    obtain ⟨i', hcheck⟩ := hi.checkUtxoHash_iff.2 fun v tx hv ht =>
      Option.some.inj ((hutxo v tx hv ht).trans hasked.symm)
    exact ⟨i', i, txid, ⟨hread, hrequire⟩, htxid, hcheck⟩

theorem raises_input : Raises Unexpected (PSBT.readInput R p k) s ↔
    MapFault (InputField.rules R asked.version) R [] s := by
  have hfollows := PartiallySignedInput.follows R p.version
  have hrequire (i : PartiallySignedInput) : ¬Escapes i.requireV2 := by
    unfold PartiallySignedInput.requireV2
    split_ifs <;> simp
  have hmap : Raises Unexpected (PartiallySignedInput.deserialize R { version := p.version }) s ↔
      MapFault (InputField.rules R asked.version) R [] s := by
    unfold PartiallySignedInput.deserialize
    rw [raises_bind, hfollows.raises_readMap PartiallySignedInput.standsFor_new, hversion]
    refine or_iff_left ?_
    rintro ⟨i, f', -, h⟩
    exact hrequire i (raises_ofExcept_iff.1 (raises_bind_pure.1 h))
  unfold PSBT.readInput
  rw [raises_bind, hmap]
  refine or_iff_left ?_
  rintro ⟨i, f', hi, hraise⟩
  obtain ⟨hread, hok⟩ := PSBT.deserialize_input_eq_ok.1 hi
  obtain ⟨rs, -, hstands⟩ := hfollows.readMap_eq_ok PartiallySignedInput.standsFor_new hread
  obtain ⟨txid, htxid, -⟩ := hstands.prevTxid_eq hversion htxids hindex hok
  rw [htxid] at hraise
  exact not_escapes_checkUtxoHash hstands (raises_ofExcept_iff.1 hraise)

end Input

/-! ### The stream -/

namespace PSBT

theorem not_escapes_checkVersion (g : Global) : ¬Escapes (checkVersion g) := by
  have hthrow (e : Exc) (k : PUnit → Except Exc Unit) :
      ((throw e : Except Exc PUnit) >>= k) = .error e := rfl
  rcases Nat.lt_or_ge g.psbt.version 2 with hlt | hge
  · have hcases : g.psbt.version = 0 ∨ g.psbt.version = 1 := by omega
    rcases hcases with h0 | h1
    · simp only [checkVersion, h0, if_true, hthrow, escapes_ite]
      simp
    · simp [checkVersion, h1]
  · have h0 : g.psbt.version ≠ 0 := by omega
    have h1 : g.psbt.version ≠ 1 := by omega
    simp only [checkVersion, h0, h1, hge, if_true, if_false, hthrow, escapes_ite]
    simp

theorem not_raises_readMagic {f : Bytes} : ¬Raises Unexpected readMagic f := by
  have hread : read 5 f = .ok (f.take 5) (f.drop 5) := rfl
  unfold readMagic
  rw [raises_bind_of_ok hread]
  split_ifs
  · exact fun h => not_unexpected (raises_throw.1 h)
  · exact not_raises_pure

/-- The version and the number of the inputs go with the transaction. -/
theorem index_of_checkVersion {g : Global} (hcheck : checkVersion g = .ok ()) {k : ℕ}
    (hk : k < 0 + inputTotal g) :
    (g.psbt.version = 0 ∧ k < g.psbt.tx.vin.length) ∨ 2 ≤ g.psbt.version := by
  rcases Global.checkVersion_eq_ok.1 hcheck with ⟨h0, hok⟩ | ⟨h2, -⟩
  · rw [inputTotal, hok.inputCount] at hk
    exact Or.inl ⟨h0, by simpa using hk⟩
  · exact Or.inr h2

theorem not_escapes_cache {p : PSBT} (h : p.version = 0 →
    p.inputs.length = p.tx.vin.length ∧ p.outputs.length = p.tx.vout.length) :
    ¬Escapes p.cacheUnsignedTxPieces := by
  by_cases hv : p.version = 0
  · rw [cacheUnsignedTxPieces_ok hv (h hv).1 (h hv).2]
    exact not_escapes_ok
  · rw [cacheUnsignedTxPieces_of_ne hv]
    exact not_escapes_ok

section Maps

variable {g : Global} (hcheck : checkVersion g = .ok ())

include hcheck

theorem exists_item_iff (j : ℕ) (hj : j < 0 + inputTotal g) (s s' : Bytes) :
    (∃ i, readInput R g.psbt j s = .ok i s') ↔ ReadsInput R g.asked j s s' :=
  exists_input_iff rfl (fun h0 => if_pos h0) (index_of_checkVersion hcheck hj)

theorem exists_readInputs_iff (hg : g.StandsFor rs) : (∃ inputs, readInputs R g s = .ok inputs s') ↔
    MapsRead (ReadsInput R g.asked) g.asked.inputs 0 s s' := by
  refine Iff.trans ?_ (readWhile_iff (exists_item_iff hcheck))
  simp only [readInputs_eq_ok, hg.inputs, List.length_nil, Nat.zero_add, List.nil_append]
  constructor
  · rintro ⟨_, l, hl, hlen, -⟩
    exact ⟨l, hl, hlen⟩
  · rintro ⟨l, hl, hlen⟩
    exact ⟨l, l, hl, hlen, rfl⟩

theorem raises_readInputs : Raises Unexpected (readInputs R g) s ↔
    MapsFault (ReadsInput R g.asked) (MapFault (InputField.rules R g.asked.version) R [])
      g.asked.inputs 0 s := by
  refine Iff.trans ?_ (raises_readWhile (exists_item_iff hcheck) fun j hj s =>
    raises_input rfl (fun h0 => if_pos h0) (index_of_checkVersion hcheck hj))
  unfold readInputs
  rw [raises_bind]
  refine or_iff_left ?_
  rintro ⟨inputs, f', -, h⟩
  rcases raises_ite_throw.1 h with ⟨-, he⟩ | ⟨-, h⟩
  · exact not_unexpected he
  · exact not_raises_pure h

omit hcheck in
theorem raises_readOutputs : Raises Unexpected (readOutputs R g) s ↔
    MapsFault (fun _ => ReadsOutput R g.asked) (MapFault (OutputField.rules g.asked.version) R [])
      g.asked.outputs 0 s := by
  refine Iff.trans ?_ (raises_readWhile (fun j hj s s' => exists_output_iff (n := g.psbt.version) rfl)
    fun j hj s => raises_output)
  unfold readOutputs
  rw [raises_bind]
  refine or_iff_left ?_
  rintro ⟨outputs, f', -, h⟩
  rcases raises_ite_throw.1 h with ⟨-, he⟩ | ⟨-, h⟩
  · exact not_unexpected he
  · exact not_raises_pure h

/-- The counts of a version 0 PSBT are those of its transaction. -/
theorem not_escapes_read {f f₁ f₂ : Bytes} {inputs : List PartiallySignedInput}
    {outputs : List PartiallySignedOutput} (hinputs : readInputs R g f = .ok inputs f₁)
    (houtputs : readOutputs R g f₁ = .ok outputs f₂) :
    ¬Escapes { g.psbt with inputs, outputs }.cacheUnsignedTxPieces := by
  obtain ⟨readIn, -, hin, rfl⟩ := readInputs_eq_ok.1 hinputs
  obtain ⟨readOut, -, hout, rfl⟩ := readOutputs_eq_ok.1 houtputs
  have hcount : g.psbt.version = 0 → (g.psbt.inputs ++ readIn).length = g.psbt.tx.vin.length ∧
      (g.psbt.outputs ++ readOut).length = g.psbt.tx.vout.length := by
    intro h0
    rcases Global.checkVersion_eq_ok.1 hcheck with ⟨-, hok⟩ | ⟨h2, -⟩
    · rw [inputTotal, hok.inputCount] at hin
      rw [outputTotal, hok.outputCount] at hout
      exact ⟨List.length_append.trans hin, List.length_append.trans hout⟩
    · omega
  exact not_escapes_cache hcount

end Maps

theorem raises_deserializeStream {bs : Bytes} :
    Raises Unexpected (deserializeStream R {}) bs ↔ StreamFault R bs := by
  have hglobal := Global.follows R
  unfold deserializeStream
  rw [raises_bind, or_iff_right not_raises_readMagic]
  constructor
  · rintro ⟨_, f₀, hm, h⟩
    obtain ⟨hmagic, rfl⟩ := readMagic_eq_ok.1 hm
    rcases raises_bind.1 h with h | ⟨g, f, hread, h⟩
    · exact .globals hmagic ((hglobal.raises_readMap Global.standsFor_new).1 h)
    obtain ⟨gs, hgs, hg⟩ := hglobal.readMap_eq_ok Global.standsFor_new hread
    obtain ⟨hcheck, h⟩ := (raises_check_bind (not_escapes_checkVersion g)).1 h
    have hasked := hg.asks_iff.2 ⟨hcheck, rfl⟩
    rcases raises_bind.1 h with h | ⟨inputs, f', hinputs, h⟩
    · exact .input hmagic hgs hasked ((raises_readInputs hcheck).1 h)
    rcases raises_bind.1 h with h | ⟨outputs, f'', houtputs, h⟩
    · exact .output hmagic hgs hasked ((exists_readInputs_iff hcheck hg).1 ⟨inputs, hinputs⟩)
        (raises_readOutputs.1 h)
    · exact absurd (raises_ofExcept_iff.1 h) (not_escapes_read hcheck hinputs houtputs)
  · intro h
    cases h with
    | globals hmagic h =>
      refine ⟨(), _, readMagic_eq_ok.2 ⟨hmagic, rfl⟩, raises_bind.2 (Or.inl ?_)⟩
      exact (hglobal.raises_readMap Global.standsFor_new).2 h
    | input hmagic hgs hasked h =>
      obtain ⟨g, hread, hg⟩ := hglobal.exists_readMap Global.standsFor_new hgs
      obtain ⟨hcheck, rfl⟩ := hg.asks_iff.1 hasked
      refine ⟨(), _, readMagic_eq_ok.2 ⟨hmagic, rfl⟩, raises_bind.2 (Or.inr ⟨g, _, hread, ?_⟩)⟩
      rw [raises_check_bind (not_escapes_checkVersion _)]
      exact ⟨hcheck, raises_bind.2 (Or.inl ((raises_readInputs hcheck).2 h))⟩
    | output hmagic hgs hasked hinputs h =>
      obtain ⟨g, hread, hg⟩ := hglobal.exists_readMap Global.standsFor_new hgs
      obtain ⟨hcheck, rfl⟩ := hg.asks_iff.1 hasked
      obtain ⟨inputs, hinputs⟩ := (exists_readInputs_iff hcheck hg).2 hinputs
      refine ⟨(), _, readMagic_eq_ok.2 ⟨hmagic, rfl⟩, raises_bind.2 (Or.inr ⟨g, _, hread, ?_⟩)⟩
      rw [raises_check_bind (not_escapes_checkVersion _)]
      refine ⟨hcheck, raises_bind.2 (Or.inr ⟨inputs, _, hinputs, raises_bind.2 (Or.inl ?_)⟩)⟩
      exact raises_readOutputs.2 h

theorem escapes_b64decode {s : Str} {e : Exc} (h : b64decode s = .error e) : Unexpected e := by
  intro msg
  unfold b64decode at h
  split_ifs at h
  · cases h
    simp
  · split at h
    · cases h
    · cases h
      simp

/-- The parser returns or raises its own exception exactly on the base64 of a stream whose records
do not break off. -/
theorem deserialize_expected_iff (R : Runtime) (s : Str) : Expected (deserialize R {} s) ↔
    ∃ bs, b64decode (strip s) = .ok bs ∧ ¬StreamFault R bs := by
  rw [expected_iff, deserialize]
  cases hs : b64decode (strip s) with
  | error e =>
    refine iff_of_false (fun h => h ⟨e, rfl, escapes_b64decode hs⟩) ?_
    rintro ⟨bs, h, -⟩
    cases h
  | ok bs =>
    rw [ok_bind, escapes_runOn, raises_deserializeStream]
    simp

/-- A stream that ends after the key of its first record. -/
def cutBytes : Bytes := magic ++ [0x01, 0x00]

/-- A record whose value announces more bytes than the memory has. -/
def hugeBytes : Bytes := magic ++ [0x01, 0x00, 0xff, 0, 0, 0, 0, 0, 0, 0, 0x40]

/-- What is not base64 raises the exception of the decoder, a stream that breaks off one of
`struct`, and a length that cannot be asked for one of the memory. -/
theorem deserialize_cut : deserialize Runtime.zeros {} ['A'] = .error .binasciiError ∧
    deserialize Runtime.zeros {} (b64encode cutBytes) = .error .structError ∧
    deserialize Runtime.zeros {} (b64encode hugeBytes) = .error .memoryError ∧
    ¬∀ s, Expected (deserialize Runtime.zeros {} s) := by
  have hbase64 : deserialize Runtime.zeros {} ['A'] = .error .binasciiError := by decide +kernel
  refine ⟨hbase64, by decide +kernel, by decide +kernel, fun h => ?_⟩
  obtain ⟨msg, hmsg⟩ := h ['A'] _ hbase64
  cases hmsg

end PSBT

end Hwi
