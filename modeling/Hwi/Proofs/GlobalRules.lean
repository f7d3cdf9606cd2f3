import Hwi.Proofs.Psbt
import Hwi.Proofs.Rules

/-! The read loop of the global map follows the rules of the global map, and the checks after it ask
for the maps its records ask for. -/

namespace Hwi

open Reader

variable {R : Runtime}

/-- An unsigned transaction is a value that spells one without scripts. -/
theorem PSBT.unsignedTx_eq_ok {v : Bytes} {tx : CTransaction} : unsignedTx R v = .ok tx ↔
    CTransaction.SpelledPlain v tx ∧ ∀ txin ∈ tx.vin, txin.scriptSig = [] := by
  have hread (tx : CTransaction) (rest : Bytes) : CTransaction.deserializeWithoutWitness R v = .ok tx rest ↔
      ∃ ts, v = ts ++ rest ∧ CTransaction.SpelledPlain ts tx :=
    CTransaction.spells_deserializeWithoutWitness.eq_ok_iff
  have hwhole {tx : CTransaction} (h : CTransaction.SpelledPlain v tx) :
      CTransaction.deserializeWithoutWitness R v = .ok tx [] :=
    (hread tx []).2 ⟨v, (List.append_nil v).symm, h⟩
  unfold unsignedTx
  cases hv : CTransaction.deserializeWithoutWitness R v with
  | error e rest =>
    refine iff_of_false (by simp) fun h => ?_
    rw [hwhole h.1] at hv
    cases hv
  | ok tx' rest =>
    by_cases hrest : rest = []
    · subst hrest
      obtain ⟨ts, hts, hplain⟩ := (hread tx' []).1 hv
      rw [List.append_nil] at hts
      subst hts
      have hnull : tx'.witIsNull = true := by
        cases hplain
        rfl
      simp only [List.take_nil, List.length_nil, lt_self_iff_false, if_false, hnull, Bool.not_true,
        Bool.or_false, List.any_eq_true, decide_eq_true_eq, ne_eq, List.length_eq_zero_iff]
      split_ifs with hsig
      · refine iff_of_false (by simp) fun h => ?_
        rw [hwhole h.1] at hv
        cases hv
        obtain ⟨txin, hin, hne⟩ := hsig
        exact hne (h.2 txin hin)
      · push Not at hsig
        constructor
        · intro h
          cases h
          exact ⟨hplain, hsig⟩
        · intro h
          rw [hwhole h.1] at hv
          cases hv
          rfl
    · have hlen : 0 < rest.length := List.length_pos_iff.2 hrest
      refine iff_of_false (by simp [hlen]) fun h => ?_
      rw [hwhole h.1] at hv
      cases hv
      exact hrest rfl

theorem not_escapes_unsignedTx {v : Bytes} : ¬Escapes (PSBT.unsignedTx R v) := by
  unfold PSBT.unsignedTx
  split
  · simp
  · split_ifs <;> simp

namespace PSBT.Global

/-- A key is new to the object and the keys read. -/
def New (g : Global) (seen : List Bytes) (key : Bytes) : GlobalField → Prop
  | .xpub => g.psbt.xpub.contains (key.drop 1) = false
  | .unknown => g.psbt.unknown.contains key = false
  | _ => key ∉ seen

theorem branch_check_iff (R : Runtime) (key : Bytes) (seen : List Bytes) (g : Global) (t : ℕ) :
    ¬Escapes (branch R key seen g t).check ∧ ((branch R key seen g t).check = .ok () ↔
      (GlobalField.ofType t).KeyShape key ∧ g.New seen key (GlobalField.ofType t)) := by
  unfold branch
  split
  case h_9 =>
    have hf : GlobalField.ofType t = .unknown := by
      unfold GlobalField.ofType
      split <;> first | rfl | contradiction
    rw [hf]
    exact ⟨not_escapes_unknown, unknownCheck_eq_ok.trans (by simp [GlobalField.KeyShape, New])⟩
  case h_2 =>
    refine ⟨not_escapes_hdKeypathCheck, hdKeypathCheck_eq_ok.trans ?_⟩
    simp [GlobalField.ofType, GlobalField.KeyShape, New]
  all_goals
    refine ⟨not_escapes_checkKey, checkKey_eq_ok.trans ?_⟩
    simp [GlobalField.ofType, GlobalField.KeyShape, New, and_comm]

theorem branch_store_iff {key : Bytes} {seen : List Bytes} {g : Global} {t : ℕ}
    {check : Except Exc Unit} {put : Bytes → Except Exc Global}
    (h : branch R key seen g t = .value check put) : GlobalField.rules.isCount (GlobalField.ofType t) = false ∧
      ∀ v, Escapes (put v) ↔ (GlobalField.ofType t).Breaks v := by
  unfold branch at h
  split at h
  all_goals cases h
  case h_9 =>
    have hf : GlobalField.ofType t = .unknown := by
      unfold GlobalField.ofType
      split <;> first | rfl | contradiction
    rw [hf]
    exact ⟨rfl, fun v => iff_of_false not_escapes_ok id⟩
  case h_1 => exact ⟨rfl, fun v => iff_of_false (not_escapes_bind_pure not_escapes_unsignedTx) id⟩
  case h_2 => exact ⟨rfl, fun v => escapes_bind_pure.trans escapes_hdKeypathStore⟩
  all_goals exact ⟨rfl, fun v => iff_of_false (not_escapes_bind_pure not_escapes_fixedInt) id⟩

/-- The value of a field that is no count is read as an entry exactly when it passes. -/
theorem isSome_ofRecord (R : Runtime) (key v : Bytes) {f : GlobalField}
    (hf : GlobalField.rules.isCount f = false) :
    (GlobalEntry.ofRecord R key v f).isSome = true ↔ f.Passes v ∧ ¬f.Breaks v := by
  cases f
  case inputCount | outputCount => cases hf
  case txVersion =>
    simp only [GlobalEntry.ofRecord, GlobalField.Passes, GlobalField.Breaks, not_false_eq_true, and_true]
    unfold unpack
    split_ifs with h <;> simp [h]
  case unsignedTx =>
    simp only [GlobalEntry.ofRecord, GlobalField.Passes, GlobalField.Breaks, Option.isSome_map,
      not_false_eq_true, and_true, Option.isSome_iff_exists, toOption_eq_some, unsignedTx_eq_ok]
  all_goals simp only [GlobalEntry.ofRecord, GlobalField.Passes, GlobalField.Breaks, Option.isSome_map,
    Option.isSome_some, true_and, not_false_eq_true, and_true, onlyEscapes_unpack.isSome_iff,
    onlyEscapes_keyOrigin.isSome_iff, escapes_unpack, escapes_keyOrigin, not_not]

/-! ### The object -/

/-- The transaction that was found. -/
def foundTx (g : Global) : Option CTransaction := if g.foundUnsignedTx then some g.psbt.tx else none

/-- The object stands for the records read so far. -/
structure StandsFor (rs : List MapRecord) (g : Global) : Prop where
  inputs : g.psbt.inputs = []
  outputs : g.psbt.outputs = []
  version : versionOf rs = g.psbt.version
  xpub : Tracks GlobalField.rules .xpub (List.drop 1) rs g.psbt.xpub
  unknown : Tracks GlobalField.rules .unknown id rs g.psbt.unknown
  tx : FieldRead 0x00 CTransaction.SpelledPlain rs g.foundTx
  txVersion : FieldRead 0x02 (fun v n => (ofLE v : ℤ) = n) rs g.psbt.txVersion
  fallbackLocktime : FieldRead 0x03 (fun v n => ofLE v = n) rs g.psbt.fallbackLocktime
  inputCount : FieldRead 0x04 Announces rs g.inputCount
  outputCount : FieldRead 0x05 Announces rs g.outputCount
  txModifiable : FieldRead 0x06 (fun v n => ofLE v = n) rs g.psbt.txModifiable

theorem standsFor_new : StandsFor [] { psbt := {} } where
  inputs := rfl
  outputs := rfl
  version := rfl
  xpub := tracks_nil
  unknown := tracks_nil
  tx := fieldRead_nil
  txVersion := fieldRead_nil
  fallbackLocktime := fieldRead_nil
  inputCount := fieldRead_nil
  outputCount := fieldRead_nil
  txModifiable := fieldRead_nil

theorem add_frame (g : Global) (e : GlobalEntry) :
    (g.add e).psbt.inputs = g.psbt.inputs ∧ (g.add e).psbt.outputs = g.psbt.outputs ∧
    (e.field ≠ .version → (g.add e).psbt.version = g.psbt.version) ∧
    (e.field ≠ .xpub → (g.add e).psbt.xpub = g.psbt.xpub) ∧
    (e.field ≠ .unknown → (g.add e).psbt.unknown = g.psbt.unknown) ∧
    (e.field ≠ .unsignedTx → (g.add e).foundTx = g.foundTx) ∧
    (e.field ≠ .txVersion → (g.add e).psbt.txVersion = g.psbt.txVersion) ∧
    (e.field ≠ .fallbackLocktime → (g.add e).psbt.fallbackLocktime = g.psbt.fallbackLocktime) ∧
    (e.field ≠ .inputCount → (g.add e).inputCount = g.inputCount) ∧
    (e.field ≠ .outputCount → (g.add e).outputCount = g.outputCount) ∧
    (e.field ≠ .txModifiable → (g.add e).psbt.txModifiable = g.psbt.txModifiable) := by
  cases e <;> refine ⟨rfl, rfl, ?_, ?_, ?_, ?_, ?_, ?_, ?_, ?_, ?_⟩ <;>
    first | exact fun _ => rfl | exact fun h => absurd rfl h

end PSBT.Global

variable {rs : List MapRecord} {key v : Bytes} {f : GlobalField} {e : GlobalEntry}

theorem GlobalEntry.field_of_ofRecord (h : ofRecord R key v f = some e) : e.field = f := by
  cases f <;> simp only [ofRecord] at h
  all_goals first
    | (cases h; rfl)
    | (obtain ⟨_, _, rfl⟩ := Option.map_eq_some_iff.1 h; rfl)

/-- The type of the fields whose key is one byte. -/
def GlobalField.type : GlobalField → UInt8
  | unsignedTx => 0x00
  | xpub => 0x01
  | txVersion => 0x02
  | fallbackLocktime => 0x03
  | inputCount => 0x04
  | outputCount => 0x05
  | txModifiable => 0x06
  | version => 0xfb
  | unknown => 0xff

theorem GlobalField.eq_type {n : ℕ} (h : ofType n = f) (hf : f ≠ unknown) : n = f.type.toNat := by
  subst h
  unfold ofType at hf ⊢
  split at hf <;> first | rfl | exact absurd rfl hf

/-- A key of a field that is no xpub and not unknown is the type of the field. -/
theorem eq_type (hkey : GlobalField.rules.HasField f key) (hshape : f.KeyShape key) (hf : f ≠ .unknown)
    (hxpub : f ≠ .xpub) : key = [f.type] := by
  have hpos := List.length_pos_iff.2 hkey.ne_nil
  have hlen : key.length = 1 := by
    cases f <;> first | contradiction | exact Nat.le_antisymm hshape hpos
  exact hkey.eq_single f.type hlen fun n hn => GlobalField.eq_type hn hf

theorem ofLE_of_unpack {k n : ℕ} (h : (unpack k v).toOption = some n) : ofLE v = n := by
  rw [toOption_eq_some, unpack] at h
  split_ifs at h
  cases h
  rfl

namespace PSBT.Global

variable {g : Global}

theorem StandsFor.add (h : StandsFor rs g) (hkey : GlobalField.rules.HasField f key)
    (hshape : f.KeyShape key) (he : GlobalEntry.ofRecord R key v f = some e)
    (hcount : GlobalField.rules.isCount f = true → ∃ n, Announces v n) :
    StandsFor ((key, v) :: rs) (g.add e) := by
  obtain ⟨hin, hout, hversion, hxpub, hunknown, htx, htxVersion, hlock, hinCount, houtCount, hmod⟩ :=
    add_frame g e
  rw [GlobalEntry.field_of_ofRecord he] at hversion hxpub hunknown htx htxVersion hlock hinCount houtCount hmod
  have hcounted {n : ℕ} (hf : GlobalField.rules.isCount f = true)
      (hv : (runOn deserCompactSize v).toOption = some n) : Announces v n := by
    obtain ⟨m, hm⟩ := hcount hf
    rw [runOn_of_exactly hm, toOption_ok] at hv
    cases hv
    exact hm
  refine ⟨hin.trans h.inputs, hout.trans h.outputs, ?_, ?_, ?_, ?_, ?_, ?_, ?_, ?_, ?_⟩
  · by_cases hf : f = .version
    · subst hf
      obtain rfl := eq_type hkey hshape (by decide) (by decide)
      obtain ⟨n, hn, rfl⟩ := Option.map_eq_some_iff.1 he
      rw [versionOf, GlobalField.type, List.lookup_cons_self]
      exact ofLE_of_unpack hn
    · have hne : key ≠ [0xfb] := ne_single (by decide) hkey (Ne.symm hf)
      rw [hversion hf, versionOf, List.lookup_cons, show ([0xfb] == key) = false by simpa using Ne.symm hne]
      exact h.version
  · by_cases hf : f = .xpub
    · subst hf
      obtain ⟨origin, -, rfl⟩ := Option.map_eq_some_iff.1 he
      exact h.xpub.set hkey origin
    · rw [hxpub hf]
      exact h.xpub.skip hkey hf
  · by_cases hf : f = .unknown
    · subst hf
      cases he
      exact h.unknown.set hkey v
    · rw [hunknown hf]
      exact h.unknown.skip hkey hf
  · by_cases hf : f = .unsignedTx
    · subst hf
      obtain rfl := eq_type hkey hshape (by decide) (by decide)
      obtain ⟨tx, hv, rfl⟩ := Option.map_eq_some_iff.1 he
      exact fieldRead_set (PSBT.unsignedTx_eq_ok.1 (toOption_eq_some.1 hv)).1
    · rw [htx hf]
      exact h.tx.skip (ne_single (by decide) hkey (Ne.symm hf))
  · by_cases hf : f = .txVersion
    · subst hf
      obtain rfl := eq_type hkey hshape (by decide) (by decide)
      obtain ⟨m, hm, rfl⟩ := Option.map_eq_some_iff.1 he
      obtain ⟨n, hn, ⟨⟩⟩ := Option.bind_eq_some_iff.1 hm
      exact fieldRead_set (congrArg _ (ofLE_of_unpack hn))
    · rw [htxVersion hf]
      exact h.txVersion.skip (ne_single (by decide) hkey (Ne.symm hf))
  · by_cases hf : f = .fallbackLocktime
    · subst hf
      obtain rfl := eq_type hkey hshape (by decide) (by decide)
      obtain ⟨n, hn, rfl⟩ := Option.map_eq_some_iff.1 he
      exact fieldRead_set (ofLE_of_unpack hn)
    · rw [hlock hf]
      exact h.fallbackLocktime.skip (ne_single (by decide) hkey (Ne.symm hf))
  · by_cases hf : f = .inputCount
    · subst hf
      obtain rfl := eq_type hkey hshape (by decide) (by decide)
      obtain ⟨n, hn, rfl⟩ := Option.map_eq_some_iff.1 he
      exact fieldRead_set (hcounted rfl hn)
    · rw [hinCount hf]
      exact h.inputCount.skip (ne_single (by decide) hkey (Ne.symm hf))
  · by_cases hf : f = .outputCount
    · subst hf
      obtain rfl := eq_type hkey hshape (by decide) (by decide)
      obtain ⟨n, hn, rfl⟩ := Option.map_eq_some_iff.1 he
      exact fieldRead_set (hcounted rfl hn)
    · rw [houtCount hf]
      exact h.outputCount.skip (ne_single (by decide) hkey (Ne.symm hf))
  · by_cases hf : f = .txModifiable
    · subst hf
      obtain rfl := eq_type hkey hshape (by decide) (by decide)
      obtain ⟨n, hn, rfl⟩ := Option.map_eq_some_iff.1 he
      exact fieldRead_set (ofLE_of_unpack hn)
    · rw [hmod hf]
      exact h.txModifiable.skip (ne_single (by decide) hkey (Ne.symm hf))

/-- A key is new to the object exactly when it is new after the records. -/
theorem StandsFor.new_iff (h : StandsFor rs g) (hkey : GlobalField.rules.HasField f key) :
    g.New (rs.map Prod.fst) key f ↔ GlobalField.rules.Fresh rs key f := by
  cases f
  case xpub => exact h.xpub.fresh_iff rfl
  case unknown => exact h.unknown.fresh_id_iff rfl hkey
  all_goals exact Iff.rfl

/-- The read loop of the global map follows the rules. -/
theorem follows (R : Runtime) : Follows GlobalField.rules (branch R) StandsFor := by
  intro rs g key t h ht
  have hkey : GlobalField.rules.HasField (GlobalField.ofType t) key := ⟨t, ht, rfl⟩
  obtain ⟨hescapes, hcheck⟩ := branch_check_iff R key (rs.map Prod.fst) g t
  rw [h.new_iff hkey] at hcheck
  have hstores := branch_store R key (rs.map Prod.fst) g t
  cases hbranch : branch R key (rs.map Prod.fst) g t with
  | value check put =>
    obtain ⟨hcount, hbreaks⟩ := branch_store_iff hbranch
    rw [hbranch] at hescapes hcheck hstores
    refine ⟨hcount, hescapes, hcheck, fun v => ⟨hbreaks v, ?_, ?_⟩⟩
    · have hv : (put v).toOption = _ := hstores v
      simp only [← toOption_eq_some, hv, ← Option.isSome_iff_exists, Option.isSome_map]
      exact isSome_ofRecord R key v hcount
    · intro st hc hst
      have hv : (put v).toOption = _ := hstores v
      rw [hst, toOption_ok, eq_comm, Option.map_eq_some_iff] at hv
      obtain ⟨e, he, rfl⟩ := hv
      refine h.add hkey (hcheck.1 hc).1 he fun hf => ?_
      rw [hcount] at hf
      cases hf
  | count check put =>
    have hfield := branch_count hbranch
    rw [hbranch] at hescapes hcheck hstores
    have hcount : GlobalField.rules.isCount (GlobalField.ofType t) = true := by
      rcases hfield with hf | hf <;> rw [hf] <;> rfl
    have hpasses (v : Bytes) : (GlobalField.ofType t).Passes v ∧ ¬(GlobalField.ofType t).Breaks v := by
      rcases hfield with hf | hf <;> rw [hf] <;> exact ⟨trivial, id⟩
    refine ⟨hcount, hescapes, hcheck, fun v => ⟨hpasses v, fun n hc hn => ?_⟩⟩
    have hv : (runOn deserCompactSize v).toOption.map put = _ := hstores v
    rw [runOn_of_exactly hn, toOption_ok, Option.map_some, eq_comm, Option.map_eq_some_iff] at hv
    obtain ⟨e, he, hadd⟩ := hv
    rw [← hadd]
    exact h.add hkey (hcheck.1 hc).1 he fun _ => ⟨n, hn⟩

/-! ### The maps asked for -/

/-- What the object asks of the maps behind the global map. -/
def asked (g : Global) : MapsAsked :=
  ⟨g.psbt.version, inputTotal g, outputTotal g, if g.psbt.version = 0 then
    g.psbt.tx.vin.map fun txin => serUint256 txin.prevout.hash else []⟩

theorem foundTx_eq_some {tx : CTransaction} :
    g.foundTx = some tx ↔ g.foundUnsignedTx = true ∧ g.psbt.tx = tx := by
  unfold foundTx
  split_ifs with h <;> simp [h]

theorem foundTx_eq_none : g.foundTx = none ↔ g.foundUnsignedTx = false := by
  unfold foundTx
  split_ifs with h <;> simp [h]

/-- A field that is absent from the records is absent from the object. -/
theorem lookup_eq_none_iff {α : Type} {t : UInt8} {P : Bytes → α → Prop} {o : Option α}
    (h : FieldRead t P rs o) : rs.lookup [t] = none ↔ o = none := not_iff_not.1 h.ne_none_iff

/-- The checks pass exactly when the records ask for maps, and these are the maps asked for. -/
theorem StandsFor.asks_iff (h : StandsFor rs g) {asked : MapsAsked} :
    AsksMaps rs asked ↔ checkVersion g = .ok () ∧ asked = g.asked := by
  rw [checkVersion_eq_ok]
  constructor
  · intro hasks
    cases hasks with
    | @v0 v tx hversion hv htx hnone =>
      have hversion' : g.psbt.version = 0 := h.version.symm.trans hversion
      obtain ⟨tx', hfound, htx'⟩ := h.tx.exists_of_lookup hv
      obtain rfl := htx.unique htx'
      obtain ⟨htrue, rfl⟩ := foundTx_eq_some.1 hfound
      have hin := (lookup_eq_none_iff h.inputCount).1 (hnone 0x04 (by decide))
      have hout := (lookup_eq_none_iff h.outputCount).1 (hnone 0x05 (by decide))
      refine ⟨Or.inl ⟨hversion', htrue, ?_, ?_, hin, hout, ?_⟩, ?_⟩
      · exact (lookup_eq_none_iff h.txVersion).1 (hnone 0x02 (by decide))
      · exact (lookup_eq_none_iff h.fallbackLocktime).1 (hnone 0x03 (by decide))
      · exact (lookup_eq_none_iff h.txModifiable).1 (hnone 0x06 (by decide))
      · rw [Global.asked, inputTotal, outputTotal, hin, hout, hversion']
        rfl
    | @v2 v n w m hversion htx htxVersion hv hn hw hm =>
      have hversion' : 2 ≤ g.psbt.version := h.version ▸ hversion
      obtain ⟨n', hin, hn'⟩ := h.inputCount.exists_of_lookup hv
      obtain ⟨m', hout, hm'⟩ := h.outputCount.exists_of_lookup hw
      obtain rfl := hn.unique hn'
      obtain rfl := hm.unique hm'
      refine ⟨Or.inr ⟨hversion', h.txVersion.ne_none_iff.1 htxVersion, by simp [hin], by simp [hout], ?_⟩, ?_⟩
      · exact foundTx_eq_none.1 ((lookup_eq_none_iff h.tx).1 htx)
      · rw [Global.asked, inputTotal, outputTotal, hin, hout, h.version, if_neg (by omega)]
        rfl
  · rintro ⟨⟨hversion, hok⟩ | ⟨hversion, hok⟩, rfl⟩
    · obtain ⟨v, hv, htx⟩ := h.tx.exists_of_some (foundTx_eq_some.2 ⟨hok.foundUnsignedTx, rfl⟩)
      rw [Global.asked, inputTotal, outputTotal, hok.inputCount, hok.outputCount, hversion]
      refine .v0 (h.version.trans hversion) hv htx fun t ht => ?_
      simp only [List.mem_cons, List.not_mem_nil, or_false] at ht
      rcases ht with rfl | rfl | rfl | rfl | rfl
      · exact (lookup_eq_none_iff h.txVersion).2 hok.txVersion
      · exact (lookup_eq_none_iff h.fallbackLocktime).2 hok.fallbackLocktime
      · exact (lookup_eq_none_iff h.inputCount).2 hok.inputCount
      · exact (lookup_eq_none_iff h.outputCount).2 hok.outputCount
      · exact (lookup_eq_none_iff h.txModifiable).2 hok.txModifiable
    · obtain ⟨n, hin⟩ := Option.ne_none_iff_exists'.1 hok.inputCount
      obtain ⟨m, hout⟩ := Option.ne_none_iff_exists'.1 hok.outputCount
      obtain ⟨v, hv, hn⟩ := h.inputCount.exists_of_some hin
      obtain ⟨w, hw, hm⟩ := h.outputCount.exists_of_some hout
      rw [Global.asked, inputTotal, outputTotal, hin, hout, ← h.version,
        if_neg (by rw [h.version]; omega)]
      refine .v2 (h.version ▸ hversion) ?_ (h.txVersion.ne_none_iff.2 hok.txVersion) hv hn hw hm
      exact (lookup_eq_none_iff h.tx).2 (foundTx_eq_none.2 hok.foundUnsignedTx)

end PSBT.Global

end Hwi
