import Hwi.Proofs.LockTime
import Hwi.Proofs.Framing

/-! What holds of a PSBT that the parser accepts. -/

namespace Hwi

open Reader

/-! ### What the parser has checked of an input -/

namespace PartiallySignedInput

/-- The outpoint and the lock times of an input that was read. -/
structure OutpointChecked (i : PartiallySignedInput) : Prop where
  prevTxid : i.prevTxid = [] ∨ i.prevTxid.length = 32
  locks : i.LocksInRange

theorem OutpointChecked.add {R : Runtime} {i : PartiallySignedInput} {e : InputEntry}
    (he : e.Parsed R) (h : i.OutpointChecked) : (i.add e).OutpointChecked := by
  obtain ⟨htxid, htime, hheight⟩ := h
  obtain ⟨key, v, hrec⟩ := he
  cases e <;> simp only [InputEntry.field, InputEntry.ofRecord] at hrec
  case prevTxid txid =>
    split_ifs at hrec with hlen
    cases hrec
    exact ⟨Or.inr hlen, ⟨htime, hheight⟩⟩
  case timeLocktime n =>
    obtain ⟨m, -, hm⟩ := Option.bind_eq_some_iff.1 hrec
    split_ifs at hm with hlt
    cases hm
    refine ⟨htxid, ⟨fun t ht => ?_, hheight⟩⟩
    cases ht
    exact Nat.not_lt.1 hlt
  case heightLocktime n =>
    obtain ⟨m, -, hm⟩ := Option.bind_eq_some_iff.1 hrec
    split_ifs at hm with hout
    cases hm
    refine ⟨htxid, ⟨htime, fun h hh => ?_⟩⟩
    cases hh
    omega
  all_goals exact ⟨htxid, ⟨htime, hheight⟩⟩

/-- What holds of an input that the read loop returns. -/
theorem outpointChecked_of_readMap {R : Runtime} {version : ℕ} {i : PartiallySignedInput}
    {f f' : Bytes} (h : readMap R (branch R) { version } f = .ok i f') : i.OutpointChecked := by
  obtain ⟨rs, stop, hrun⟩ := readMap_eq_ok.1 h
  obtain ⟨es, hes, rfl⟩ := (format R).exists_entries hrun
  have hfresh : ({ version } : PartiallySignedInput).OutpointChecked :=
    ⟨Or.inl rfl, ⟨by rintro t ⟨⟩, by rintro h ⟨⟩⟩⟩
  refine store.addAll_invariant_of (Q := InputEntry.Parsed R) (fun s e he hs => hs.add he) ?_ hfresh
  intro e he
  obtain ⟨r, -, t, -, hrec⟩ := exists_of_forall₂_right hes he
  exact InputEntry.parsed_of_ofRecord hrec

theorem OutpointChecked.of_readInput {R : Runtime} {p : PSBT} {k : ℕ} {i : PartiallySignedInput}
    {f f' : Bytes} (h : PSBT.readInput R p k f = .ok i f') : i.OutpointChecked := by
  obtain ⟨a, txid, ha, -, hcheck⟩ := PSBT.readInput_eq_ok.1 h
  obtain ⟨htxid, htime, hheight⟩ := outpointChecked_of_readMap (PSBT.deserialize_input_readMap ha)
  rcases PSBT.checkUtxoHash_eq_ok.1 hcheck with ⟨-, rfl⟩ | ⟨tx, tx', -, -, -, rfl⟩
  · exact ⟨htxid, htime, hheight⟩
  · exact ⟨htxid, htime, hheight⟩

end PartiallySignedInput

/-! ### The PSBT -/

namespace PSBT

variable {R : Runtime} {p : PSBT}

/-- Every item of a loop over maps was read by the reader of its index. -/
theorem exists_of_readWhile {α : Type} {item : ℕ → Read α} {n i : ℕ} {f f' : Bytes} {l : List α}
    (h : readWhile item n i f = .ok l f') (k : ℕ) (a : α) (ha : l[k]? = some a) :
    ∃ s s', item (i + k) s = .ok a s' := by
  induction n generalizing i f l k with
  | zero =>
    cases h
    cases ha
  | succ n ih =>
    rw [readWhile_succ] at h
    split_ifs at h
    · cases h
      cases ha
    · obtain ⟨b, s, hb, h⟩ := Reader.bind_eq_ok.1 h
      obtain ⟨rest, s', hrest, hpure⟩ := Reader.bind_eq_ok.1 h
      cases hpure
      cases k with
      | zero =>
        cases ha
        exact ⟨f, s, hb⟩
      | succ k =>
        obtain ⟨t, t', ht⟩ := ih hrest k ha
        rw [Nat.add_assoc, Nat.add_comm 1 k] at ht
        exact ⟨t, t', ht⟩

theorem cacheUnsignedTxPieces_version {p' : PSBT} (h : p.cacheUnsignedTxPieces = .ok p') :
    p'.version = p.version := by
  unfold cacheUnsignedTxPieces at h
  split_ifs at h
  · obtain ⟨inputs, -, h⟩ := bind_eq_ok.1 h
    obtain ⟨outputs, -, h⟩ := bind_eq_ok.1 h
    cases h
    rfl
  · cases h
    rfl

/-- The global transaction is taken only without signatures. -/
theorem unsignedTx_blank {v : Bytes} {tx : CTransaction} (h : unsignedTx R v = .ok tx) :
    ∀ txin ∈ tx.vin, txin.scriptSig = [] := by
  unfold unsignedTx at h
  split at h
  · cases h
  · rw [ite_error_eq_ok, ite_error_eq_ok] at h
    obtain ⟨-, hany, h⟩ := h
    cases h
    intro txin hmem
    by_contra hne
    apply hany
    rw [List.any_eq_true]
    exact ⟨txin, hmem, by simp [hne]⟩

theorem Global.blank_of_readMap {g : Global} {f f' : Bytes}
    (h : readMap R (branch R) { psbt := {} } f = .ok g f') : ∀ txin ∈ g.psbt.tx.vin, txin.scriptSig = [] := by
  obtain ⟨rs, stop, hrun⟩ := readMap_eq_ok.1 h
  obtain ⟨es, hes, rfl⟩ := (Global.format R).exists_entries hrun
  have hstart : ∀ txin ∈ ({ psbt := {} } : Global).psbt.tx.vin, txin.scriptSig = [] := by rintro _ ⟨⟩
  refine Global.store.addAll_invariant_of (P := fun g => ∀ txin ∈ g.psbt.tx.vin, txin.scriptSig = [])
    (Q := fun e => ∀ tx, e = .unsignedTx tx → ∀ txin ∈ tx.vin, txin.scriptSig = [])
    (fun g e he hg => ?_) (fun e he => ?_) hstart
  · cases e with
    | unsignedTx tx => exact he tx rfl
    | _ => exact hg
  · rintro tx rfl
    obtain ⟨r, -, t, -, hrec⟩ := exists_of_forall₂_right hes he
    have hfield : GlobalEntry.ofRecord R r.key r.value (GlobalField.ofType t) = some (.unsignedTx tx) := hrec
    cases hf : GlobalField.ofType t <;> rw [hf] at hfield <;>
      simp only [GlobalEntry.ofRecord, Option.map_eq_some_iff, reduceCtorEq, and_false, exists_false,
        Option.some.injEq] at hfield
    obtain ⟨tx', htx, heq⟩ := hfield
    cases heq
    exact unsignedTx_blank (toOption_eq_some.1 htx)

/-- Reading the maps leaves the transaction as the global map has it. -/
theorem cacheUnsignedTxPieces_tx {p' : PSBT} (h : p.cacheUnsignedTxPieces = .ok p') : p'.tx = p.tx := by
  unfold cacheUnsignedTxPieces at h
  split_ifs at h
  · obtain ⟨inputs, -, h⟩ := bind_eq_ok.1 h
    obtain ⟨outputs, -, h⟩ := bind_eq_ok.1 h
    cases h
    rfl
  · cases h
    rfl

theorem tx_blank_of_deserialize {s : Str} (h : deserialize R {} s = .ok p) :
    ∀ txin ∈ p.tx.vin, txin.scriptSig = [] := by
  obtain ⟨bs, left, -, h⟩ := deserialize_eq_ok.1 h
  obtain ⟨-, g, f₁, inputs, f₂, outputs, hg, -, -, -, hcache⟩ := deserializeStream_eq_ok.1 h
  rw [cacheUnsignedTxPieces_tx hcache]
  exact Global.blank_of_readMap hg

/-- The inputs of a PSBT that is accepted as version 2 or above. -/
theorem outpointChecked_of_deserialize {s : Str} (h : deserialize R {} s = .ok p)
    (hv : p.version ≠ 0) : ∀ i ∈ p.inputs, i.OutpointChecked := by
  obtain ⟨bs, left, -, h⟩ := deserialize_eq_ok.1 h
  obtain ⟨-, g, f₁, inputs, f₂, outputs, hg, -, hin, -, hcache⟩ := deserializeStream_eq_ok.1 h
  have hversion := cacheUnsignedTxPieces_version hcache
  rw [cacheUnsignedTxPieces_of_ne (hversion ▸ hv)] at hcache
  cases hcache
  obtain ⟨ins, hins, -, rfl⟩ := readInputs_eq_ok.1 hin
  intro i hi
  rw [(Global.untouched_of_readMap hg).inputs, List.nil_append] at hi
  obtain ⟨k, hk⟩ := List.mem_iff_getElem?.1 hi
  obtain ⟨t, t', ht⟩ := exists_of_readWhile hins k i hk
  exact .of_readInput ht

end PSBT

end Hwi
