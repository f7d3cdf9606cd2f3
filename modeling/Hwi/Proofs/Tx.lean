import Hwi.Format.Tx
import Hwi.Lib.Result
import Hwi.Proofs.Serialize

/-! The codecs of `tx.py` and `key.py` undo each other. -/

namespace Hwi

open Reader

theorem pack_natCast {k n : ℕ} (h : n < 256 ^ k) : pack k n = .ok (toLE k n) := by
  have h' : (n : ℤ) < 256 ^ k := by exact_mod_cast h
  rw [pack, if_pos ⟨by omega, h'⟩, Int.toNat_natCast]

theorem pack_four {n : ℕ} (h : n < 2 ^ 32) : pack 4 n = .ok (toLE 4 n) :=
  pack_natCast (by omega)

theorem packSigned_ok {k : ℕ} {n : ℤ} (h : SignedFits k n) :
    packSigned k n = .ok (toSignedLE k n) := if_pos h

theorem exactly_readFour {n : ℕ} (h : n < 2 ^ 32) : Exactly (readInt 4) (toLE 4 n) n :=
  exactly_readInt (by omega)

theorem serVector_ok {α : Type} {serialize : α → Except Exc Bytes} {enc : α → Bytes} {v : List α}
    (h : ∀ a ∈ v, serialize a = .ok (enc a)) : serVector serialize v = .ok (vectorBytes enc v) := by
  rw [serVector, mapM_ok h]
  simp [vectorBytes, List.flatMap_def]

/-! ### Inputs, outputs and witnesses -/

theorem COutPoint.serialize_ok {o : COutPoint} (h : o.Valid) : o.serialize = .ok o.bytes := by
  rw [serialize, pack_four h.2]
  rfl

theorem COutPoint.exactly_deserialize {o : COutPoint} (h : o.Valid) :
    Exactly deserialize o.bytes o :=
  (exactly_deserUint256 h.1).bind (exactly_readFour h.2).bind_pure

theorem CTxIn.serialize_ok {i : CTxIn} (h : i.Valid) : i.serialize = .ok i.bytes := by
  rw [serialize, COutPoint.serialize_ok h.prevout, ok_bind, pack_four h.nSequence, ok_bind,
    List.append_assoc]
  rfl

theorem CTxIn.exactly_deserialize {R : Runtime} {i : CTxIn} (h : i.Valid) :
    Exactly (deserialize R) i.bytes i :=
  (COutPoint.exactly_deserialize h.prevout).bind
    ((exactly_deserString h.scriptSig).bind (exactly_readFour h.nSequence).bind_pure)

theorem CTxOut.serialize_ok {o : CTxOut} (h : o.Valid) : o.serialize = .ok o.bytes := by
  rw [serialize, packSigned_ok h.nValue]
  rfl

theorem CTxOut.exactly_deserialize {R : Runtime} {o : CTxOut} (h : o.Valid) :
    Exactly (deserialize R) o.bytes o :=
  (exactly_readSigned h.nValue).bind (exactly_deserString h.scriptPubKey).bind_pure

theorem CTxInWitness.exactly_deserialize {R : Runtime} {w : CTxInWitness} (h : w.Valid) :
    Exactly (deserialize R) w.serialize w :=
  (exactly_deserStringVector h.size h.items).bind_pure

/-! ### Transactions -/

namespace CTransaction

variable {R : Runtime} {t : CTransaction}

theorem serializeWithoutWitness_ok (h : t.OnWire) : t.serializeWithoutWitness = .ok t.bytes := by
  rw [serializeWithoutWitness, packSigned_ok h.nVersion, ok_bind,
    serVector_ok fun i hi => CTxIn.serialize_ok (h.vin i hi), ok_bind,
    serVector_ok fun o ho => CTxOut.serialize_ok (h.vout o ho), ok_bind, pack_four h.nLockTime,
    ok_bind, List.append_assoc, List.append_assoc]
  rfl

theorem serializeWithWitness_ok (h : t.OnWire) : t.serializeWithWitness = .ok t.witnessBytes := by
  rw [serializeWithWitness, packSigned_ok h.nVersion, ok_bind,
    serVector_ok fun i hi => CTxIn.serialize_ok (h.vin i hi), ok_bind,
    serVector_ok fun o ho => CTxOut.serialize_ok (h.vout o ho), ok_bind, pack_four h.nLockTime,
    ok_bind, witnessBytes]
  by_cases hnull : t.witIsNull
  · simp [hnull, bytes]
  · simp [hnull]

theorem exactly_vin (h : t.OnWire) :
    Exactly (deserVector (CTxIn.deserialize R)) (vectorBytes CTxIn.bytes t.vin) t.vin :=
  exactly_deserVector h.vinSize fun i hi => CTxIn.exactly_deserialize (h.vin i hi)

theorem exactly_vout (h : t.OnWire) :
    Exactly (deserVector (CTxOut.deserialize R)) (vectorBytes CTxOut.bytes t.vout) t.vout :=
  exactly_deserVector h.voutSize fun o ho => CTxOut.exactly_deserialize (h.vout o ho)

theorem exactly_nVersion (h : t.OnWire) :
    Exactly (readSigned 4) (toSignedLE 4 t.nVersion) t.nVersion :=
  exactly_readSigned h.nVersion

theorem exactly_deserializeWithoutWitness (h : t.OnWire) :
    Exactly (deserializeWithoutWitness R) t.bytes t.withoutWitness :=
  (exactly_nVersion h).bind ((exactly_vin h).bind ((exactly_vout h).bind
    (exactly_readFour h.nLockTime).bind_pure))

theorem fitWitness_length (t : CTransaction) : t.fitWitness.length = t.vin.length := by
  simp only [fitWitness, List.length_append, List.length_take, List.length_replicate]
  omega

theorem fitWitness_valid (h : t.OnWire) : ∀ w ∈ t.fitWitness, w.Valid := by
  intro w hw
  rcases List.mem_append.1 hw with hw | hw
  · exact h.wit w (List.mem_of_mem_take hw)
  · rw [List.eq_of_mem_replicate hw]
    exact ⟨by decide, by simp⟩

theorem exactly_witness (h : t.OnWire) :
    Exactly (readN (CTxInWitness.deserialize R) t.vin.length)
      (t.fitWitness.flatMap CTxInWitness.serialize) t.fitWitness := by
  rw [← fitWitness_length t]
  exact exactly_readN fun w hw => CTxInWitness.exactly_deserialize (fitWitness_valid h w hw)

/-- With an input there is no marker to see in the bytes without the witness. -/
theorem exactly_deserialize_bytes (h : t.OnWire) (hvin : t.vin ≠ []) :
    Exactly (deserialize R {}) t.bytes t.withoutWitness := by
  have hlen : t.vin.length ≠ 0 := by simpa using hvin
  refine (exactly_nVersion h).bind ((exactly_vin h).bind ?_)
  rw [if_neg hlen]
  refine (exactly_vout h).bind ?_
  change Exactly (readInt 4 >>= fun n =>
    pure (CTransaction.mk t.nVersion t.vin t.vout [] n none none)) _ _
  exact (exactly_readFour h.nLockTime).bind_pure

theorem asRead_of_null (hnull : t.witIsNull) : t.asRead = t.withoutWitness := by
  simp [asRead, withoutWitness, hnull]

/-- The reader sees no input list first where the witness form has its marker. -/
theorem exactly_deserialize (h : t.OnWire) (hvin : t.vin ≠ []) :
    Exactly (deserialize R {}) t.witnessBytes t.asRead := by
  unfold witnessBytes
  split_ifs with hnull
  · rw [asRead_of_null hnull]
    exact exactly_deserialize_bytes h hvin
  · have hread :
        t.asRead = ⟨t.nVersion, t.vin, t.vout, t.fitWitness, t.nLockTime, none, none⟩ := by
      simp [asRead, hnull]
    have hempty : Exactly (deserVector (CTxIn.deserialize R)) (vectorBytes CTxIn.bytes []) [] :=
      exactly_deserVector (by decide) (by simp)
    rw [vectorBytes, List.flatMap_nil, List.append_nil, List.length_nil] at hempty
    have hflags : Exactly (readInt 1) (toLE 1 1) 1 := exactly_readInt (by decide)
    rw [hread]
    refine (exactly_nVersion h).bind (hempty.bind ?_)
    refine hflags.bind ((exactly_vin h).bind ((exactly_vout h).bind ?_))
    change Exactly (readN (CTxInWitness.deserialize R) t.vin.length >>= fun w => readInt 4 >>= fun n =>
      pure (CTransaction.mk t.nVersion t.vin t.vout w n none none)) _ _
    exact (exactly_witness h).bind (exactly_readFour h.nLockTime).bind_pure

theorem rehash_ok {R : Runtime} (h : t.OnWire) : t.rehash R = .ok (t.hashed R) := by
  rw [rehash, serializeWithoutWitness_ok h, ok_bind, uint256FromStr,
    List.take_of_length_le (by simp), unpack, if_pos (by simp)]
  rfl

/-- The caches do not change what is hashed. -/
theorem rehash_rehash {R : Runtime} {t' : CTransaction} (h : t.rehash R = .ok t') :
    t'.rehash R = .ok t' := by
  obtain ⟨r, hr, h⟩ := bind_eq_ok.1 h
  obtain ⟨sha256, hs, h⟩ := bind_eq_ok.1 h
  cases h
  have hr' : CTransaction.serializeWithoutWitness
      { t with sha256 := some sha256, hash := some (R.hash256 r) } = .ok r := hr
  rw [rehash, hr', ok_bind, hs]
  rfl

/-! #### What is read back is the same transaction -/

@[simp] theorem asRead_vin : t.asRead.vin = t.vin := rfl

theorem fitWitness_of_length (h : t.vtxinwit.length = t.vin.length) : t.fitWitness = t.vtxinwit := by
  simp [fitWitness, h]

theorem all_isNull_iff {l : List CTxInWitness} :
    l.all CTxInWitness.isNull = true ↔ l = List.replicate l.length ⟨[]⟩ := by
  rw [List.all_eq_true, List.eq_replicate_iff]
  constructor
  · intro h
    refine ⟨rfl, fun w hw => ?_⟩
    obtain ⟨stack⟩ := w
    simpa [CTxInWitness.isNull] using h _ hw
  · rintro ⟨-, h⟩ w hw
    rw [h w hw]
    rfl

theorem fitWitness_of_null (hnull : t.witIsNull) :
    t.fitWitness = List.replicate t.vin.length ⟨[]⟩ := by
  rw [fitWitness, all_isNull_iff.1 hnull, List.take_replicate, List.length_replicate,
    List.replicate_append_replicate]
  congr 1
  omega

theorem asRead_same (t : CTransaction) : t.Same t.asRead := by
  refine ⟨rfl, rfl, rfl, ?_, rfl⟩
  by_cases hnull : t.witIsNull
  · rw [fitWitness_of_null hnull]
    simp [asRead, hnull, fitWitness]
  · have hfit : t.asRead.vtxinwit = t.fitWitness := by simp [asRead, hnull]
    rw [fitWitness_of_length (t := t.asRead), hfit]
    rw [hfit]
    exact fitWitness_length t

theorem asRead_valid (h : t.Valid) : t.asRead.Valid where
  nVersion := h.nVersion
  vin := h.vin
  vinSize := h.vinSize
  vout := h.vout
  voutSize := h.voutSize
  wit := by
    intro w hw
    by_cases hnull : t.witIsNull
    · simp [asRead, hnull] at hw
    · have hfit : t.asRead.vtxinwit = t.fitWitness := by simp [asRead, hnull]
      exact fitWitness_valid h.onWire w (hfit ▸ hw)
  witSize := by
    by_cases hnull : t.witIsNull
    · simp [asRead, hnull]
    · have hfit : t.asRead.vtxinwit = t.fitWitness := by simp [asRead, hnull]
      rw [hfit, fitWitness_length t]
      exact le_refl _
  nLockTime := h.nLockTime

/-! #### Round trips -/

/-- The id that is computed for a transaction, as an integer and as its bytes. -/
def txid (R : Runtime) (t : CTransaction) : Except Exc (Option ℕ × Option Bytes) :=
  (t.rehash R).map fun t => (t.sha256, t.hash)

theorem txid_ok {R : Runtime} (h : t.OnWire) :
    txid R t = .ok (some (ofLE (R.hash256 t.bytes)), some (R.hash256 t.bytes)) := by
  rw [txid, rehash_ok h]
  rfl

/-- The id of a transaction that has none cached is computed from scratch. -/
theorem calcSha256_of_none {R : Runtime} (h : t.sha256 = none) : t.calcSha256 R = t.rehash R := by
  unfold calcSha256 rehash
  rw [h]
  cases t.serializeWithoutWitness with
  | error e => rfl
  | ok r => rfl

theorem withoutWitness_onWire (h : t.OnWire) : t.withoutWitness.OnWire :=
  ⟨h.nVersion, h.vin, h.vinSize, h.vout, h.voutSize, by simp [withoutWitness], h.nLockTime⟩

theorem asRead_onWire (h : t.OnWire) : t.asRead.OnWire := by
  refine ⟨h.nVersion, h.vin, h.vinSize, h.vout, h.voutSize, fun w hw => ?_, h.nLockTime⟩
  unfold asRead at hw
  dsimp only at hw
  split_ifs at hw with hnull
  · exact absurd hw List.not_mem_nil
  · exact fitWitness_valid h w hw

theorem afterWitness_onWire (h : t.OnWire) : t.afterWitness.OnWire := by
  unfold afterWitness
  split_ifs with hnull
  · exact h
  · exact ⟨h.nVersion, h.vin, h.vinSize, h.vout, h.voutSize, fitWitness_valid h, h.nLockTime⟩

theorem afterWitness_bytes (t : CTransaction) : t.afterWitness.bytes = t.bytes := by
  unfold afterWitness
  split_ifs with hnull
  · rfl
  · rfl

/-- A transaction with an input is read back from both of its forms, each of which is
used up, and every object on the way has its id. -/
theorem deserialize_of_serialize (R : Runtime) (h : t.OnWire) (hvin : t.vin ≠ []) :
    (∃ b t', t.serializeWithWitness = .ok b ∧ (∀ rest, deserialize R {} (b ++ rest) = .ok t' rest) ∧
      t.Same t' ∧ (t'.vtxinwit = [] ∨ t'.vtxinwit.length = t'.vin.length) ∧
      txid R t' = txid R t ∧ t'.calcSha256 R = t'.rehash R) ∧
    (∃ b t', t.serializeWithoutWitness = .ok b ∧ (∀ rest, deserialize R {} (b ++ rest) = .ok t' rest) ∧
      (∀ rest, deserializeWithoutWitness R (b ++ rest) = .ok t' rest) ∧
      Same { t with vtxinwit := [] } t' ∧ t'.vtxinwit = [] ∧
      txid R t' = txid R t ∧ t'.calcSha256 R = t'.rehash R) ∧
    txid R t.afterWitness = txid R t := by
  refine ⟨⟨t.witnessBytes, t.asRead, serializeWithWitness_ok h, exactly_deserialize h hvin,
    asRead_same t, ?_, ?_, calcSha256_of_none rfl⟩, ⟨t.bytes, t.withoutWitness,
    serializeWithoutWitness_ok h, exactly_deserialize_bytes h hvin,
    exactly_deserializeWithoutWitness h, ⟨rfl, rfl, rfl, rfl, rfl⟩, rfl, ?_,
    calcSha256_of_none rfl⟩, ?_⟩
  · unfold asRead
    dsimp only
    split_ifs with hnull
    · exact Or.inl rfl
    · exact Or.inr (fitWitness_length t)
  · rw [txid_ok h, txid_ok (asRead_onWire h)]
    rfl
  · rw [txid_ok h, txid_ok (withoutWitness_onWire h)]
    rfl
  · rw [txid_ok h, txid_ok (afterWitness_onWire h), afterWitness_bytes]

/-- A transaction with more witness stacks than inputs. -/
def sampleWitness : CTransaction :=
  { vin := [{}], vout := [{ nValue := 1, scriptPubKey := [0x51] }], vtxinwit := [⟨[[1, 2]]⟩, ⟨[[]]⟩] }

theorem deserialize_of_serialize_sample : ∃ b t', sampleWitness.serializeWithWitness = .ok b ∧
    (∀ rest, deserialize Runtime.zeros {} (b ++ rest) = .ok t' rest) ∧ sampleWitness.Same t' := by
  have hwire : sampleWitness.OnWire :=
    ⟨by decide, List.forall_mem_singleton.2 ⟨⟨by decide, by decide⟩, by decide, by decide⟩,
      by decide, List.forall_mem_singleton.2 ⟨by decide, by decide⟩, by decide,
      List.forall_mem_cons.2 ⟨⟨by decide, by decide⟩, List.forall_mem_singleton.2 ⟨by decide, by decide⟩⟩,
      by decide⟩
  obtain ⟨⟨b, t', hb, hread, hsame, -⟩, -, -⟩ := deserialize_of_serialize Runtime.zeros hwire (by decide)
  exact ⟨b, t', hb, hread, hsame⟩

end CTransaction

end Hwi
