import Hwi.Proofs.Accepted
import Hwi.Spec.PsbtVersion

/-! Downgrading a PSBT: the transaction it gets is the one BIP 370 describes, and
a failed downgrade changes nothing. -/

namespace Hwi

open Reader

/-! ### The transaction of a version 2 PSBT -/

/-- The input BIP 370 defines from an input map: the outpoint, an empty scriptSig,
and the final sequence number where none is given. -/
structure Bip370TxIn (i : PartiallySignedInput) (txin : CTxIn) : Prop where
  txid : serUint256 txin.prevout.hash = i.prevTxid
  hash_lt : txin.prevout.hash < 2 ^ 256
  n : i.prevOut = some txin.prevout.n
  scriptSig : txin.scriptSig = []
  nSequence : txin.nSequence = i.sequence.getD 0xffffffff

/-- The output BIP 370 defines from an output map. -/
structure Bip370TxOut (o : PartiallySignedOutput) (txout : CTxOut) : Prop where
  nValue : o.amount = some txout.nValue
  scriptPubKey : txout.scriptPubKey = o.script

/-- The transaction BIP 370 defines from the version 2 fields of a PSBT. -/
structure Bip370Tx (p : PSBT) (tx : CTransaction) : Prop where
  nVersion : p.txVersion = some tx.nVersion
  nLockTime : Bip370LockTime p.inputs p.fallbackLocktime (.ok tx.nLockTime)
  vin : List.Forall₂ Bip370TxIn p.inputs tx.vin
  vout : List.Forall₂ Bip370TxOut p.outputs tx.vout
  vtxinwit : tx.vtxinwit = []

namespace PSBT

variable {R : Runtime} {p : PSBT} {tx : CTransaction}

theorem unsignedTxIn_eq_ok {i : PartiallySignedInput} {txin : CTxIn}
    (hi : i.OutpointChecked) (h : unsignedTxIn i = .ok txin) : Bip370TxIn i txin := by
  unfold unsignedTxIn at h
  split at h
  · cases h
  · rename_i n hn
    obtain ⟨hash, hhash, h⟩ := bind_eq_ok.1 h
    cases h
    -- an empty id has no 32 bytes to take
    have htxid : i.prevTxid.length = 32 := by
      rcases hi.prevTxid with hnil | hlen
      · rw [hnil] at hhash
        cases hhash
      · exact hlen
    rw [uint256FromStr, List.take_of_length_le htxid.le, unpack, if_pos htxid] at hhash
    cases hhash
    refine ⟨?_, ?_, hn, rfl, rfl⟩
    · rw [serUint256_eq]
      exact toLE_ofLE_of_length htxid
    · have hlt := ofLE_lt i.prevTxid
      rw [htxid] at hlt
      calc ofLE i.prevTxid < 256 ^ 32 := hlt
        _ = 2 ^ 256 := by norm_num

theorem unsignedTxOut_eq_ok {o : PartiallySignedOutput} {txout : CTxOut}
    (h : unsignedTxOut o = .ok txout) : Bip370TxOut o txout := by
  unfold unsignedTxOut at h
  split at h
  · cases h
  · rename_i amount hamount
    cases h
    exact ⟨hamount, rfl⟩

/-- A transaction that `get_unsigned_tx` builds is the one BIP 370 defines. -/
theorem getUnsignedTx_bip370 (hv : p.version ≠ 0) (hin : ∀ i ∈ p.inputs, i.OutpointChecked)
    (h : p.getUnsignedTx R = .ok tx) : Bip370Tx p tx := by
  rw [getUnsignedTx, if_neg hv] at h
  split at h
  · cases h
  · rename_i txVersion hversion
    obtain ⟨nLockTime, hlock, h⟩ := bind_eq_ok.1 h
    obtain ⟨vin, hvin, h⟩ := bind_eq_ok.1 h
    obtain ⟨vout, hvout, h⟩ := bind_eq_ok.1 h
    obtain ⟨r, -, h⟩ := bind_eq_ok.1 h
    obtain ⟨sha256, -, h⟩ := bind_eq_ok.1 h
    cases h
    have hrules := computeLockTime_rules fun i hi => (hin i hi).locks
    rw [hlock] at hrules
    refine ⟨hversion, hrules, ?_, ?_, rfl⟩
    · exact (forall₂_and_mem (mapM_eq_ok.1 hvin)).imp fun i txin ⟨htxin, hi⟩ =>
        unsignedTxIn_eq_ok (hin i hi) htxin
    · exact (mapM_eq_ok.1 hvout).imp fun o txout => unsignedTxOut_eq_ok

/-! ### The conversions -/

/-- The PSBT with another version on all three levels. -/
def withVersion (p : PSBT) (version : ℕ) : PSBT :=
  { p with
    version
    inputs := p.inputs.map fun i => { i with version }
    outputs := p.outputs.map fun o => { o with version } }

theorem convertVersion_run (version : ℕ) :
    (convertVersion version).run p = .ok () (p.withVersion version) := rfl

theorem convertToV0_run_error {e : Exc} (h : p.getUnsignedTx R = .error e) :
    (convertToV0 R).run p = .error e p := by
  simp only [convertToV0, EStateM.run_bind, EStateM.run_get, h]
  rfl

theorem convertToV0_run_ok (h : p.getUnsignedTx R = .ok tx) :
    (convertToV0 R).run p = .ok () { p.withVersion 0 with tx, explicitVersion := false } := by
  simp only [convertToV0, EStateM.run_bind, EStateM.run_get, h]
  rfl

theorem withVersion_withVersion (v w : ℕ) : (p.withVersion v).withVersion w = p.withVersion w := by
  simp [withVersion, Function.comp_def]

theorem computeLockTimeLoop_map {f : PartiallySignedInput → PartiallySignedInput}
    (hf : ∀ i, (f i).timeLocktime = i.timeLocktime ∧ (f i).heightLocktime = i.heightLocktime)
    (inputs : List PartiallySignedInput) (timeLock heightLock : Option ℕ) :
    computeLockTimeLoop (inputs.map f) timeLock heightLock =
      computeLockTimeLoop inputs timeLock heightLock := by
  induction inputs generalizing timeLock heightLock with
  | nil => rfl
  | cons i inputs ih =>
    obtain ⟨htime, hheight⟩ := hf i
    simp only [List.map_cons, computeLockTimeLoop, htime, hheight, ih]

/-- The version 2 fields decide the transaction, whatever `version ≠ 0` says. -/
theorem getUnsignedTx_withVersion {v : ℕ} (hp : p.version ≠ 0) (hv : v ≠ 0) :
    (p.withVersion v).getUnsignedTx R = p.getUnsignedTx R := by
  have hlock : (p.withVersion v).computeLockTime = p.computeLockTime := by
    have hloop := computeLockTimeLoop_map (f := fun i => { i with version := v })
      (fun i => ⟨rfl, rfl⟩) p.inputs (some 0) (some 0)
    rw [computeLockTime, computeLockTime, ← hloop]
    rfl
  have hvin : (p.withVersion v).inputs.mapM unsignedTxIn = p.inputs.mapM unsignedTxIn := by
    rw [withVersion, List.mapM_map]
    rfl
  have hvout : (p.withVersion v).outputs.mapM unsignedTxOut = p.outputs.mapM unsignedTxOut := by
    rw [withVersion, List.mapM_map]
    rfl
  have hversion : (p.withVersion v).version ≠ 0 := hv
  rw [getUnsignedTx, getUnsignedTx, if_neg hp, if_neg hversion, hlock, hvin, hvout]
  rfl

/-- A downgraded PSBT that is upgraded again still describes the transaction. -/
theorem convertToV2_convertToV0_run (hv : p.version ≠ 0) (h : p.getUnsignedTx R = .ok tx) :
    (do convertToV2; convertToV0 R).run { p.withVersion 0 with tx, explicitVersion := false } =
      .ok () { p.withVersion 0 with tx, explicitVersion := false } := by
  have htwo : (convertToV2).run { p.withVersion 0 with tx, explicitVersion := false } =
      .ok () { p.withVersion 2 with tx, explicitVersion := false } := by
    rw [convertToV2, convertVersion_run, ← withVersion_withVersion (p := p) 0 2]
    rfl
  have hget : PSBT.getUnsignedTx R { p.withVersion 2 with tx, explicitVersion := false } = .ok tx := by
    rw [← h, ← getUnsignedTx_withVersion (R := R) hv (by decide : 2 ≠ 0)]
    rfl
  rw [EStateM.run_bind, htwo]
  refine (convertToV0_run_ok hget).trans ?_
  rw [← withVersion_withVersion (p := p) 2 0]
  rfl

/-- A failed downgrade changes nothing; otherwise the PSBT gets version 0 and the
transaction BIP 370 defines, keeps every other field, and gets the same
transaction again when it is upgraded and downgraded once more. -/
theorem convertToV0_bip370 {s : Str} (h : deserialize R {} s = .ok p) (hv : 2 ≤ p.version) :
    (∃ e, (convertToV0 R).run p = .error e p) ∨
      ∃ p', (convertToV0 R).run p = .ok () p' ∧ p'.version = 0 ∧ Bip370Tx p p'.tx ∧
        p' = { p.withVersion 0 with tx := p'.tx, explicitVersion := false } ∧
        ∃ p'', (do convertToV2; convertToV0 R).run p' = .ok () p'' ∧ p''.tx = p'.tx := by
  have hv0 : p.version ≠ 0 := by omega
  cases hget : p.getUnsignedTx R with
  | error e => exact Or.inl ⟨e, convertToV0_run_error hget⟩
  | ok tx =>
    have htx := getUnsignedTx_bip370 hv0 (outpointChecked_of_deserialize h hv0) hget
    exact Or.inr ⟨_, convertToV0_run_ok hget, rfl, htx, rfl, _,
      convertToV2_convertToV0_run hv0 hget, rfl⟩

/-- A version 2 PSBT with one input and one output. -/
def versionTwoSample : PSBT :=
  { version := 2, explicitVersion := true, txVersion := some 2
    inputs := [{ version := 2, prevTxid := List.replicate 32 7, prevOut := some 1, heightLocktime := some 5 }]
    outputs := [{ version := 2, amount := some 9, script := [0x51] }] }

/-- The sample has a transaction, and the conversion returns with it. -/
theorem convertToV0_versionTwoSample :
    ∃ p', (convertToV0 Runtime.zeros).run versionTwoSample = .ok () p' ∧ p'.version = 0 ∧
      Bip370Tx versionTwoSample p'.tx ∧
      p' = { versionTwoSample.withVersion 0 with tx := p'.tx, explicitVersion := false } ∧
      ∃ p'', (do convertToV2; convertToV0 Runtime.zeros).run p' = .ok () p'' ∧ p''.tx = p'.tx := by
  have hconverts : (match (convertToV0 Runtime.zeros).run versionTwoSample with
      | .ok _ _ => true
      | .error _ _ => false) = true := by decide +kernel
  refine (convertToV0_bip370 (s := ("cHNidP8BAgQCAAAAAQQBAQEFAQEB+wQCAAAAAAEOIAcHBwcHBwcHBwcHBwcHBwc" ++
    "HBwcHBwcHBwcHBwcHBwcHAQ8EAQAAAAESBAUAAAAAAQMICQAAAAAAAAABBAFRAA==").toList) (by decide +kernel)
    (by decide)).resolve_left ?_
  rintro ⟨e, herror⟩
  rw [herror] at hconverts
  cases hconverts

end PSBT

end Hwi
