import Hwi.Proofs.TrezorSignTx

/-! A device that reads the transactions piece by piece, signs, and sends the signatures:
`sign_tx` returns what it has signed -/

namespace Hwi

namespace Trezorlib

namespace Btc

variable {ι β ο : Type} {prevTxes : Dict Bytes (TransactionType ι β ο)}
  {this : TransactionType ι β ο}

/-! ### What the device reads -/

/-- The state when some messages more were sent. -/
def Signing.tell (s : Signing ι β ο) (msgs : List (TransactionType ι β ο)) : Signing ι β ο :=
  { s with acks := s.acks ++ msgs }

theorem Signing.tell_nil (s : Signing ι β ο) : s.tell [] = s := by
  rw [Signing.tell, List.append_nil]

theorem Signing.tell_tell (s : Signing ι β ο) (msgs more : List (TransactionType ι β ο)) :
    (s.tell msgs).tell more = s.tell (msgs ++ more) := by
  simp only [Signing.tell, List.append_assoc]

/-- A request that is answered, after what it brings is taken. -/
theorem handle_answered {r : TxRequest} {details : TxRequestDetailsType}
    {tx msg : TransactionType ι β ο} {s s' : Signing ι β ο}
    (hadd : (r.serialized.forM addSerialized).run s = .ok () s')
    (htype : r.requestType ≠ some .TXFINISHED) (hdetails : r.details = some details)
    (hnamed : Named prevTxes this details.txHash tx)
    (hmsg : answer r.requestType details tx = .ok msg) :
    (handle prevTxes this r).run s = .ok (some msg) (s'.tell [msg]) := by
  unfold handle
  rw [EStateM.run_bind, hadd, if_neg htype, hdetails]
  simp only [currentTx_eq_ok.2 hnamed]
  change ((Procedure.ofExcept (answer r.requestType details tx) >>= _ : Loop ι β ο _)).run s' = _
  rw [hmsg]
  rfl

theorem tells_each {f : ℕ → Dialogue TxRequest (TransactionType ι β ο) (TransactionType ι β ο)}
    {g : ℕ → TransactionType ι β ο} {n : ℕ}
    (h : ∀ i < n, ∀ s, Dialogue.Tells (handle prevTxes this) (f i) s (g i) (s.tell [g i]))
    (s : Signing ι β ο) :
    Dialogue.Tells (handle prevTxes this) (Dialogue.forEach f (List.range n)) s
      ((List.range n).map g) (s.tell ((List.range n).map g)) := by
  have hstep : ∀ done i rest, List.range n = done ++ i :: rest →
      Dialogue.Tells (handle prevTxes this) (f i) (s.tell (done.map g)) (g i)
        (s.tell ((done ++ [i]).map g)) := by
    intro done i rest hl
    have hi : i < n := List.mem_range.1 (by simp [hl])
    have hnext := h i hi (s.tell (done.map g))
    rwa [Signing.tell_tell, ← List.map_singleton, ← List.map_append] at hnext
  have heach := Dialogue.tells_forEach (fun done => s.tell (done.map g)) hstep
  rwa [List.map_nil, Signing.tell_nil] at heach

theorem flatMap_range_getElem? {α : Type} (xs : List α) :
    (List.range xs.length).flatMap (fun i => xs[i]?.toList) = xs := by
  induction xs with
  | nil => rfl
  | cons x xs ih =>
    rw [List.length_cons, List.range_succ_eq_map, List.flatMap_cons, List.flatMap_map]
    simpa using ih

/-- Chunks that follow each other. -/
theorem flatMap_chunks (data : Bytes) (chunk n : ℕ) :
    (List.range n).flatMap (fun i => (data.drop (i * chunk)).take chunk) = data.take (n * chunk) := by
  induction n with
  | zero => simp
  | succ n ih =>
    rw [List.range_succ, List.flatMap_append, ih, List.flatMap_singleton, Nat.succ_mul, List.take_add]

theorem le_chunks {len chunk : ℕ} (hchunk : 0 < chunk) : len ≤ (len + chunk - 1) / chunk * chunk := by
  have hlt := Nat.lt_div_mul_add hchunk (a := len + chunk - 1)
  omega

/-- The pieces of a transaction in the order in which they are read. -/
def TransactionType.inputPiece (tx : TransactionType ι β ο) (i : ℕ) : TransactionType ι β ο :=
  { inputs := tx.inputs[i]?.toList }

def TransactionType.outputPiece (tx : TransactionType ι β ο) (i : ℕ) : TransactionType ι β ο :=
  { binOutputs := tx.binOutputs[i]?.toList, outputs := tx.outputs[i]?.toList }

def TransactionType.chunkPiece (tx : TransactionType ι β ο) (chunk i : ℕ) : TransactionType ι β ο :=
  { extraData := some (((tx.extraData.getD []).drop (i * chunk)).take chunk) }

variable {txHash : Option Bytes} {tx : TransactionType ι β ο}

theorem tells_inputs (hnamed : Named prevTxes this txHash tx) (s : Signing ι β ο) :
    Dialogue.Tells (handle prevTxes this)
      (Dialogue.forEach (askPiece .TXINPUT txHash) (List.range tx.inputs.length)) s
      ((List.range tx.inputs.length).map tx.inputPiece)
      (s.tell ((List.range tx.inputs.length).map tx.inputPiece)) := by
  refine tells_each (fun i hi s => ?_) s
  refine Dialogue.tells_request (handle_answered rfl (by simp) rfl hnamed ?_)
  have hpiece : piece tx.inputs (some i) = .ok tx.inputs[i] :=
    piece_eq_ok.2 ⟨i, rfl, List.getElem?_eq_getElem hi⟩
  simp [answer, hpiece, TransactionType.inputPiece, List.getElem?_eq_getElem hi]

theorem tells_outputs (hnamed : Named prevTxes this txHash tx) (hreadable : Readable txHash tx)
    (s : Signing ι β ο) :
    Dialogue.Tells (handle prevTxes this)
      (Dialogue.forEach (askPiece .TXOUTPUT txHash) (List.range (outputsCount tx))) s
      ((List.range (outputsCount tx)).map tx.outputPiece)
      (s.tell ((List.range (outputsCount tx)).map tx.outputPiece)) := by
  refine tells_each (fun i hi s => ?_) s
  refine Dialogue.tells_request (handle_answered rfl (by simp) rfl hnamed ?_)
  unfold Readable at hreadable
  split_ifs at hreadable with hhash
  · have hi : i < tx.outputs.length := by simpa [outputsCount, hreadable] using hi
    have hpiece : piece tx.outputs (some i) = .ok tx.outputs[i] :=
      piece_eq_ok.2 ⟨i, rfl, List.getElem?_eq_getElem hi⟩
    simp [answer, hhash, hpiece, TransactionType.outputPiece, hreadable, List.getElem?_eq_getElem hi]
  · have hi : i < tx.binOutputs.length := by
      unfold outputsCount at hi
      split_ifs at hi with hbin
      · exact hi
      · simp [hreadable] at hi
    have hpiece : piece tx.binOutputs (some i) = .ok tx.binOutputs[i] :=
      piece_eq_ok.2 ⟨i, rfl, List.getElem?_eq_getElem hi⟩
    simp [answer, hhash, hpiece, TransactionType.outputPiece, hreadable, List.getElem?_eq_getElem hi]

theorem tells_extraData {chunk : ℕ} (hnamed : Named prevTxes this txHash tx) (hchunk : 0 < chunk)
    (s : Signing ι β ο) :
    Dialogue.Tells (handle prevTxes this)
      (Dialogue.forEach (askChunk chunk txHash)
        (List.range (((tx.extraData.getD []).length + chunk - 1) / chunk))) s
      ((List.range (((tx.extraData.getD []).length + chunk - 1) / chunk)).map (tx.chunkPiece chunk))
      (s.tell ((List.range (((tx.extraData.getD []).length + chunk - 1) / chunk)).map
        (tx.chunkPiece chunk))) := by
  refine tells_each (fun i hi s => ?_) s
  refine Dialogue.tells_request (handle_answered rfl (by simp) rfl hnamed ?_)
  cases hdata : tx.extraData with
  | none =>
    -- without extra data there is no chunk to ask for
    rw [hdata, Option.getD_none, List.length_nil, Nat.zero_add,
      Nat.div_eq_of_lt (Nat.sub_lt hchunk Nat.one_pos)] at hi
    exact absurd hi (Nat.not_lt_zero i)
  | some data => simp [answer, hdata, TransactionType.chunkPiece]

/-- The messages that show all of a transaction. -/
def TransactionType.allPieces (tx : TransactionType ι β ο) (chunk : ℕ) : List (TransactionType ι β ο) :=
  copyTxMeta tx :: ((List.range tx.inputs.length).map tx.inputPiece ++
    ((List.range (outputsCount tx)).map tx.outputPiece ++
      (List.range (((tx.extraData.getD []).length + chunk - 1) / chunk)).map (tx.chunkPiece chunk)))

theorem flatMap_inputPieces :
    ((List.range tx.inputs.length).map tx.inputPiece).flatMap TransactionType.inputs = tx.inputs := by
  rw [List.flatMap_map]
  exact flatMap_range_getElem? tx.inputs

theorem flatMap_outputPieces (hreadable : Readable txHash tx) :
    ((List.range (outputsCount tx)).map tx.outputPiece).flatMap TransactionType.binOutputs =
        tx.binOutputs ∧
      ((List.range (outputsCount tx)).map tx.outputPiece).flatMap TransactionType.outputs =
        tx.outputs := by
  have hcount : outputsCount tx = tx.binOutputs.length ∧ tx.outputs = [] ∨
      outputsCount tx = tx.outputs.length ∧ tx.binOutputs = [] := by
    unfold Readable at hreadable
    unfold outputsCount
    split_ifs at hreadable ⊢ with hbin hhash hhash
    · exact absurd hreadable hbin
    · exact Or.inl ⟨rfl, hreadable⟩
    · exact Or.inr ⟨rfl, hreadable⟩
    · exact Or.inr ⟨rfl, not_not.1 hbin⟩
  rw [List.flatMap_map, List.flatMap_map]
  rcases hcount with ⟨hcount, hnone⟩ | ⟨hcount, hnone⟩
  · rw [hcount]
    exact ⟨flatMap_range_getElem? tx.binOutputs, by simp [TransactionType.outputPiece, hnone]⟩
  · rw [hcount]
    exact ⟨by simp [TransactionType.outputPiece, hnone], flatMap_range_getElem? tx.outputs⟩

theorem flatMap_chunkPieces {chunk : ℕ} (hchunk : 0 < chunk) :
    ((List.range (((tx.extraData.getD []).length + chunk - 1) / chunk)).map
      (tx.chunkPiece chunk)).flatMap (fun msg => msg.extraData.getD []) = tx.extraData.getD [] := by
  rw [List.flatMap_map]
  change (List.range _).flatMap (fun i => ((tx.extraData.getD []).drop (i * chunk)).take chunk) = _
  rw [flatMap_chunks, List.take_of_length_le (le_chunks hchunk)]

/-- A device that reads a transaction has all of it. -/
theorem tells_readTx {chunk : ℕ} (hnamed : Named prevTxes this txHash tx)
    (hreadable : Readable txHash tx) (hchunk : 0 < chunk) (s : Signing ι β ο) :
    Dialogue.Tells (handle prevTxes this) (readTx chunk txHash) s tx.counted
      (s.tell (tx.allPieces chunk)) := by
  have hmeta : Dialogue.Tells (handle prevTxes this)
      (.request { requestType := some .TXMETA, details := some { txHash := txHash } }) s
      (copyTxMeta tx) (s.tell [copyTxMeta tx]) :=
    Dialogue.tells_request (handle_answered rfl (by simp) rfl hnamed rfl)
  have hstate : s.tell (tx.allPieces chunk) = (((s.tell [copyTxMeta tx]).tell
      ((List.range tx.inputs.length).map tx.inputPiece)).tell
      ((List.range (outputsCount tx)).map tx.outputPiece)).tell
      ((List.range (((tx.extraData.getD []).length + chunk - 1) / chunk)).map
        (tx.chunkPiece chunk)) := by
    simp only [Signing.tell_tell, List.append_assoc]
    rfl
  have hread : tx.counted = { copyTxMeta tx with
      inputs := ((List.range tx.inputs.length).map tx.inputPiece).flatMap TransactionType.inputs
      binOutputs := ((List.range (outputsCount tx)).map tx.outputPiece).flatMap
        TransactionType.binOutputs
      outputs := ((List.range (outputsCount tx)).map tx.outputPiece).flatMap TransactionType.outputs
      extraData := if (tx.extraData.getD []).length = 0 then none else
        some (((List.range (((tx.extraData.getD []).length + chunk - 1) / chunk)).map
          (tx.chunkPiece chunk)).flatMap fun msg => msg.extraData.getD []) } := by
    rw [flatMap_inputPieces, (flatMap_outputPieces hreadable).1, (flatMap_outputPieces hreadable).2,
      flatMap_chunkPieces hchunk]
    simp only [TransactionType.counted, copyTxMeta, List.length_eq_zero_iff]
    cases tx.extraData <;> rfl
  rw [hstate, hread]
  refine hmeta.bind ?_
  refine Dialogue.Tells.bind (tells_inputs hnamed _) ?_
  refine Dialogue.Tells.bind (tells_outputs hnamed hreadable _) ?_
  exact (tells_extraData hnamed hchunk _).bind_pure

theorem tells_previous (this : TransactionType ι β ο) {chunk : ℕ} (hchunk : 0 < chunk) {hashes : List Bytes}
    (hhashes : ∀ txHash ∈ hashes, ∃ tx, prevTxes.get? txHash = some tx ∧ Readable (some txHash) tx)
    (s : Signing ι β ο) :
    ∃ msgs, Dialogue.Tells (handle prevTxes this)
      (Dialogue.forEach (fun txHash => readTx chunk (some txHash)) hashes) s
      (hashes.map (previous prevTxes)) (s.tell msgs) := by
  induction hashes generalizing s with
  | nil => exact ⟨[], (Signing.tell_nil s).symm ▸ Dialogue.tells_pure [] s⟩
  | cons txHash hashes ih =>
    obtain ⟨tx, hget, hreadable⟩ := hhashes txHash List.mem_cons_self
    have hnamed : Named prevTxes this (some txHash) tx := hget
    have hread := tells_readTx hnamed hreadable hchunk s
    obtain ⟨msgs, hrest⟩ := ih (fun h hmem => hhashes h (List.mem_cons_of_mem _ hmem))
      (s.tell (tx.allPieces chunk))
    rw [Signing.tell_tell] at hrest
    have hprevious : previous prevTxes txHash = tx.counted := by
      rw [previous, hget, Option.getD_some]
    rw [List.map_cons, hprevious]
    exact ⟨_, hread.bind hrest.bind_pure⟩

/-! ### Signatures that the device sends -/

theorem run_addSerialized {s : Signing ι β ο} {idx : ℕ} (sig part : Bytes)
    (h : s.signatures[idx]? = some none) :
    (addSerialized {
      signatureIndex := some idx, signature := some sig, serializedTx := some part }).run s =
    .ok () { s with
      serializedTx := s.serializedTx ++ part, signatures := s.signatures.set idx (some sig) } := by
  unfold addSerialized
  rw [Procedure.run_modify_bind]
  simp only
  rw [Procedure.run_get_bind]
  simp only [h]
  rfl

/-- The state when the signatures of some inputs were sent. -/
def sent (n : ℕ) (acks : List (TransactionType ι β ο)) (this : TransactionType ι β ο)
    (signed : List ((Bytes × Bytes) × ℕ)) : Signing ι β ο where
  signatures := signed.map (fun e => some e.1.1) ++ List.replicate (n - signed.length) none
  serializedTx := signed.flatMap fun e => e.1.2
  acks := acks ++ signed.map fun e => this.inputPiece e.2

theorem tells_sendSignature {n : ℕ} (hn : n = this.inputs.length) (acks : List (TransactionType ι β ο))
    {done : List ((Bytes × Bytes) × ℕ)} {signed : (Bytes × Bytes) × ℕ} (hsigned : signed.2 = done.length)
    (hlt : done.length < n) :
    Dialogue.Tells (handle prevTxes this) (sendSignature signed) (sent n acks this done)
      (this.inputPiece signed.2) (sent n acks this (done ++ [signed])) := by
  refine Dialogue.tells_request ?_
  have hempty : (sent n acks this done).signatures[signed.2]? = some none := by
    rw [hsigned, sent, List.getElem?_append_right (by simp)]
    simp [hlt]
  have hi : signed.2 < this.inputs.length := by omega
  have hpiece : piece this.inputs (some signed.2) = .ok this.inputs[signed.2] :=
    piece_eq_ok.2 ⟨signed.2, rfl, List.getElem?_eq_getElem hi⟩
  have hmsg : answer (some .TXINPUT) { requestIndex := some signed.2 } this =
      .ok (this.inputPiece signed.2) := by
    simp [answer, hpiece, TransactionType.inputPiece, List.getElem?_eq_getElem hi]
  have hnext : sent n acks this (done ++ [signed]) = Signing.tell { sent n acks this done with
      serializedTx := (sent n acks this done).serializedTx ++ signed.1.2
      signatures := (sent n acks this done).signatures.set signed.2 (some signed.1.1) }
      [this.inputPiece signed.2] := by
    have hplaces : n - done.length = n - (done ++ [signed]).length + 1 := by
      rw [List.length_append, List.length_singleton]
      omega
    simp only [sent, Signing.tell, hsigned, hplaces, List.replicate_succ]
    simp [hsigned]
  rw [hnext]
  have hnamed : Named prevTxes this none this := rfl
  exact handle_answered (run_addSerialized _ _ hempty) (by simp) rfl hnamed hmsg

theorem tells_sendSignatures (prevTxes : Dict Bytes (TransactionType ι β ο)) {n : ℕ} (hn : n = this.inputs.length)
    (acks : List (TransactionType ι β ο)) {signed : List (Bytes × Bytes)} (hlen : signed.length = n) :
    Dialogue.Tells (handle prevTxes this) (Dialogue.forEach sendSignature signed.zipIdx)
      (sent n acks this []) (signed.zipIdx.map fun e => this.inputPiece e.2)
      (sent n acks this signed.zipIdx) := by
  refine Dialogue.tells_forEach (sent n acks this) fun done e rest hl => ?_
  have hget : signed.zipIdx[done.length]? = some e := by rw [hl]; simp
  rw [List.getElem?_zipIdx, Option.map_eq_some_iff] at hget
  obtain ⟨b, hb, rfl⟩ := hget
  have hlt : done.length < n := hlen ▸ (List.getElem?_eq_some_iff.1 hb).1
  exact tells_sendSignature hn acks (by simp) hlt

theorem run_finish (s : Signing ι β ο) (rest : Bytes)
    (next : TransactionType ι β ο → Dialogue TxRequest (TransactionType ι β ο) Last) :
    (Dialogue.serve (handle prevTxes this) ended (.ask {
      requestType := some .TXFINISHED, serialized := some { serializedTx := some rest } } next)).run s =
      .ok () { s with serializedTx := s.serializedTx ++ rest } := by
  rw [Dialogue.serve]
  unfold handle
  rw [if_pos rfl]
  rfl

/-- The run of a device that signs what it has read. -/
theorem run_signer (prevTxes : Dict Bytes (TransactionType ι β ο)) (this : TransactionType ι β ο)
    (S : Signer ι β ο) {n : ℕ} (hn : n = this.inputs.length)
    (hreadable : this.binOutputs = []) (signtx : SignTx)
    (hneeds : ∀ txHash ∈ S.needs signtx this.counted,
      ∃ tx, prevTxes.get? txHash = some tx ∧ Readable (some txHash) tx)
    {signed : List (Bytes × Bytes) × Bytes}
    (hsign : S.sign signtx this.counted ((S.needs signtx this.counted).map (previous prevTxes)) = signed)
    (hlen : signed.1.length = n) :
    ∃ s, (Dialogue.serve (handle prevTxes this) ended (S.device signtx)).run
        { signatures := List.replicate n none } = .ok () s ∧
      s.signatures = signed.1.map (fun e => some e.1) ∧
      s.serializedTx = signed.1.flatMap Prod.snd ++ signed.2 := by
  have hnamed : Named prevTxes this none this := rfl
  have hread := tells_readTx hnamed hreadable S.chunk_pos { signatures := List.replicate n none }
  obtain ⟨msgs, hprevs⟩ := tells_previous this S.chunk_pos hneeds
    (Signing.tell { signatures := List.replicate n none } (this.allPieces S.chunk))
  rw [Signing.tell_tell] at hprevs
  have hsent := tells_sendSignatures prevTxes hn (this.allPieces S.chunk ++ msgs) hlen
  rw [Signer.device, hread Last ended, hprevs Last ended, hsign]
  have hstart : Signing.tell { signatures := List.replicate n none }
      (this.allPieces S.chunk ++ msgs) = sent n (this.allPieces S.chunk ++ msgs) this [] := by
    simp [Signing.tell, sent]
  rw [hstart, hsent Last ended]
  refine ⟨_, run_finish _ _ _, ?_, ?_⟩
  · have hfst : signed.1.zipIdx.map (fun e => some e.1.1) = signed.1.map fun e => some e.1 := by
      conv_rhs => rw [← List.zipIdx_map_fst 0 signed.1, List.map_map]
      rfl
    simp [sent, hlen, hfst]
  · have hsnd : signed.1.zipIdx.flatMap (fun e => e.1.2) = signed.1.flatMap Prod.snd := by
      conv_rhs => rw [← List.zipIdx_map_fst 0 signed.1, List.flatMap_map]
    simp [sent, hsnd]

theorem run_signTx_of_serve {isExternal : ι → Bool} {device : Device ι β ο} {coinName : String}
    {inputs : List ι} {outputs : List ο} {version : ℤ} {lockTime : ℕ} {serialize : Bool}
    {s : Signing ι β ο}
    (hserve : (Dialogue.serve (handle prevTxes (thisTx inputs outputs version)) ended
      (device (signTxMessage coinName inputs outputs version lockTime serialize))).run
        { signatures := List.replicate inputs.length none } = .ok () s)
    (hchecked : checkSigned isExternal inputs s.signatures = .ok ()) (s₀ : Signing ι β ο) :
    (signTx isExternal device coinName inputs outputs prevTxes version lockTime serialize).run s₀ =
      .ok (s.signatures, s.serializedTx) s := by
  unfold signTx
  rw [Procedure.run_set_bind, EStateM.run_bind, hserve]
  change ((Procedure.ofExcept (checkSigned isExternal inputs s.signatures) >>= _ :
    Loop ι β ο _)).run s = _
  rw [hchecked]
  rfl

theorem checkSigned_map {isExternal : ι → Bool} {inputs : List ι} {signed : List (Bytes × Bytes)}
    (hlen : signed.length = inputs.length) :
    checkSigned isExternal inputs (signed.map fun e => some e.1) = .ok () := by
  refine (checkSigned_eq_ok (by rw [List.length_map, hlen])).2 fun i input hinput _ => ?_
  have hi : i < signed.length := hlen ▸ (List.getElem?_eq_some_iff.1 hinput).1
  refine ⟨signed[i].1, ?_⟩
  rw [List.getElem?_map, List.getElem?_eq_getElem hi]
  rfl

/-- A device that reads what it signs, all of it in pieces, and sends the signatures one by
one: `sign_tx` returns the signatures and the transaction that the device computes from
the whole transactions. -/
theorem signTx_signer (isExternal : ι → Bool) (S : Signer ι β ο) (coinName : String) (inputs : List ι)
    (outputs : List ο) (prevTxes : Dict Bytes (TransactionType ι β ο)) (version : ℤ) (lockTime : ℕ)
    (serialize : Bool) {hashes : List Bytes} {signed : List (Bytes × Bytes) × Bytes}
    (hneeds : S.needs (signTxMessage coinName inputs outputs version lockTime serialize)
      (thisTx inputs outputs version).counted = hashes)
    (hhashes : ∀ txHash ∈ hashes, ∃ tx, prevTxes.get? txHash = some tx ∧ Readable (some txHash) tx)
    (hsign : S.sign (signTxMessage coinName inputs outputs version lockTime serialize)
      (thisTx inputs outputs version).counted (hashes.map (previous prevTxes)) = signed)
    (hlen : signed.1.length = inputs.length) (s₀ : Signing ι β ο) :
    ∃ s, (signTx isExternal S.device coinName inputs outputs prevTxes version lockTime serialize).run
      s₀ = .ok (signed.1.map (fun e => some e.1), signed.1.flatMap Prod.snd ++ signed.2) s := by
  subst hneeds
  obtain ⟨s, hserve, hsignatures, hserialized⟩ := run_signer prevTxes _ S (n := inputs.length) rfl rfl _
    hhashes hsign hlen
  have hchecked : checkSigned isExternal inputs s.signatures = .ok () :=
    hsignatures ▸ checkSigned_map hlen
  exact ⟨s, hsignatures ▸ hserialized ▸ run_signTx_of_serve hserve hchecked s₀⟩

/-- A device that wants to see the extra data of the previous transaction `01`. -/
def sampleSigner : Signer ℕ ℕ ℕ where
  chunk := 2
  chunk_pos := Nat.two_pos
  needs := fun _ _ => [[1]]
  sign := fun _ tx prevs => (
    tx.inputs.map fun i => ([UInt8.ofNat i], [0xAA]), prevs.flatMap fun prev => prev.extraData.getD [])

def samplePrevTxes : Dict Bytes (TransactionType ℕ ℕ ℕ) :=
  (∅ : Dict Bytes (TransactionType ℕ ℕ ℕ)).set [1]
    { inputs := [5], binOutputs := [6], extraData := some [1, 2, 3] }

theorem signTx_signer_sample : ∃ s,
    (signTx (fun _ => false) sampleSigner.device "Zcash" [7, 8] [9] samplePrevTxes 4 0 true).run
      { signatures := [] } = .ok ([some [7], some [8]], [0xAA, 0xAA, 1, 2, 3]) s := by
  have hprev : ∀ txHash ∈ ([[1]] : List Bytes),
      ∃ tx, samplePrevTxes.get? txHash = some tx ∧ Readable (some txHash) tx := by
    intro txHash hmem
    obtain rfl := List.mem_singleton.1 hmem
    exact ⟨_, rfl, rfl⟩
  exact signTx_signer (fun _ => false) sampleSigner "Zcash" [7, 8] [9] samplePrevTxes 4 0 true rfl hprev
    rfl rfl { signatures := [] }

/-! ### The calls of `trezor.py` -/

/-- The lists of signatures that `btc.sign_tx` can return to `trezor.py` are those with a
signature for every input, and each of them is what some device makes it return. -/
theorem signTxOf_returns_iff (request : Trezor.SignTx) (s₀ : Signing Input CTxOut Trezor.TxOutputType)
    (signatures : List (Option Bytes)) :
    (∃ device serializedTx s, (signTxOf device request).run s₀ = .ok (signatures, serializedTx) s) ↔
      ∃ sign : ℕ → Bytes, signatures = (List.range request.inputs.length).map fun i => some (sign i) := by
  constructor
  · intro hreturns
    obtain ⟨device, serializedTx, s, hrun⟩ := hreturns
    obtain ⟨hr, hsigned, before, last, -, -, -, -, hcollected⟩ :=
      (triple_signTx _ _ _ _ _ _ _ _ _).ok trivial hrun
    obtain ⟨rfl, -⟩ := Prod.mk.inj hr
    have hlen : s.signatures.length = request.inputs.length :=
      hcollected.length.trans (List.length_map _)
    refine ⟨fun i => (s.signatures[i]?.join).getD [], List.ext_getElem? fun i => ?_⟩
    rcases Nat.lt_or_ge i request.inputs.length with hi | hi
    · obtain ⟨sig, hsig⟩ := (checkSigned_eq_ok hcollected.length).1 hsigned i
        (.inl request.inputs[i]) (by simp [hi]) rfl
      simp [hsig, hi]
    · rw [List.getElem?_eq_none (hlen ▸ hi), List.getElem?_eq_none (by simpa using hi)]
  · intro hsign
    obtain ⟨sign, rfl⟩ := hsign
    let signed := (List.range request.inputs.length).map fun i => (sign i, ([] : Bytes))
    let S : Signer Input CTxOut Trezor.TxOutputType := {
      chunk := 1, chunk_pos := Nat.one_pos, needs := fun _ _ => [], sign := fun _ _ _ => (signed, []) }
    have hlen : signed.length = (request.inputs.map (Sum.inl (β := Trezor.PrevInput))).length := by
      simp [signed]
    obtain ⟨s, hserve, hsignatures, -⟩ := run_signer (prevTxesOf request.prevTxes)
      (thisTx (request.inputs.map Sum.inl) request.outputs request.version) S rfl rfl
      (signTxMessage request.coinName (request.inputs.map (Sum.inl (β := Trezor.PrevInput)))
        request.outputs request.version request.lockTime false) (fun _ h => absurd h List.not_mem_nil)
      rfl hlen
    refine ⟨S.device, s.serializedTx, s, ?_⟩
    have hchecked : checkSigned (fun _ => false) (request.inputs.map (Sum.inl (β := Trezor.PrevInput)))
        s.signatures = .ok () := hsignatures ▸ checkSigned_map hlen
    have hrun := run_signTx_of_serve hserve hchecked s₀
    rw [signTxOf, hrun, hsignatures, List.map_map]
    rfl

end Btc

end Trezorlib

end Hwi
