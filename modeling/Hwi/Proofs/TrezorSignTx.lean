import Hwi.Format.TrezorSignTx
import Hwi.Lib.Result

/-! What a run of `sign_tx` returns, and what it shows to the device -/

namespace Hwi

namespace Trezorlib

namespace Btc

variable {ι β ο : Type} {prevTxes : Dict Bytes (TransactionType ι β ο)}
  {this : TransactionType ι β ο}

/-! ### Signatures -/

/-- One signature more, in a place that is empty. -/
inductive Fills (signatures : List (Option Bytes)) : Option (ℕ × Bytes) → List (Option Bytes) → Prop
  | none : Fills signatures none signatures
  | some {i : ℕ} {sig : Bytes} (h : signatures[i]? = some none) :
    Fills signatures (some (i, sig)) (signatures.set i (some sig))

theorem triple_addSerialized (s₀ : Signing ι β ο) (serialized : TxRequestSerializedType) :
    Procedure.Triple (· = s₀) (addSerialized serialized)
      (fun _ s => s.acks = s₀.acks ∧
        s.serializedTx = s₀.serializedTx ++ serialized.serializedTx.getD [] ∧
        Fills s₀.signatures serialized.filled s.signatures)
      (fun _ s => s.acks = s₀.acks) := by
  refine Procedure.Triple.modify_bind (M := (· = { s₀ with
    serializedTx := s₀.serializedTx ++ serialized.serializedTx.getD [] }))
    (fun s hs => by rw [hs]) ?_
  cases hidx : serialized.signatureIndex with
  | none =>
    refine Procedure.Triple.pure fun s hs => ?_
    have hfilled : serialized.filled = none := by simp [TxRequestSerializedType.filled, hidx]
    rw [hs, hfilled]
    exact ⟨rfl, rfl, .none⟩
  | some idx =>
    refine Procedure.Triple.get_bind fun s hs => ?_
    rw [hs]
    cases hthere : s₀.signatures[idx]? with
    | none => exact Procedure.Triple.throw fun s hs => by rw [hs]
    | some there =>
      cases there with
      | some _ => exact Procedure.Triple.throw fun s hs => by rw [hs]
      | none =>
        intro s hs
        subst hs
        refine ⟨rfl, rfl, ?_⟩
        change Fills s₀.signatures _ (s₀.signatures.set idx serialized.signature)
        cases hsig : serialized.signature with
        | none =>
          -- the place is empty, and stays so
          have hfilled : serialized.filled = none := by
            simp [TxRequestSerializedType.filled, hidx, hsig]
          obtain ⟨hlt, hget⟩ := List.getElem?_eq_some_iff.1 hthere
          have hset : s₀.signatures.set idx none = s₀.signatures := by
            rw [← hget, List.set_getElem_self]
          rw [hfilled, hset]
          exact .none
        | some sig =>
          have hfilled : serialized.filled = some (idx, sig) := by
            simp [TxRequestSerializedType.filled, hidx, hsig]
          rw [hfilled]
          exact .some hthere

theorem Collected.nil (n : ℕ) : Collected n [] (List.replicate n none) [] where
  length := List.length_replicate
  once := List.nodup_nil
  filled i sig := by simp [List.getElem?_replicate]
  serialized := rfl

theorem Collected.add {n : ℕ} {requests : List TxRequest} {signatures signatures' : List (Option Bytes)}
    {serializedTx : Bytes} (h : Collected n requests signatures serializedTx) {r : TxRequest}
    (hfills : Fills signatures r.filled signatures') :
    Collected n (requests ++ [r]) signatures' (serializedTx ++ r.part) := by
  have hpart : serializedTx ++ r.part = (requests ++ [r]).flatMap TxRequest.part := by
    rw [List.flatMap_append, ← h.serialized, List.flatMap_singleton]
  generalize hr : r.filled = filled at hfills
  cases hfills with
  | none =>
    have hfilled : (requests ++ [r]).filterMap TxRequest.filled = requests.filterMap TxRequest.filled := by
      simp [hr]
    exact ⟨h.length, hfilled ▸ h.once, hfilled ▸ h.filled, hpart⟩
  | @some i sig hempty =>
    have hfilled : (requests ++ [r]).filterMap TxRequest.filled =
        requests.filterMap TxRequest.filled ++ [(i, sig)] := by
      simp [hr]
    have hlt : i < signatures.length := (List.getElem?_eq_some_iff.1 hempty).1
    have hfresh : ∀ sig', (i, sig') ∉ requests.filterMap TxRequest.filled := by
      intro sig' hmem
      have hthere := (h.filled i sig').2 hmem
      rw [hempty] at hthere
      simp at hthere
    refine ⟨(List.length_set).trans h.length, ?_, fun j sig' => ?_, hpart⟩
    · rw [hfilled, List.map_append]
      refine List.nodup_append.2 ⟨h.once, List.nodup_singleton i, ?_⟩
      intro j hj k hk hjk
      obtain ⟨⟨j', sig'⟩, hmem, hj'⟩ := List.mem_map.1 hj
      have hk : k = i := List.mem_singleton.1 hk
      exact hfresh sig' (by rwa [← hk, ← hjk, ← hj'])
    · rw [hfilled, List.mem_append, List.mem_singleton, ← h.filled]
      by_cases hj : i = j
      · subst hj
        rw [hempty, List.getElem?_set_self hlt]
        simp [eq_comm]
      · have hne : (j, sig') ≠ (i, sig) := fun heq => hj (congrArg Prod.fst heq).symm
        rw [List.getElem?_set_ne hj, or_iff_left hne]

/-! ### Messages -/

theorem currentTx_eq_ok {details : TxRequestDetailsType} {tx : TransactionType ι β ο} :
    currentTx prevTxes this details = .ok tx ↔ Named prevTxes this details.txHash tx := by
  unfold currentTx Named
  cases details.txHash with
  | none => simp [eq_comm]
  | some txHash => cases hget : prevTxes.get? txHash <;> simp [hget]

theorem piece_eq_ok {α : Type} {xs : List α} {requestIndex : Option ℕ} {x : α} :
    piece xs requestIndex = .ok x ↔ ∃ i, requestIndex = some i ∧ xs[i]? = some x := by
  unfold piece
  cases requestIndex with
  | none => simp
  | some i => cases hget : xs[i]? <;> simp [hget]

theorem piece_answer {α : Type} {xs : List α} {requestIndex : Option ℕ}
    {f : α → TransactionType ι β ο} {msg : TransactionType ι β ο} :
    (piece xs requestIndex >>= fun x => pure (f x)) = .ok msg ↔
      ∃ i x, requestIndex = some i ∧ xs[i]? = some x ∧ msg = f x := by
  rw [bind_eq_ok]
  constructor
  · rintro ⟨x, hx, h⟩
    obtain ⟨i, hindex, hget⟩ := piece_eq_ok.1 hx
    cases h
    exact ⟨i, x, hindex, hget, rfl⟩
  · rintro ⟨i, x, hindex, hget, rfl⟩
    exact ⟨x, piece_eq_ok.2 ⟨i, hindex, hget⟩, rfl⟩

/-- The host sends what the request asks for, and nothing else. -/
theorem answer_eq_ok {requestType : Option RequestType} {details : TxRequestDetailsType}
    {tx msg : TransactionType ι β ο} : answer requestType details tx = .ok msg ↔
      ∃ t, requestType = some t ∧ PieceOf tx details t msg := by
  constructor
  · intro h
    unfold answer at h
    split at h
    · cases h
      exact ⟨_, rfl, .txMeta⟩
    · obtain ⟨i, input, hindex, hinput, rfl⟩ := piece_answer.1 h
      exact ⟨_, rfl, .input hindex hinput⟩
    · obtain ⟨i, input, hindex, hinput, rfl⟩ := piece_answer.1 h
      exact ⟨_, rfl, .originInput hindex hinput⟩
    · split_ifs at h with hhash
      · obtain ⟨i, output, hindex, houtput, rfl⟩ := piece_answer.1 h
        exact ⟨_, rfl, .binOutput hhash hindex houtput⟩
      · obtain ⟨i, output, hindex, houtput, rfl⟩ := piece_answer.1 h
        exact ⟨_, rfl, .output (not_not.1 hhash) hindex houtput⟩
    · obtain ⟨i, output, hindex, houtput, rfl⟩ := piece_answer.1 h
      exact ⟨_, rfl, .originOutput hindex houtput⟩
    · split at h
      · rename_i o l data hoffset hlen hdata
        cases h
        exact ⟨_, rfl, .extraData hoffset hlen hdata⟩
      · cases h
    · cases h
    · cases h
    · cases h
  · rintro ⟨t, rfl, hpiece⟩
    cases hpiece with
    | txMeta => rfl
    | input hindex hinput => exact piece_answer.2 ⟨_, _, hindex, hinput, rfl⟩
    | originInput hindex hinput => exact piece_answer.2 ⟨_, _, hindex, hinput, rfl⟩
    | binOutput hhash hindex houtput =>
      unfold answer
      rw [if_pos hhash]
      exact piece_answer.2 ⟨_, _, hindex, houtput, rfl⟩
    | output hhash hindex houtput =>
      unfold answer
      rw [if_neg (not_not.2 hhash)]
      exact piece_answer.2 ⟨_, _, hindex, houtput, rfl⟩
    | originOutput hindex houtput => exact piece_answer.2 ⟨_, _, hindex, houtput, rfl⟩
    | extraData hoffset hlen hdata =>
      unfold answer
      rw [hoffset, hlen, hdata]

/-! ### Runs -/

/-- While the loop runs, each request has had its answer. -/
def Underway (prevTxes : Dict Bytes (TransactionType ι β ο)) (this : TransactionType ι β ο)
    (n : ℕ) (requests : List TxRequest) (msgs : List (TransactionType ι β ο)) (s : Signing ι β ο) :
    Prop :=
  s.acks = msgs ∧ List.Forall₂ (Told prevTxes this) requests msgs ∧
    Collected n requests s.signatures s.serializedTx

/-- After the loop: only the last request, `TXFINISHED`, has no answer. -/
def Finished (prevTxes : Dict Bytes (TransactionType ι β ο)) (this : TransactionType ι β ο)
    (n : ℕ) (requests : List TxRequest) (msgs : List (TransactionType ι β ο)) (s : Signing ι β ο) :
    Prop :=
  ∃ before last, requests = before ++ [last] ∧ last.requestType = some .TXFINISHED ∧
    s.acks = msgs ∧ List.Forall₂ (Told prevTxes this) before msgs ∧
    Collected n requests s.signatures s.serializedTx

/-- When the host raises: the last request may have no answer, and the others had theirs. -/
def Broken (prevTxes : Dict Bytes (TransactionType ι β ο)) (this : TransactionType ι β ο)
    (requests : List TxRequest) (msgs : List (TransactionType ι β ο)) (_ : Error)
    (s : Signing ι β ο) : Prop :=
  s.acks = msgs ∧ ∃ answered, answered <+: requests ∧
    List.Forall₂ (Told prevTxes this) answered msgs

theorem Underway.broken {n : ℕ} {requests more : List TxRequest}
    {msgs : List (TransactionType ι β ο)} {s : Signing ι β ο} {e : Error}
    (h : Underway prevTxes this n requests msgs s) (hmore : requests <+: more) :
    Broken prevTxes this more msgs e s :=
  ⟨h.1, requests, hmore, h.2.1⟩

/-- What the host has when it has taken the signature of a request. -/
theorem triple_serialized {n : ℕ} {requests : List TxRequest} {msgs : List (TransactionType ι β ο)}
    (r : TxRequest) : Procedure.Triple (Underway prevTxes this n requests msgs)
      (r.serialized.forM addSerialized)
      (fun _ s => s.acks = msgs ∧ List.Forall₂ (Told prevTxes this) requests msgs ∧
        Collected n (requests ++ [r]) s.signatures s.serializedTx)
      (Broken prevTxes this (requests ++ [r]) msgs) := by
  intro s₀ hs₀
  obtain ⟨hacks, htold, hcollected⟩ := hs₀
  cases hr : r.serialized with
  | none =>
    have hfilled : r.filled = none := by simp [TxRequest.filled, hr]
    have hpart : r.part = [] := by simp [TxRequest.part, hr]
    have hadd := hcollected.add (r := r) (hfilled ▸ Fills.none)
    rw [hpart, List.append_nil] at hadd
    exact ⟨hacks, htold, hadd⟩
  | some serialized =>
    have hfilled : r.filled = serialized.filled := by simp [TxRequest.filled, hr]
    have hpart : r.part = serialized.serializedTx.getD [] := by simp [TxRequest.part, hr]
    refine (triple_addSerialized s₀ serialized).mono (fun s hs => hs) ?_ ?_ s₀ rfl
    · intro _ s hs
      obtain ⟨hacks', hserialized, hfills⟩ := hs
      rw [← hfilled] at hfills
      rw [hserialized, ← hpart]
      exact ⟨hacks'.trans hacks, htold, hcollected.add hfills⟩
    · intro _ s hs
      exact ⟨hs.trans hacks, requests, List.prefix_append requests [r], htold⟩

theorem triple_handle {n : ℕ} (requests : List TxRequest) (msgs : List (TransactionType ι β ο))
    (r : TxRequest) : Procedure.Triple (Underway prevTxes this n requests msgs)
      (handle prevTxes this r)
      (fun reply? => reply?.elim (Finished prevTxes this n (requests ++ [r]) msgs)
        fun reply => Underway prevTxes this n (requests ++ [r]) (msgs ++ [reply]))
      (Broken prevTxes this (requests ++ [r]) msgs) := by
  refine Procedure.Triple.bind (triple_serialized r) fun _ => ?_
  split_ifs with hfinished
  · refine Procedure.Triple.pure fun s hs => ?_
    exact ⟨requests, r, rfl, hfinished, hs⟩
  · cases hdetails : r.details with
    | none =>
      exact Procedure.Triple.throw fun s hs =>
        ⟨hs.1, requests, List.prefix_append requests [r], hs.2.1⟩
    | some details =>
      refine Procedure.Triple.ofExcept_bind (fun tx htx => ?_)
        fun e s _ hs => ⟨hs.1, requests, List.prefix_append requests [r], hs.2.1⟩
      refine Procedure.Triple.ofExcept_bind (fun msg hmsg => ?_)
        fun e s _ hs => ⟨hs.1, requests, List.prefix_append requests [r], hs.2.1⟩
      obtain ⟨requestType, htype, hpiece⟩ := answer_eq_ok.1 hmsg
      have htold : Told prevTxes this r msg :=
        ⟨requestType, details, tx, htype, hdetails, currentTx_eq_ok.1 htx, hpiece⟩
      intro s hs
      obtain ⟨hacks, hall, hcollected⟩ := hs
      have hmore := List.rel_append hall (List.Forall₂.cons htold List.Forall₂.nil)
      exact ⟨congrArg (· ++ [msg]) hacks, hmore, hcollected⟩

theorem triple_ended {n : ℕ} {requests : List TxRequest} {msgs : List (TransactionType ι β ο)}
    (x : Last) : Procedure.Triple (Underway prevTxes this n requests msgs) (ended x)
      (fun _ => Finished prevTxes this n requests msgs) (Broken prevTxes this requests msgs) := by
  cases x with
  | raises e => exact Procedure.Triple.throw fun s hs => hs.broken (List.prefix_refl requests)
  | other => exact Procedure.Triple.throw fun s hs => hs.broken (List.prefix_refl requests)

/-- The loop, over all that the device asks. -/
theorem triple_loop {n : ℕ} (questions : Dialogue TxRequest (TransactionType ι β ο) Last) :
    Procedure.Triple (Underway prevTxes this n [] [])
      (Dialogue.serve (handle prevTxes this) ended questions)
      (fun _ s => Finished prevTxes this n (questions.asked s.acks) s.acks s)
      (fun _ => Shown prevTxes this questions) := by
  refine (Dialogue.triple_serve triple_handle (fun requests msgs x => triple_ended x) questions
    [] []).mono (fun s hs => hs) (fun _ s hs => ?_) fun e s hs => ?_
  · obtain ⟨msgs, hs⟩ := hs
    rw [List.nil_append] at hs
    obtain ⟨before, last, hrequests, hlast, hacks, htold, hcollected⟩ := hs
    rw [hacks]
    exact ⟨before, last, hrequests, hlast, hacks, htold, hcollected⟩
  · obtain ⟨msgs, hacks, hshown⟩ := hs
    rw [List.nil_append] at hacks hshown
    rwa [Shown, hacks]

theorem Finished.shown {n : ℕ} {questions : Dialogue TxRequest (TransactionType ι β ο) Last}
    {s : Signing ι β ο} (h : Finished prevTxes this n (questions.asked s.acks) s.acks s) :
    Shown prevTxes this questions s := by
  obtain ⟨before, last, hrequests, -, -, htold, -⟩ := h
  exact ⟨before, hrequests ▸ List.prefix_append before [last], htold⟩

theorem checkSigned_eq_ok {isExternal : ι → Bool} {inputs : List ι}
    {signatures : List (Option Bytes)} (hlen : signatures.length = inputs.length) :
    checkSigned isExternal inputs signatures = .ok () ↔
      ∀ (i : ℕ) (input : ι), inputs[i]? = some input → isExternal input = false →
        ∃ sig, signatures[i]? = some (some sig) := by
  induction inputs generalizing signatures with
  | nil =>
    simp [checkSigned]
  | cons input inputs ih =>
    obtain ⟨sig, signatures, rfl⟩ := List.exists_cons_of_length_eq_add_one hlen
    rw [checkSigned, ite_error_eq_ok, ih (Nat.succ.inj hlen)]
    have hfirst : ¬(!isExternal input && sig.isNone) = true ↔
        (isExternal input = false → ∃ sig', sig = some sig') := by
      rw [← Option.isSome_iff_exists]
      cases isExternal input <;> cases sig <;> simp
    rw [hfirst]
    constructor
    · intro h i input' hinput hexternal
      cases i with
      | zero =>
        obtain rfl : input = input' := by simpa using hinput
        obtain ⟨sig', rfl⟩ := h.1 hexternal
        exact ⟨sig', rfl⟩
      | succ i => exact h.2 i input' (by simpa using hinput) hexternal
    · intro h
      refine ⟨fun hexternal => ?_, fun i input' hinput => h (i + 1) input' (by simpa using hinput)⟩
      obtain ⟨sig', hsig'⟩ := h 0 input rfl hexternal
      exact ⟨sig', by simpa using hsig'⟩

/-- What holds when `sign_tx` returns, and what was shown when it raises. -/
theorem triple_signTx (isExternal : ι → Bool) (device : Device ι β ο) (coinName : String)
    (inputs : List ι) (outputs : List ο) (prevTxes : Dict Bytes (TransactionType ι β ο)) (version : ℤ)
    (lockTime : ℕ) (serialize : Bool) :
    Procedure.Triple (fun _ => True)
      (signTx isExternal device coinName inputs outputs prevTxes version lockTime serialize)
      (fun r s => r = (s.signatures, s.serializedTx) ∧
        checkSigned isExternal inputs s.signatures = .ok () ∧
        Finished prevTxes (thisTx inputs outputs version) inputs.length
          ((device (signTxMessage coinName inputs outputs version lockTime serialize)).asked s.acks)
          s.acks s)
      (fun _ => Shown prevTxes (thisTx inputs outputs version)
        (device (signTxMessage coinName inputs outputs version lockTime serialize))) := by
  set this := thisTx inputs outputs version
  set questions := device (signTxMessage coinName inputs outputs version lockTime serialize)
  refine Procedure.Triple.modify_bind (M := Underway prevTxes this inputs.length [] [])
    (f := fun _ => { signatures := List.replicate inputs.length none })
    (fun _ _ => ⟨rfl, List.Forall₂.nil, Collected.nil inputs.length⟩) ?_
  refine Procedure.Triple.bind (triple_loop questions) fun _ => ?_
  refine Procedure.Triple.get_bind fun s hs => ?_
  refine Procedure.Triple.ofExcept_bind (fun _ hsigned => ?_) fun e s' _ hs' => ?_
  · refine Procedure.Triple.pure fun s' hs' => ?_
    rw [hs']
    exact ⟨rfl, hsigned, hs⟩
  · rw [hs']
    exact hs.shown

/-- What `sign_tx` shows and returns, whatever the device does. Each message is the piece that
one request of the device asks for, of the transaction that the request names, and the
requests are answered in their order, also in a run that raises. When it returns, the device
has ended with `TXFINISHED`, each request before that had its answer, the signatures and
the transaction are those that came with the requests, and no input of the caller is
without its signature. -/
theorem signTx_run (isExternal : ι → Bool) (device : Device ι β ο) (coinName : String)
    (inputs : List ι) (outputs : List ο) (prevTxes : Dict Bytes (TransactionType ι β ο)) (version : ℤ)
    (lockTime : ℕ) (serialize : Bool) (s₀ : Signing ι β ο) :
    Shown prevTxes (thisTx inputs outputs version)
        (device (signTxMessage coinName inputs outputs version lockTime serialize))
        ((signTx isExternal device coinName inputs outputs prevTxes version lockTime serialize).after
          s₀) ∧
      ∀ signatures serializedTx s,
        (signTx isExternal device coinName inputs outputs prevTxes version lockTime serialize).run s₀ =
          .ok (signatures, serializedTx) s →
        ∃ before last,
          (device (signTxMessage coinName inputs outputs version lockTime serialize)).asked s.acks =
            before ++ [last] ∧
          last.requestType = some .TXFINISHED ∧
          List.Forall₂ (Told prevTxes (thisTx inputs outputs version)) before s.acks ∧
          Collected inputs.length (before ++ [last]) signatures serializedTx ∧
          ∀ (i : ℕ) (input : ι), inputs[i]? = some input → isExternal input = false →
            ∃ sig, signatures[i]? = some (some sig) := by
  have htriple := triple_signTx isExternal device coinName inputs outputs prevTxes version lockTime
    serialize
  constructor
  · refine Procedure.Triple.after (htriple.mono (fun _ hs => hs) (fun _ s hs => ?_)
      fun _ _ hs => hs) trivial
    exact hs.2.2.shown
  · intro signatures serializedTx s hrun
    obtain ⟨hr, hsigned, before, last, hrequests, hlast, -, htold, hcollected⟩ :=
      htriple.ok trivial hrun
    obtain ⟨rfl, rfl⟩ := Prod.mk.inj hr
    rw [hrequests] at hcollected
    exact ⟨before, last, hrequests, hlast, htold, hcollected,
      (checkSigned_eq_ok hcollected.length).1 hsigned⟩

end Btc

end Trezorlib

end Hwi
