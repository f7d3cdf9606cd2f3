import Hwi.Proofs.TrezorOutput
import Hwi.Proofs.TrezorPasses

/-! What a signing call says of an output in its requests, or raises before them. -/

namespace Hwi

open Trezor Procedure

namespace TrezorClient

variable {R : Runtime} {chain : Chain} {masterFp : Bytes}

/-! ### The request -/

theorem prepareTxs_isOk_iff {inputs : List PartiallySignedInput}
    {prevtxs : Dict Bytes TransactionType} : (∃ txs, prepareTxs inputs prevtxs = .ok txs) ↔
      ∀ psbtIn ∈ inputs, ∀ prev, psbtIn.nonWitnessUtxo = some prev →
        prev.hash ≠ none ∧ prev.sha256 ≠ none := by
  induction inputs generalizing prevtxs with
  | nil => simp [prepareTxs]
  | cons psbtIn rest ih =>
    rw [List.forall_mem_cons]
    cases hnon : psbtIn.nonWitnessUtxo with
    | none => simp [prepareTxs, hnon, ih]
    | some prev =>
      cases hhash : prev.hash with
      | none => simp [prepareTxs, hnon, hhash]
      | some hash =>
        cases hsha : prev.sha256 with
        | none => simp [prepareTxs, hnon, hhash, hsha]
        | some sha256 => simp [prepareTxs, hnon, hhash, hsha, ih]

theorem prepareTxs_error {inputs : List PartiallySignedInput} {prevtxs : Dict Bytes TransactionType}
    {e : Exc} (h : prepareTxs inputs prevtxs = .error e) : ¬Rejected e := by
  induction inputs generalizing prevtxs with
  | nil => cases h
  | cons psbtIn rest ih =>
    unfold prepareTxs at h
    split at h
    · exact ih h
    · split at h
      · exact ih h
      · cases h
        simp [Rejected, Exc.isHWWError, Exc.isValueError]

section

variable {external : Bool} {psbt : PSBT}

/-- The last steps of a request: the previous transactions, the version and the lock time. -/
def finishRequest (chain : Chain) (psbt : PSBT) (streamed : List Streamed)
    (outputs : List TxOutputType) : Except Exc (List Streamed × SignTx) := do
  let prevTxes ← prepareTxs psbt.inputs ∅
  match psbt.txVersion with
  | none => throw .assertionError
  | some version => do
    let lockTime ← psbt.computeLockTime
    return (streamed, {
      coinName := coinName chain, inputs := streamed.map fun st => st.txinputtype, outputs, prevTxes,
      version, lockTime })

theorem prepareRequest_eq : prepareRequest R chain external masterFp psbt = (do
    let streamed ← prepareInputs R chain external masterFp psbt.xpub 0 psbt.inputs
    let outputs ← psbt.outputs.mapM (prepareOutput R chain masterFp psbt.xpub)
    finishRequest chain psbt streamed outputs) := rfl

theorem finishRequest_verdict (hhash : ∀ psbtIn ∈ psbt.inputs, ∀ prev,
    psbtIn.nonWitnessUtxo = some prev → prev.hash ≠ none) (streamed : List Streamed)
    (outputs : List TxOutputType) :
    Verdict Rejected (finishRequest chain psbt streamed outputs) (fun _ => True)
      (TxComplete psbt ∧ ¬psbt.LocksClash) (¬TxComplete psbt) := by
  have htxs : (∃ txs, prepareTxs psbt.inputs ∅ = .ok txs) ↔ ∀ psbtIn ∈ psbt.inputs, ∀ prev,
      psbtIn.nonWitnessUtxo = some prev → prev.sha256 ≠ none := by
    rw [prepareTxs_isOk_iff]
    exact ⟨fun h psbtIn hin prev hprev => (h psbtIn hin prev hprev).2,
      fun h psbtIn hin prev hprev => ⟨hhash psbtIn hin prev hprev, h psbtIn hin prev hprev⟩⟩
  unfold finishRequest
  cases hprepare : prepareTxs psbt.inputs ∅ with
  | error e =>
    have hno : ¬TxComplete psbt := by
      intro h
      obtain ⟨txs, hok⟩ := htxs.2 h.previous
      rw [hprepare] at hok
      cases hok
    exact .fault (raising_error.2 (prepareTxs_error hprepare)) (fun h => hno h.1) hno
  | ok prevTxes =>
    have hprevious := htxs.1 ⟨prevTxes, hprepare⟩
    cases hversion : psbt.txVersion with
    | none =>
      have hno : ¬TxComplete psbt := fun h => h.version hversion
      refine .fault (raising_error.2 ?_) (fun h => hno h.1) hno
      simp [Rejected, Exc.isHWWError, Exc.isValueError]
    | some version =>
      have hcomplete : TxComplete psbt := ⟨by simp [hversion], hprevious⟩
      rcases psbt.computeLockTime_cases with ⟨hclash, hlock⟩ | ⟨hclash, hlock⟩
      · simp only [ok_bind, hlock]
        exact .raised (raising_error.2 (Or.inl rfl)) (fun h => h.2 hclash) (not_not.2 hcomplete)
      · simp only [ok_bind, hlock]
        exact .ok rfl trivial ⟨hcomplete, hclash⟩ (not_not.2 hcomplete)

theorem prepareOutputs_isOk_iff :
    (∃ outputs, psbt.outputs.mapM (prepareOutput R chain masterFp psbt.xpub) = .ok outputs) ↔
      ∀ psbtOut ∈ psbt.outputs, OutputPasses psbt.xpub psbtOut := by
  rw [exists_mapM_eq_ok]
  exact forall₂_congr fun psbtOut _ =>
    (prepareOutput_verdict R chain masterFp psbt.xpub psbtOut).isOk_iff

theorem raising_prepareOutputs :
    Raising (fun e => ¬Rejected e) (psbt.outputs.mapM (prepareOutput R chain masterFp psbt.xpub)) ↔
      FirstBad (OutputPasses psbt.xpub) (OutputFault psbt.xpub) psbt.outputs :=
  raising_mapM
    (fun psbtOut _ => (prepareOutput_verdict R chain masterFp psbt.xpub psbtOut).isOk_iff)
    fun psbtOut _ => (prepareOutput_verdict R chain masterFp psbt.xpub psbtOut).raising_iff

variable (R chain) in
/-- A request is prepared where the inputs and outputs are passed and the transaction is
complete, and what else is raised comes from the first of these that is not. -/
theorem prepareRequest_iff :
    ((∃ r, prepareRequest R chain external masterFp psbt = .ok r) ↔
      (∀ psbtIn ∈ psbt.inputs, InputPasses external masterFp psbt.xpub psbtIn) ∧
        (∀ psbtOut ∈ psbt.outputs, OutputPasses psbt.xpub psbtOut) ∧ TxComplete psbt ∧
          ¬psbt.LocksClash) ∧
    (Raising (fun e => ¬Rejected e) (prepareRequest R chain external masterFp psbt) ↔
      FirstBad (InputPasses external masterFp psbt.xpub) (InputFault masterFp psbt.xpub) psbt.inputs ∨
        (∀ psbtIn ∈ psbt.inputs, InputPasses external masterFp psbt.xpub psbtIn) ∧
          (FirstBad (OutputPasses psbt.xpub) (OutputFault psbt.xpub) psbt.outputs ∨
            (∀ psbtOut ∈ psbt.outputs, OutputPasses psbt.xpub psbtOut) ∧ ¬TxComplete psbt)) := by
  rw [prepareRequest_eq, raising_bind, raising_prepareInputs, exists_bind_eq_ok,
    ← @prepareInputs_isOk_iff R chain _ _ _ 0]
  cases hstreamed : prepareInputs R chain external masterFp psbt.xpub 0 psbt.inputs with
  | error e => simp
  | ok streamed =>
    have hinputs := prepareInputs_isOk_iff.1 ⟨streamed, hstreamed⟩
    have hhash : ∀ psbtIn ∈ psbt.inputs, ∀ prev, psbtIn.nonWitnessUtxo = some prev →
        prev.hash ≠ none := by
      intro psbtIn hin prev hprev
      rw [(hinputs psbtIn hin).located.hash prev hprev]
      exact Option.some_ne_none _
    simp only [Except.ok.injEq, exists_eq_left', exists_eq', true_and]
    rw [raising_bind, raising_prepareOutputs, exists_bind_eq_ok,
      ← @prepareOutputs_isOk_iff R chain masterFp]
    cases psbt.outputs.mapM (prepareOutput R chain masterFp psbt.xpub) with
    | error e => simp
    | ok outputs =>
      have hfinish := @finishRequest_verdict chain _ hhash streamed outputs
      simp only [Except.ok.injEq, exists_eq_left', exists_eq', true_and]
      exact ⟨hfinish.isOk_iff, or_congr_right (or_congr_right hfinish.raising_iff)⟩

end

/-! ### The call -/

variable {device : Device} {psbt : PSBT}

/-- What a call computes before its first request. -/
def firstRequest (R : Runtime) (chain : Chain) (device : Device) (psbt : PSBT) :
    Except Exc (Bytes × List Streamed × SignTx) := do
  device.checkUnlocked
  let masterKey ← device.masterXpub
  let data ← Base58.decode masterKey
  let r ← prepareRequest R chain (supportsExternal device) ((data.drop 5).take 4) psbt
  return ((data.drop 5).take 4, r)

theorem decode_error {s : Str} {e : Exc} (h : Base58.decode s = .error e) : Rejected e := by
  have hdigits : ∀ (s : Str) (n : ℕ), Base58.fromDigits s n = .error e → Rejected e := by
    intro s
    induction s with
    | nil =>
      intro n h
      cases h
    | cons c s ih =>
      intro n h
      unfold Base58.fromDigits at h
      split_ifs at h
      · exact ih _ h
      · cases h
        exact Or.inl rfl
  unfold Base58.decode at h
  split_ifs at h
  rcases bind_eq_error.1 h with h | ⟨n, -, h⟩
  · exact hdigits s 0 h
  · cases h

/-- What comes before a request: the device says what its key is, or it is broken. -/
theorem firstRequest_cases (R : Runtime) (chain : Chain) (device : Device) (psbt : PSBT) :
    (∃ masterFp, Started device masterFp ∧ firstRequest R chain device psbt =
      (prepareRequest R chain (supportsExternal device) masterFp psbt).map fun r => (masterFp, r)) ∨
    (∀ masterFp, ¬Started device masterFp) ∧ ∃ e, firstRequest R chain device psbt = .error e ∧
      (¬Rejected e ↔ (∃ e, device.checkUnlocked = .error e ∧ ¬Rejected e) ∨
        ∃ e, device.checkUnlocked = .ok () ∧ device.masterXpub = .error e ∧ ¬Rejected e) := by
  unfold firstRequest
  cases hunlocked : device.checkUnlocked with
  | error e =>
    refine Or.inr ⟨fun _ h => ?_, e, rfl, by simp⟩
    rw [h.unlocked] at hunlocked
    cases hunlocked
  | ok u =>
    rw [ok_bind]
    cases hkey : device.masterXpub with
    | error e =>
      refine Or.inr ⟨fun _ h => ?_, e, rfl, by simp⟩
      obtain ⟨_, _, hok, -⟩ := h.fingerprint
      rw [hkey] at hok
      cases hok
    | ok masterKey =>
      rw [ok_bind]
      cases hdata : Base58.decode masterKey with
      | error e =>
        refine Or.inr ⟨fun _ h => ?_, e, rfl, by simp [decode_error hdata]⟩
        obtain ⟨_, _, hok, hdecode, -⟩ := h.fingerprint
        rw [hkey] at hok
        cases hok
        rw [hdata] at hdecode
        cases hdecode
      | ok data =>
        refine Or.inl ⟨_, ⟨hunlocked, masterKey, data, hkey, hdata, rfl⟩, ?_⟩
        rw [ok_bind]
        cases prepareRequest R chain (supportsExternal device) ((data.drop 5).take 4) psbt <;> rfl

theorem Started.unique {masterFp' : Bytes} (h : Started device masterFp)
    (h' : Started device masterFp') : masterFp = masterFp' := by
  obtain ⟨_, key, data, hkey, hdata, rfl⟩ := h
  obtain ⟨_, key', data', hkey', hdata', rfl⟩ := h'
  rw [hkey] at hkey'
  cases hkey'
  rw [hdata] at hdata'
  cases hdata'
  rfl

/-- What ends a call before its request otherwise than with an `HWWError`. -/
theorem raising_firstRequest (R : Runtime) (chain : Chain) (device : Device) (psbt : PSBT) :
    Raising (fun e => ¬Rejected e) (firstRequest R chain device psbt) ↔ Broken device psbt := by
  rcases firstRequest_cases R chain device psbt with
    ⟨masterFp, hstart, heq⟩ | ⟨hnone, e, heq, he⟩
  · have hmap : Raising (fun e => ¬Rejected e) (firstRequest R chain device psbt) ↔
        Raising (fun e => ¬Rejected e)
          (prepareRequest R chain (supportsExternal device) masterFp psbt) := by
      rw [heq]
      cases prepareRequest R chain (supportsExternal device) masterFp psbt with
      | error e => simp [Except.map, raising_error]
      | ok r => exact iff_of_false not_raising_ok not_raising_ok
    rw [hmap, (prepareRequest_iff R chain).2]
    constructor
    · rintro (hinputs | ⟨hinputs, houtputs | ⟨houtputs, hcomplete⟩⟩)
      · exact .input hstart hinputs
      · exact .output hstart hinputs houtputs
      · exact .incomplete hstart hinputs houtputs hcomplete
    · intro hbroken
      cases hbroken with
      | locked h _ =>
        rw [hstart.unlocked] at h
        cases h
      | masterXpub _ h _ =>
        obtain ⟨_, _, hok, -⟩ := hstart.fingerprint
        rw [h] at hok
        cases hok
      | input hstart' h =>
        rw [← hstart.unique hstart'] at h
        exact Or.inl h
      | output hstart' hinputs h =>
        rw [← hstart.unique hstart'] at hinputs
        exact Or.inr ⟨hinputs, Or.inl h⟩
      | incomplete hstart' hinputs houtputs h =>
        rw [← hstart.unique hstart'] at hinputs
        exact Or.inr ⟨hinputs, Or.inr ⟨houtputs, h⟩⟩
  · rw [heq, raising_error, he]
    constructor
    · rintro (⟨e, h, hrejected⟩ | ⟨e, hunlocked, h, hrejected⟩)
      · exact .locked h hrejected
      · exact .masterXpub hunlocked h hrejected
    · intro hbroken
      cases hbroken with
      | locked h hrejected => exact Or.inl ⟨_, h, hrejected⟩
      | masterXpub hunlocked h hrejected => exact Or.inr ⟨_, hunlocked, h, hrejected⟩
      | input hstart _ => exact absurd hstart (hnone _)
      | output hstart _ _ => exact absurd hstart (hnone _)
      | incomplete hstart _ _ _ => exact absurd hstart (hnone _)

/-- When a call gets to its request. -/
theorem firstRequest_isOk_iff (R : Runtime) (chain : Chain) (device : Device) (psbt : PSBT)
    (masterFp : Bytes) : (∃ r, firstRequest R chain device psbt = .ok (masterFp, r)) ↔
      Requested device psbt masterFp := by
  rcases firstRequest_cases R chain device psbt with
    ⟨masterFp', hstart, heq⟩ | ⟨hnone, e, heq, -⟩
  · have hmap : (∃ r, firstRequest R chain device psbt = .ok (masterFp, r)) ↔ masterFp' = masterFp ∧
        ∃ r, prepareRequest R chain (supportsExternal device) masterFp' psbt = .ok r := by
      rw [heq]
      cases prepareRequest R chain (supportsExternal device) masterFp' psbt with
      | error e => simp [Except.map]
      | ok r => simp [Except.map]
    rw [hmap, (prepareRequest_iff R chain).1]
    constructor
    · rintro ⟨rfl, hinputs, houtputs, hcomplete, hlocks⟩
      exact ⟨hstart, hinputs, houtputs, hcomplete, hlocks⟩
    · rintro ⟨hstart', hinputs, houtputs, hcomplete, hlocks⟩
      obtain rfl := hstart.unique hstart'
      exact ⟨rfl, hinputs, houtputs, hcomplete, hlocks⟩
  · rw [heq]
    refine iff_of_false ?_ fun h => hnone _ h.started
    rintro ⟨r, h⟩
    cases h

/-! ### The requests of a call -/

/-- Each request says of the outputs what is prepared of them, and they stay as they are. -/
structure Asked (R : Runtime) (chain : Chain) (masterFp : Bytes) (psbt : PSBT) (s : State) : Prop where
  outputs : s.psbt.outputs = psbt.outputs
  xpub : s.psbt.xpub = psbt.xpub
  requests : ∀ request ∈ s.requests,
    psbt.outputs.mapM (prepareOutput R chain masterFp psbt.xpub) = .ok request.outputs

theorem keeps_asked_signPass (masterFp : Bytes) (psbt : PSBT) (passes : ℕ) :
    Keeps (Asked R chain masterFp psbt) (signPass R chain device masterFp passes) := by
  unfold signPass
  refine Triple.get_bind fun s hs => ?_
  refine Triple.ofExcept_bind (fun prepared hprepared => ?_) ?_
  · obtain ⟨streamed, request⟩ := prepared
    have houtputs := (prepareRequest_eq_ok hprepared).2.2
    rw [hs.outputs, hs.xpub] at houtputs
    refine Triple.modify_bind (M := Asked R chain masterFp psbt) ?_ ?_
    · rintro _ rfl
      refine ⟨hs.outputs, hs.xpub, fun request' hmem => ?_⟩
      rcases List.mem_append.1 hmem with hold | hnew
      · exact hs.requests request' hold
      · rw [List.mem_singleton.1 hnew]
        exact houtputs
    refine Triple.ofExcept_bind (fun sign _ => ?_) fun _ _ _ h => h
    exact fun t ht => ⟨hs.outputs, hs.xpub, ht.requests⟩
  · rintro _ _ _ rfl
    exact hs

theorem keeps_requests_signPass (masterFp : Bytes) (passes : ℕ) :
    Keeps (fun s => s.requests ≠ []) (signPass R chain device masterFp passes) := by
  unfold signPass
  refine Triple.get_bind fun s hs => ?_
  refine Triple.ofExcept_bind (fun prepared _ => ?_) ?_
  · obtain ⟨streamed, request⟩ := prepared
    refine Triple.modify_bind (M := fun s => s.requests ≠ []) ?_ ?_
    · rintro _ rfl
      exact List.append_ne_nil_of_left_ne_nil hs _
    exact Triple.ofExcept_bind (fun sign _ t ht => ht) fun _ _ _ h => h
  · rintro _ _ _ rfl
    exact hs

/-- The first pass ends with the exception of its preparation, or asks for signatures. -/
theorem triple_signPass_first {s₀ : State} (masterFp : Bytes) (passes : ℕ) :
    Triple (· = s₀) (signPass R chain device masterFp passes)
      (fun _ s => s.requests ≠ [] ∧
        ∃ r, prepareRequest R chain (supportsExternal device) masterFp s₀.psbt = .ok r)
      fun e s =>
        (s = s₀ ∧ prepareRequest R chain (supportsExternal device) masterFp s₀.psbt = .error e) ∨
          s.requests ≠ [] ∧
            ∃ r, prepareRequest R chain (supportsExternal device) masterFp s₀.psbt = .ok r := by
  unfold signPass
  refine Triple.get_bind ?_
  rintro s rfl
  refine Triple.ofExcept_bind (fun prepared hprepared => ?_) fun e _ he hs => Or.inl ⟨hs, he⟩
  obtain ⟨streamed, request⟩ := prepared
  refine Triple.modify_bind (M := fun s => s.requests ≠ []) ?_ ?_
  · rintro _ rfl
    exact List.append_ne_nil_of_right_ne_nil _ (List.cons_ne_nil _ _)
  refine Triple.ofExcept_bind (fun sign _ t ht => ⟨ht, _, hprepared⟩) fun e _ _ ht => ?_
  exact Or.inr ⟨ht, _, hprepared⟩

/-- The errors that `trezor_exception` makes a `HWWError` of. -/
theorem decorated_isHWWError (e : Exc) : (match e with
    | .valueError msg => Exc.badArgumentError msg
    | e => if e.isValueError then .badArgumentError "" else e).isHWWError = true ↔ Rejected e := by
  cases e <;> simp [Rejected, Exc.isHWWError, Exc.isValueError]

/-- A call ends before its request with the exception of what comes before, through the
decorator, or it asks for signatures. -/
theorem triple_signTx_requests (R : Runtime) (chain : Chain) (device : Device) (psbt : PSBT) :
    Triple (· = { psbt }) (signTx R chain device false)
      (fun _ s => ∃ masterFp r, firstRequest R chain device psbt = .ok (masterFp, r) ∧
        Asked R chain masterFp psbt s ∧ s.requests ≠ [])
      fun e s =>
        (s.requests = [] ∧ ∃ e₀, firstRequest R chain device psbt = .error e₀ ∧
          (e.isHWWError = true ↔ Rejected e₀)) ∨
        ∃ masterFp r, firstRequest R chain device psbt = .ok (masterFp, r) ∧
          Asked R chain masterFp psbt s ∧ s.requests ≠ [] := by
  refine Triple.adaptExcept ?_
  rw [if_neg Bool.false_ne_true]
  unfold firstRequest
  cases device.checkUnlocked with
  | error e =>
    rintro _ rfl
    exact Or.inl ⟨rfl, e, rfl, decorated_isHWWError e⟩
  | ok u =>
    rw [ok_bind]
    refine Triple.ofExcept_bind (fun _ _ => ?_) fun _ _ h => (by cases h)
    cases device.masterXpub with
    | error e =>
      rintro _ rfl
      exact Or.inl ⟨rfl, e, rfl, decorated_isHWWError e⟩
    | ok masterKey =>
      rw [ok_bind]
      refine Triple.ofExcept_bind (fun key hkey => ?_) fun _ _ h => (by cases h)
      obtain rfl := Except.ok.inj hkey
      cases Base58.decode masterKey with
      | error e =>
        rintro _ rfl
        exact Or.inl ⟨rfl, e, rfl, decorated_isHWWError e⟩
      | ok data =>
        rw [ok_bind]
        refine Triple.ofExcept_bind (fun data' hdata => ?_) fun _ _ h => (by cases h)
        obtain rfl := Except.ok.inj hdata
        refine Triple.get_bind ?_
        rintro _ rfl
        obtain ⟨fuel, hfuel⟩ := Nat.exists_eq_add_of_le' (show 1 ≤ maxPasses psbt from
          (foldl_max_le_iff.1 le_rfl).1)
        rw [hfuel, signPasses, if_pos Nat.one_pos]
        have hasked : Asked R chain ((data.drop 5).take 4) psbt { psbt } :=
          ⟨rfl, rfl, fun _ hmem => absurd hmem List.not_mem_nil⟩
        have hfirst := (@triple_signPass_first R chain device { psbt } ((data.drop 5).take 4) 1).and
          (@keeps_asked_signPass R chain device ((data.drop 5).take 4) psbt 1)
        refine Triple.bind (M := fun _ s => (∃ r, prepareRequest R chain (supportsExternal device)
            ((data.drop 5).take 4) psbt = .ok r) ∧
          Asked R chain ((data.drop 5).take 4) psbt s ∧ s.requests ≠ [])
          (hfirst.mono ?_ ?_ ?_) fun passes => ?_
        · rintro _ rfl
          exact ⟨rfl, hasked⟩
        · rintro _ s ⟨⟨hne, hr⟩, hs⟩
          exact ⟨hr, hs, hne⟩
        · rintro e s ⟨⟨rfl, herror⟩ | ⟨hne, r, hr⟩, hs⟩
          · refine Or.inl ⟨rfl, e, ?_, decorated_isHWWError e⟩
            rw [herror]
            rfl
          · refine Or.inr ⟨_, r, ?_, hs, hne⟩
            rw [hr]
            rfl
        · have hrest := (keeps_signPasses (@keeps_asked_signPass R chain device ((data.drop 5).take 4) psbt)
            fuel 1 passes).and
            (keeps_signPasses (@keeps_requests_signPass R chain device _) fuel 1 passes)
          intro s hs
          obtain ⟨⟨r, hr⟩, hs, hne⟩ := hs
          refine (hrest.mono (fun _ h => h) (fun _ t ht => ?_) fun _ t ht => ?_) s ⟨hs, hne⟩
          · refine ⟨_, r, ?_, ht⟩
            rw [hr]
            rfl
          · refine Or.inr ⟨_, r, ?_, ht⟩
            rw [hr]
            rfl

/-- How a call ends: before its request, or after one. -/
theorem signTx_ends (R : Runtime) (chain : Chain) (device : Device) (psbt : PSBT) :
    (((signTx R chain device false).after { psbt }).requests = [] ∧
      ∃ e s e₀, (signTx R chain device false).run { psbt } = .error e s ∧
        firstRequest R chain device psbt = .error e₀ ∧ (e.isHWWError = true ↔ Rejected e₀)) ∨
    ∃ masterFp r, firstRequest R chain device psbt = .ok (masterFp, r) ∧
      Asked R chain masterFp psbt ((signTx R chain device false).after { psbt }) ∧
        ((signTx R chain device false).after { psbt }).requests ≠ [] := by
  have htriple := triple_signTx_requests R chain device psbt
  unfold after
  cases hrun : (signTx R chain device false).run { psbt } with
  | ok u s => exact Or.inr (htriple.ok rfl hrun)
  | error e s =>
    rcases htriple.error rfl hrun with ⟨hnone, e₀, hfirst, he⟩ | hasked
    · exact Or.inl ⟨hnone, e, s, e₀, rfl, hfirst, he⟩
    · exact Or.inr hasked

/-- Each request says which script an output has if it is one that a request can say. -/
theorem Asked.determines_iff {masterFp : Bytes} {s : State} {k : ℕ} {psbtOut : PartiallySignedOutput}
    (h : Asked R chain masterFp psbt s) (hne : s.requests ≠ []) (hout : psbt.outputs[k]? = some psbtOut) :
    (∀ request ∈ s.requests, ∃ txoutput, request.outputs[k]? = some txoutput ∧
      Determines R chain psbtOut.script txoutput) ↔ Representable masterFp psbtOut := by
  have hsent : ∀ request ∈ s.requests, ∃ txoutput, request.outputs[k]? = some txoutput ∧
      (Determines R chain psbtOut.script txoutput ↔ Representable masterFp psbtOut) := by
    intro request hmem
    have houtputs := mapM_eq_ok.1 (h.requests request hmem)
    have hlt := (List.getElem?_eq_some_iff.1 hout).1
    rw [houtputs.length_eq] at hlt
    have hget := List.getElem?_eq_getElem hlt
    exact ⟨_, hget, (prepareOutput_verdict R chain masterFp psbt.xpub psbtOut).returned
      (forall₂_getElem? houtputs hout hget)⟩
  constructor
  · intro hall
    obtain ⟨request, hmem⟩ := List.exists_mem_of_ne_nil _ hne
    obtain ⟨txoutput, hget, hiff⟩ := hsent request hmem
    obtain ⟨txoutput', hget', hdet⟩ := hall request hmem
    obtain rfl := Option.some.inj (hget.symm.trans hget')
    exact hiff.1 hdet
  · intro hrep request hmem
    obtain ⟨txoutput, hget, hiff⟩ := hsent request hmem
    exact ⟨txoutput, hget, hiff.2 hrep⟩

/-- A call rejects the PSBT with an `HWWError`, or says of an output which script it has in
each request, exactly where nothing else ends it and the request can say so. -/
theorem signTx_outputs (R : Runtime) (chain : Chain) (device : Device)
    (registeredDescriptors : Bool) (psbt : PSBT) (k : ℕ) (psbtOut : PartiallySignedOutput)
    (hout : psbt.outputs[k]? = some psbtOut) :
    OutputPaid R chain device registeredDescriptors psbt k psbtOut.script ↔
      Payable device registeredDescriptors psbt psbtOut := by
  cases registeredDescriptors with
  | true =>
    refine iff_of_true ⟨fun _ => ⟨_, _, rfl, rfl⟩, fun request hmem => ?_⟩ (Or.inl rfl)
    exact absurd hmem List.not_mem_nil
  | false =>
    unfold Payable
    rw [← raising_firstRequest R chain]
    simp only [← firstRequest_isOk_iff R chain, Bool.false_eq_true, false_or]
    rcases signTx_ends R chain device psbt with
      ⟨hnone, e, s, e₀, hrun, hfirst, he⟩ | ⟨masterFp, r, hfirst, hasked, hne⟩
    · rw [hfirst, raising_error, not_not, ← he]
      constructor
      · intro h
        obtain ⟨e', s', hrun', hhww⟩ := h.rejected hnone
        rw [hrun] at hrun'
        cases hrun'
        exact ⟨hhww, fun masterFp ⟨r, hr⟩ => by cases hr⟩
      · intro h
        refine ⟨fun _ => ⟨e, s, hrun, h.1⟩, fun request hmem => ?_⟩
        rw [hnone] at hmem
        exact absurd hmem List.not_mem_nil
    · have hdetermines := hasked.determines_iff hne hout
      rw [hfirst]
      constructor
      · intro h
        refine ⟨not_raising_ok, ?_⟩
        rintro _ ⟨r', hr'⟩
        cases hr'
        exact hdetermines.1 h.determined
      · intro h
        exact ⟨fun hnone => absurd hnone hne, hdetermines.2 (h.2 masterFp ⟨r, rfl⟩)⟩

/-! ### An output with data -/

def outputSample (script : Bytes) : PSBT :=
  { p2wpkhSample [] with outputs := [{ version := 2, amount := some 4, script }] }

/-- Eighty bytes of data, as they are pushed. -/
def longDataScript : Bytes := [0x6a, 0x4c, 80] ++ List.replicate 80 1

/-- The calls of the device that are begun. -/
def sampleRequests (psbt : PSBT) : List SignTx :=
  ((signTx Runtime.zeros .main sampleDevice false).after { psbt }).requests

/-- Data after a direct push are sent as they are, and say which script the output has. -/
theorem signTx_outputs_direct :
    OutputPaid Runtime.zeros .main sampleDevice false (outputSample [0x6a, 0x01, 0xaa]) 0
        [0x6a, 0x01, 0xaa] ∧
      (sampleRequests (outputSample [0x6a, 0x01, 0xaa])).map (fun request =>
        request.outputs.map fun txoutput => txoutput.opReturnData) = [[some [0xaa]]] := by
  refine ⟨?_, by decide +kernel⟩
  refine (signTx_outputs Runtime.zeros .main sampleDevice false (outputSample [0x6a, 0x01, 0xaa]) 0
    _ rfl).2 (Or.inr ⟨?_, fun masterFp _ => ?_⟩)
  · rw [← raising_firstRequest Runtime.zeros .main]
    have hsome : (firstRequest Runtime.zeros .main sampleDevice
        (outputSample [0x6a, 0x01, 0xaa])).toOption.isSome = true := by decide +kernel
    obtain ⟨r, hr⟩ := Option.isSome_iff_exists.1 hsome
    rw [toOption_eq_some.1 hr]
    exact not_raising_ok
  · refine ⟨fun _ => ⟨[0xaa], rfl, by decide⟩, fun path hpath => ?_, fun prog hw => ?_⟩
    · exact absurd rfl hpath.head?_ne
    · exact absurd rfl (head?_of_witnessProgram hw)

/-- After PUSHDATA1 the length is sent with the data, so that what they push is
not the script. -/
theorem signTx_outputs_pushData1 :
    ((outputSample longDataScript).serialize Runtime.zeros >>=
        PSBT.deserialize Runtime.zeros {}) = .ok (outputSample longDataScript) ∧
      longDataScript = 0x6a :: pushData (List.replicate 80 1) ∧
      ¬OutputPaid Runtime.zeros .main sampleDevice false (outputSample longDataScript) 0
        longDataScript := by
  refine ⟨by decide +kernel, by decide +kernel, fun h => ?_⟩
  obtain ⟨request, hmem, hdata⟩ := exists_of_map_eq_singleton
    (b := [some (80 :: List.replicate 80 1)])
    (f := fun request => request.outputs.map fun txoutput => txoutput.opReturnData)
    (l := sampleRequests (outputSample longDataScript)) (by decide +kernel)
  obtain ⟨txoutput, hout, hdata⟩ := List.map_eq_singleton_iff.1 hdata
  obtain ⟨txoutput', hget, hdetermines⟩ := h.determined request hmem
  rw [hout] at hget
  obtain rfl := Option.some.inj hget
  exact absurd (hdetermines.opReturn _ hdata) (by decide +kernel)

end TrezorClient

end Hwi
