import Hwi.Lib.Indexed
import Hwi.Proofs.Bitbox02

/-! `sign_tx` of the BitBox02: what one pass of each loop gathers, what the request for
signatures then says, and where the signatures are put. -/

namespace Hwi

namespace Bitbox02

open Procedure

/-- What an entry that has been gathered rests on stays. -/
structure Grows (s s' : Session) : Prop where
  requests : s.requests <+: s'.requests
  scriptConfigs : s.scriptConfigs <+: s'.scriptConfigs
  account : ∀ account, s.bip44Account = some account → s'.bip44Account = some account

end Bitbox02

namespace Bitbox02Client

open Bitbox02 Procedure

variable {R : Runtime} {chain : Chain} {device : Device}
  {policyScriptConfig : Option BTCScriptConfigWithKeypath} {masterFp : Bytes} {psbt : PSBT}
  {s s' : Session} {ins : List (PartiallySignedInput × ℕ)} {outs : List (PartiallySignedOutput × ℕ)}

theorem Computed.mono {config : BTCScriptConfigWithKeypath} {output : CTxOut} {keypath : List ℤ}
    {redeemScript witnessScript : Bytes} {requests requests' : List Request}
    (h : Computed R chain device policyScriptConfig psbt config output keypath redeemScript
      witnessScript requests) (hrequests : requests <+: requests') :
    Computed R chain device policyScriptConfig psbt config output keypath redeemScript
      witnessScript requests' := by
  obtain ⟨s, s', hrun, hs, hs'⟩ := h
  exact ⟨s, s', hrun, hs, hs'.trans hrequests⟩

theorem InputSent.mono {x : PartiallySignedInput × ℕ} {entry : BTCInput} (h : Grows s s')
    (hsent : InputSent R chain device policyScriptConfig masterFp psbt s x entry) :
    InputSent R chain device policyScriptConfig masterFp psbt s' x entry := by
  obtain ⟨found, config, hfound, haccount, hcomputed, hindex, hentry⟩ := hsent
  exact ⟨found, config, hfound, h.account _ haccount, hcomputed.mono h.requests,
    getElem?_of_prefix h.scriptConfigs hindex, hentry⟩

theorem OutputSent.mono {x : PartiallySignedOutput × ℕ} {output : BTCOutput} (h : Grows s s')
    (hsent : OutputSent R chain device policyScriptConfig masterFp psbt s x output) :
    OutputSent R chain device policyScriptConfig masterFp psbt s' x output := by
  rcases hsent with ⟨txOut, keypath, config, index, hfound, hcomputed, hindex, houtput⟩ | hexternal
  · exact Or.inl ⟨txOut, keypath, config, index, hfound, hcomputed.mono h.requests,
      getElem?_of_prefix h.scriptConfigs hindex, houtput⟩
  · exact Or.inr hexternal

theorem checkAccount_ok {bip44Account bip44Account' : Option ℤ} {account : ℤ}
    (h : checkAccount bip44Account account = .ok bip44Account') :
    bip44Account' = some account ∧ ∀ a, bip44Account = some a → bip44Account' = some a := by
  cases bip44Account with
  | none =>
    cases h
    exact ⟨rfl, fun _ => nofun⟩
  | some a =>
    simp only [checkAccount] at h
    split_ifs at h with ha
    cases h
    exact ⟨congrArg some (not_not.1 ha), fun _ h => h⟩

/-- The session after one more input. -/
theorem Gathered.addInput {x : PartiallySignedInput × ℕ} {found : FoundInput} {account : Option ℤ}
    {config : BTCScriptConfigWithKeypath}
    (h : Gathered R chain device policyScriptConfig masterFp psbt ins [] s)
    (hfound : findInput x.2 masterFp x.1 = .ok found)
    (haccount : checkAccount s.bip44Account found.account = .ok account) (hasks : Asks s s')
    (hrun : (scriptConfigFromUtxo R chain device policyScriptConfig s.psbt.xpub found.utxo
      found.keypath x.1.redeemScript x.1.witnessScript).run s = .ok config s') :
    Gathered R chain device policyScriptConfig masterFp psbt (ins ++ [x]) [] { s' with
      foundPubkeys := s'.foundPubkeys ++ [found.foundPubkey]
      bip44Account := account
      scriptConfigs := (addScriptConfig config s'.scriptConfigs).2
      inputs := s'.inputs ++
        [inputEntry x.1 found (addScriptConfig config s'.scriptConfigs).1] } := by
  have hunsigned := hasks.unsigned h.unsigned
  have hrequests := hasks.requests
  obtain ⟨rs, rfl, -⟩ := hasks
  obtain ⟨haccount, hkept⟩ := checkAccount_ok haccount
  have hgrows : ∀ foundPubkeys inputs, Grows s { s with
      requests := s.requests ++ rs
      foundPubkeys, inputs
      bip44Account := account
      scriptConfigs := (addScriptConfig config s.scriptConfigs).2 } := fun _ _ =>
    ⟨hrequests, prefix_intern, hkept⟩
  constructor
  case unchanged => exact h.unchanged
  case unsigned => exact hunsigned
  case nodup => exact nodup_intern h.nodup
  case inputs =>
    refine List.rel_append (h.inputs.imp fun _ _ => InputSent.mono (hgrows _ _)) ?_
    refine List.Forall₂.cons ⟨found, config, hfound, haccount, ?_, intern_getElem?, rfl⟩ .nil
    exact ⟨s, _, h.unchanged ▸ hrun, hrequests, List.prefix_rfl⟩
  case pubkeys => exact List.rel_append h.pubkeys (.cons ⟨found, hfound, rfl⟩ .nil)
  case outputs => exact h.outputs.imp fun _ _ => OutputSent.mono (hgrows _ _)
  case account => exact fun hnil => absurd hnil (by simp)

/-- The session after one more output. -/
theorem Gathered.addOutput {x : PartiallySignedOutput × ℕ} {output : BTCOutput}
    (h : Gathered R chain device policyScriptConfig masterFp psbt ins outs s) (hgrows : Grows s s')
    (hpsbt : s'.psbt = s.psbt) (hunsigned : Unsigned s') (hnodup : s'.scriptConfigs.Nodup)
    (hinputs : s'.inputs = s.inputs) (hpubkeys : s'.foundPubkeys = s.foundPubkeys)
    (haccount : s'.bip44Account = s.bip44Account) (houtputs : s'.outputs = s.outputs ++ [output])
    (hsent : OutputSent R chain device policyScriptConfig masterFp psbt s' x output) :
    Gathered R chain device policyScriptConfig masterFp psbt ins (outs ++ [x]) s' where
  unchanged := hpsbt.trans h.unchanged
  unsigned := hunsigned
  nodup := hnodup
  inputs := hinputs ▸ h.inputs.imp fun _ _ => InputSent.mono hgrows
  pubkeys := hpubkeys ▸ h.pubkeys
  outputs := by
    rw [houtputs]
    exact List.rel_append (h.outputs.imp fun _ _ => OutputSent.mono hgrows) (.cons hsent .nil)
  account := fun hnil => haccount.trans (h.account hnil)

/-! ### One pass of each loop -/

theorem triple_signInput {x : PartiallySignedInput × ℕ} :
    Triple (Gathered R chain device policyScriptConfig masterFp psbt ins [])
      (signInput R chain device policyScriptConfig masterFp x.1 x.2)
      (fun _ => Gathered R chain device policyScriptConfig masterFp psbt (ins ++ [x]) [])
      (fun _ s => Unsigned s) := by
  unfold signInput
  refine Triple.ofExcept_bind (fun found hfound => ?_) fun e s he hs => hs.unsigned
  refine Triple.get_bind fun s hs => ?_
  refine Triple.ofExcept_bind (fun account haccount => ?_) fun e s' he hs' => hs' ▸ hs.unsigned
  refine Triple.bind ((triple_of_keeps fun s₀ => keeps_scriptConfigFromUtxo _ _ _ _ _ _).mono
    (fun _ hs => hs) (fun _ _ hs => hs) ?_) fun config => ?_
  · rintro e s' ⟨hasks, -⟩
    exact hasks.unsigned hs.unsigned
  · rintro s' ⟨hasks, hrun⟩
    exact hs.addInput hfound haccount hasks hrun

theorem triple_signOutput {x : PartiallySignedOutput × ℕ} :
    Triple (Gathered R chain device policyScriptConfig masterFp psbt ins outs)
      (signOutput R chain device policyScriptConfig masterFp x.1 x.2)
      (fun _ => Gathered R chain device policyScriptConfig masterFp psbt ins (outs ++ [x]))
      (fun _ s => Unsigned s) := by
  unfold signOutput
  refine Triple.ofExcept_bind (fun found hfound => ?_) fun e s he hs => hs.unsigned
  obtain ⟨txOut, change⟩ := found
  cases change with
  | none =>
    refine Triple.ofExcept_bind (fun output houtput => ?_) fun e s he hs => hs.unsigned
    intro s hs
    exact hs.addOutput ⟨List.prefix_rfl, List.prefix_rfl, fun _ h => h⟩ rfl hs.unsigned hs.nodup
      rfl rfl rfl rfl (Or.inr ⟨txOut, hfound, houtput⟩)
  | some keypath =>
    refine Triple.get_bind fun s hs => ?_
    refine Triple.bind ((triple_of_keeps fun s₀ => keeps_scriptConfigFromUtxo _ _ _ _ _ _).mono
      (fun _ hs => hs) (fun _ _ hs => hs) ?_) fun config => ?_
    · rintro e s' ⟨hasks, -⟩
      exact hasks.unsigned hs.unsigned
    · rintro s' ⟨hasks, hrun⟩
      have hunsigned := hasks.unsigned hs.unsigned
      have hrequests := hasks.requests
      obtain ⟨rs, rfl, -⟩ := hasks
      refine hs.addOutput ⟨hrequests, prefix_intern, fun _ h => h⟩ rfl hunsigned
        (nodup_intern hs.nodup) rfl rfl rfl rfl (Or.inl ?_)
      exact ⟨txOut, keypath, config, _, hfound,
        ⟨s, _, hs.unchanged ▸ hrun, hrequests, List.prefix_rfl⟩, intern_getElem?, rfl⟩

/-! ### The loops -/

theorem triple_inputs : Triple (Gathered R chain device policyScriptConfig masterFp psbt [] [])
    (forM psbt.inputs.zipIdx fun (psbtIn, inputIndex) =>
      signInput R chain device policyScriptConfig masterFp psbtIn inputIndex)
    (fun _ => Gathered R chain device policyScriptConfig masterFp psbt psbt.inputs.zipIdx [])
    (fun _ s => Unsigned s) :=
  Triple.forM (I := fun ins => Gathered R chain device policyScriptConfig masterFp psbt ins [])
    (fun _ _ _ => triple_signInput) []

theorem triple_outputs :
    Triple (Gathered R chain device policyScriptConfig masterFp psbt ins [])
      (forM psbt.outputs.zipIdx fun (psbtOut, outputIndex) =>
        signOutput R chain device policyScriptConfig masterFp psbtOut outputIndex)
      (fun _ => Gathered R chain device policyScriptConfig masterFp psbt ins psbt.outputs.zipIdx)
      (fun _ s => Unsigned s) :=
  Triple.forM (I := fun outs => Gathered R chain device policyScriptConfig masterFp psbt ins outs)
    (fun _ _ _ => triple_signOutput) []

/-! ### Whole calls -/

/-- The session after the request for signatures. -/
def SentFrom (R : Runtime) (chain : Chain) (device : Device)
    (policyScriptConfig : Option BTCScriptConfigWithKeypath) (masterFp : Bytes) (psbt : PSBT)
    (sign : SignRequest) (s s' : Session) : Prop :=
  Sent R chain device policyScriptConfig masterFp psbt s sign ∧
    s'.requests = s.requests ++ [.btcSign sign]

theorem triple_sendSign : Triple
    (fun s => Gathered R chain device policyScriptConfig masterFp psbt psbt.inputs.zipIdx
      psbt.outputs.zipIdx s ∧ s.bip44Account ≠ none)
    (sendSign chain device)
    (fun sigs s' => ∃ s sign, Sent R chain device policyScriptConfig masterFp psbt s sign ∧
      device s.requests (.btcSign sign) = .ok sigs ∧
      s' = { s with requests := s.requests ++ [.btcSign sign] })
    (fun _ s' => Unsigned s' ∨
      ∃ s sign, SentFrom R chain device policyScriptConfig masterFp psbt sign s s') := by
  unfold sendSign
  refine Triple.get_bind fun s hs => ?_
  obtain ⟨hgathered, haccount⟩ := hs
  cases s.psbt.txVersion with
  | none => exact Triple.throw fun s' hs' => Or.inl (hs' ▸ hgathered.unsigned)
  | some version =>
    refine Triple.ofExcept_bind (fun locktime _ => ?_) fun e s' _ hs' =>
      Or.inl (hs' ▸ hgathered.unsigned)
    have hsent : Sent R chain device policyScriptConfig masterFp psbt s {
        coin := getCoin chain
        scriptConfigs := s.scriptConfigs
        inputs := s.inputs
        outputs := s.outputs
        locktime, version } := ⟨hgathered, haccount, rfl, rfl, rfl⟩
    refine triple_makeRequest.mono (fun _ hs => hs) ?_ ?_
    · rintro sigs s' ⟨rfl, hsigs⟩
      exact ⟨s, _, hsent, hsigs, rfl⟩
    · rintro e s' ⟨rfl, -⟩
      exact Or.inr ⟨s, _, hsent, rfl⟩

theorem Gathered.asks (h : Gathered R chain device policyScriptConfig masterFp psbt ins outs s)
    (hasks : Asks s s') : Gathered R chain device policyScriptConfig masterFp psbt ins outs s' := by
  have hunsigned := hasks.unsigned h.unsigned
  have hrequests := hasks.requests
  obtain ⟨rs, rfl, -⟩ := hasks
  have hgrows : Grows s { s with requests := s.requests ++ rs } :=
    ⟨hrequests, List.prefix_rfl, fun _ h => h⟩
  exact {
    h with
    unsigned := hunsigned
    inputs := h.inputs.imp fun _ _ => InputSent.mono hgrows
    outputs := h.outputs.imp fun _ _ => OutputSent.mono hgrows }

/-- How a call ends once all inputs and outputs are gathered. -/
theorem triple_finish : Triple
    (Gathered R chain device policyScriptConfig masterFp psbt psbt.inputs.zipIdx psbt.outputs.zipIdx)
    (do
      let s ← get
      if s.bip44Account.isNone then throw .assertionError
      registerMultisig chain device s.scriptConfigs
      let sigs ← sendSign chain device
      let s ← get
      let inputs ← Procedure.ofExcept (storeSignatures sigs s.foundPubkeys s.psbt.inputs)
      modify fun s => { s with psbt := { s.psbt with inputs } }
      let s ← get
      return s.psbt)
    (fun signed s' => ∃ s sign sigs inputs,
      SentFrom R chain device policyScriptConfig masterFp psbt sign s s' ∧
        device s.requests (.btcSign sign) = .ok sigs ∧
        storeSignatures sigs s.foundPubkeys psbt.inputs = .ok inputs ∧ signed = { psbt with inputs })
    (fun _ s' => Unsigned s' ∨
      ∃ s sign, SentFrom R chain device policyScriptConfig masterFp psbt sign s s') := by
  refine Triple.get_bind fun s hs => ?_
  split
  · exact Triple.throw fun s' hs' => Or.inl (hs' ▸ hs.unsigned)
  · rename_i haccount
    refine Triple.bind (Triple.mono (triple_of_keeps fun s₀ => keeps_registerMultisig _)
      (fun _ hs => hs) (fun _ s' hs' => (⟨hs.asks hs'.1, ?_⟩ : _ ∧ s'.bip44Account ≠ none))
      fun e s' hs' => Or.inl (hs'.1.unsigned hs.unsigned)) fun _ =>
      Triple.bind triple_sendSign fun sigs => ?_
    · obtain ⟨⟨rs, rfl, -⟩, -⟩ := hs'
      simpa using haccount
    · rintro _ ⟨s', sign, hsent, hsigs, rfl⟩
      have hpsbt := hsent.gathered.unchanged
      refine Triple.get_bind (fun s'' hs'' => ?_) _ rfl
      subst hs''
      refine Triple.ofExcept_bind (fun inputs hinputs => ?_) fun e s'' _ hs'' =>
        Or.inr ⟨s', sign, hsent, hs'' ▸ rfl⟩
      rintro _ rfl
      refine ⟨s', sign, sigs, inputs, ⟨hsent, rfl⟩, hsigs, hpsbt ▸ hinputs, ?_⟩
      exact congrArg (fun psbt : PSBT => { psbt with inputs }) hpsbt

/-- A call starts with nothing gathered. -/
theorem gathered_of_asks (h : Asks { psbt } s) :
    Gathered R chain device policyScriptConfig masterFp psbt [] [] s := by
  have hunsigned : Unsigned s := h.unsigned fun _ => List.not_mem_nil
  obtain ⟨rs, rfl, -⟩ := h
  exact ⟨rfl, hunsigned, List.nodup_nil, .nil, .nil, .nil, fun _ => rfl⟩

theorem triple_findPolicy (registered : List RegisteredDescriptor) :
    Triple (· = { psbt }) (findPolicy R chain device registered)
      (fun policyScriptConfig s => Asks { psbt } s ∧
        (findPolicy R chain device registered).run { psbt } = .ok policyScriptConfig s)
      (fun _ s => Unsigned s) := by
  refine (triple_of_keeps fun s₀ => keeps_findPolicy registered).mono (fun _ hs => hs)
    (fun _ _ hs => hs) ?_
  rintro e s ⟨hasks, -⟩
  exact hasks.unsigned fun _ => List.not_mem_nil

theorem triple_getMasterFingerprint (registered : List RegisteredDescriptor) : Triple
    (fun s => Asks { psbt } s ∧
      (findPolicy R chain device registered).run { psbt } = .ok policyScriptConfig s)
    (getMasterFingerprint device)
    (fun masterFp s => Gathered R chain device policyScriptConfig masterFp psbt [] [] s ∧
      SignsWith R chain device registered psbt policyScriptConfig masterFp)
    (fun _ s => Unsigned s) := by
  rintro s ⟨hasks, hrun⟩
  have hreply : Triple (· = s) (getMasterFingerprint device) _ _ := triple_makeRequest
  have hrequest : Asks s { s with requests := s.requests ++ [.rootFingerprint] } :=
    asks_request s fun _ => Request.noConfusion
  have hasks' := hasks.trans hrequest
  refine hreply.mono (fun _ hs => hs) ?_ ?_ s rfl
  · rintro masterFp s' ⟨rfl, hmasterFp⟩
    exact ⟨gathered_of_asks hasks', s, hrun, hmasterFp⟩
  · rintro e s' ⟨rfl, -⟩
    exact hasks'.unsigned fun _ => List.not_mem_nil

/-- How a call ends that goes on with a policy and a fingerprint: every request for
signatures that it leaves behind says what was gathered. -/
theorem triple_signTx (registered : List RegisteredDescriptor) :
    Triple (· = { psbt }) (signTx R chain device registered)
      (fun signed s' => ∃ policyScriptConfig masterFp s sign sigs inputs,
        SignsWith R chain device registered psbt policyScriptConfig masterFp ∧
        SentFrom R chain device policyScriptConfig masterFp psbt sign s s' ∧
        device s.requests (.btcSign sign) = .ok sigs ∧
        storeSignatures sigs s.foundPubkeys psbt.inputs = .ok inputs ∧ signed = { psbt with inputs })
      (fun _ s' => Unsigned s' ∨ ∃ policyScriptConfig masterFp s sign,
        SignsWith R chain device registered psbt policyScriptConfig masterFp ∧
        SentFrom R chain device policyScriptConfig masterFp psbt sign s s') := by
  unfold signTx
  refine Triple.adaptExcept (Triple.bind (((triple_findPolicy registered).mono (fun _ hs => hs)
    (fun _ _ hs => hs) fun _ _ he => Or.inl he)) fun policyScriptConfig => ?_)
  refine Triple.bind ((triple_getMasterFingerprint registered).mono (fun _ hs => hs)
    (fun _ _ hs => hs) fun _ _ he => Or.inl he) fun masterFp => Triple.assume fun hsigns => ?_
  refine Triple.get_bind fun s hs => ?_
  rw [hs.unchanged]
  refine Triple.bind (triple_inputs.mono (fun _ hs' => hs' ▸ hs) (fun _ _ hs => hs)
    fun _ _ he => Or.inl he) fun _ => ?_
  refine Triple.bind (triple_outputs.mono (fun _ hs => hs) (fun _ _ hs => hs)
    fun _ _ he => Or.inl he) fun _ => ?_
  refine triple_finish.mono (fun _ hs => hs) ?_ ?_
  · rintro signed s' ⟨s, sign, sigs, inputs, hsent, h⟩
    exact ⟨policyScriptConfig, masterFp, s, sign, sigs, inputs, hsigns, hsent, h⟩
  · rintro e s' (hs' | ⟨s, sign, hsent⟩)
    · exact Or.inl hs'
    · exact Or.inr ⟨policyScriptConfig, masterFp, s, sign, hsigns, hsent⟩

/-! ### Signatures -/

theorem storeIn_ok {sig pubkey : Bytes} {psbtIn psbtIn' : PartiallySignedInput}
    (h : storeIn sig pubkey psbtIn = .ok psbtIn') : StoredIn sig pubkey psbtIn psbtIn' := by
  unfold storeIn at h
  split_ifs at h with htaproot
  · cases h
    exact Or.inl ⟨List.length_pos_iff.1 htaproot, rfl⟩
  · obtain ⟨der, hder, h⟩ := bind_eq_ok.1 h
    cases h
    exact Or.inr ⟨by simpa using htaproot, der, hder, rfl⟩

/-- Each input with the signature and the key of its index, while there are both. -/
theorem storeSignatures_ok {sigs : List (ℕ × Bytes)} {pubkeys : List Bytes}
    {psbtIns psbtIns' : List PartiallySignedInput}
    (h : storeSignatures sigs pubkeys psbtIns = .ok psbtIns') :
    Indexed (fun i psbtIn psbtIn' =>
      (∀ n sig pubkey, sigs[i]? = some (n, sig) → pubkeys[i]? = some pubkey →
        StoredIn sig pubkey psbtIn psbtIn') ∧ (sigs[i]? = none → psbtIn' = psbtIn))
      psbtIns psbtIns' := by
  induction sigs generalizing pubkeys psbtIns psbtIns' with
  | nil =>
    cases h
    exact Indexed.refl fun i a _ => ⟨fun _ _ _ => nofun, fun _ => rfl⟩
  | cons sig sigs ih =>
    match pubkeys, psbtIns, h with
    | [], _, h =>
      cases h
      exact Indexed.refl fun i a _ => ⟨fun _ _ _ _ => nofun, fun _ => rfl⟩
    | _ :: _, [], h =>
      cases h
      exact Indexed.refl fun i a => nofun
    | pubkey :: pubkeys, psbtIn :: psbtIns, h =>
      obtain ⟨signed, hsigned, h⟩ := bind_eq_ok.1 h
      obtain ⟨rest, hrest, h⟩ := bind_eq_ok.1 h
      cases h
      intro i
      cases i with
      | zero =>
        refine .some ⟨fun n sig pubkey hsig hpubkey => ?_, nofun⟩
        cases hsig
        cases hpubkey
        exact storeIn_ok hsigned
      | succ i => exact ih hrest i

theorem Sent.refers {sign : SignRequest}
    (h : Sent R chain device policyScriptConfig masterFp psbt s sign) :
    Refers R chain device policyScriptConfig masterFp psbt s.requests sign where
  nodup := h.scriptConfigs ▸ h.gathered.nodup
  inputs := by
    intro i psbtIn hin
    obtain ⟨entry, hentry, found, config, hfound, -, hcomputed, hindex, heq⟩ :=
      (Indexed.of_forall₂_zipIdx h.gathered.inputs).left hin
    rw [Nat.zero_add] at hfound
    exact ⟨found, entry, config, hfound, h.inputs ▸ hentry, by rw [heq]; rfl, h.scriptConfigs ▸ hindex,
      hcomputed⟩
  change := by
    intro i psbtOut txOut keypath hout hfound
    obtain ⟨output, houtput, hsent⟩ := (Indexed.of_forall₂_zipIdx h.gathered.outputs).left hout
    rcases hsent with ⟨txOut', keypath', config, index, hfound', hcomputed, hindex, rfl⟩ |
      ⟨txOut', hfound', -⟩
    · rw [hfound] at hfound'
      cases hfound'
      exact ⟨index, config, h.outputs ▸ houtput, h.scriptConfigs ▸ hindex, hcomputed⟩
    · rw [hfound] at hfound'
      cases hfound'
  inputs_length := by
    rw [h.inputs, ← h.gathered.inputs.length_eq, List.length_zipIdx]
  outputs_length := by
    rw [h.outputs, ← h.gathered.outputs.length_eq, List.length_zipIdx]

theorem Gathered.stores {sigs : List (ℕ × Bytes)} {inputs : List PartiallySignedInput}
    (h : Gathered R chain device policyScriptConfig masterFp psbt psbt.inputs.zipIdx outs s)
    (hstore : storeSignatures sigs s.foundPubkeys psbt.inputs = .ok inputs) :
    Stores masterFp psbt sigs { psbt with inputs } := by
  have hinputs := storeSignatures_ok hstore
  constructor
  case unchanged => rfl
  case length => exact hinputs.length_eq.symm
  case stored =>
    intro i psbtIn found hin hfound n sig hsig
    obtain ⟨pubkey, hpubkey, found', hfound', rfl⟩ := (Indexed.of_forall₂_zipIdx h.pubkeys).left hin
    rw [Nat.zero_add, hfound] at hfound'
    cases hfound'
    obtain ⟨psbtIn', hin', hstored, -⟩ := hinputs.left hin
    exact ⟨psbtIn', hin', hstored n sig _ hsig hpubkey⟩
  case unsigned =>
    intro i hsig
    cases hin : psbt.inputs[i]? with
    | none => exact (hinputs.eq_none_iff i).1 hin
    | some psbtIn =>
      obtain ⟨psbtIn', hin', -, hsame⟩ := hinputs.left hin
      rw [← hsame hsig]
      exact hin'

/-! ### One input and one output with own keys -/

def ownKey : Bytes := 0x02 :: List.replicate 32 0x01

def p2wpkhScript : Bytes := 0x00 :: 0x14 :: List.replicate 20 0x05

def ownKeypaths (account change : ℤ) : Dict Bytes KeyOriginInfo :=
  (∅ : Dict Bytes KeyOriginInfo).set ownKey
    { fingerprint := [0, 0, 0, 1], path := [2 ^ 31 + 84, 2 ^ 31, account, change, 0] }

def ownInput : PartiallySignedInput where
  witnessUtxo := some { nValue := 10000, scriptPubKey := p2wpkhScript }
  hdKeypaths := ownKeypaths (2 ^ 31) 0
  prevTxid := List.replicate 32 0x03
  prevOut := some 0
  sequence := some 0xfffffffd
  version := 2

def ownOutput (account : ℤ) : PartiallySignedOutput where
  hdKeypaths := ownKeypaths account 1
  amount := some 9000
  script := p2wpkhScript
  version := 2

/-- A PSBT that spends from account 0 and has its change in a given account. -/
def changeIn (account : ℤ) : PSBT where
  inputs := [ownInput]
  outputs := [ownOutput account]
  txVersion := some 2
  version := 2

/-- A device that signs every input. -/
def signingDevice : Device := fun _ request => match request with
  | .rootFingerprint => .ok [0, 0, 0, 1]
  | .btcXpub _ _ => .ok []
  | .btcIsScriptConfigRegistered _ _ _ => .ok true
  | .btcRegisterScriptConfig _ _ _ _ => .ok ()
  | .btcAddress _ _ _ => .ok []
  | .btcSign sign => .ok (sign.inputs.map fun _ => (0, List.replicate 64 0x01))

def changeRequest (account : ℤ) : SignRequest where
  coin := .BTC
  scriptConfigs := simpleConfig .P2WPKH [2 ^ 31 + 84, 2 ^ 31, 2 ^ 31] ::
    if account = 2 ^ 31 then [] else [simpleConfig .P2WPKH [2 ^ 31 + 84, 2 ^ 31, account]]
  inputs := [{
    prevOutHash := List.replicate 32 0x03
    prevOutIndex := 0
    prevOutValue := 10000
    sequence := 0xfffffffd
    keypath := [2 ^ 31 + 84, 2 ^ 31, 2 ^ 31, 0, 0]
    scriptConfigIndex := 0
    prevTx := none }]
  outputs := [.internal [2 ^ 31 + 84, 2 ^ 31, account, 1, 0] 9000 (if account = 2 ^ 31 then 0 else 1)]
  locktime := 0
  version := 2

theorem returns_changeIn : ∃ signed s,
    (signTx Runtime.zeros .main signingDevice []).run { psbt := changeIn (2 ^ 31) } = .ok signed s := by
  have hok : (match (signTx Runtime.zeros .main signingDevice []).run { psbt := changeIn (2 ^ 31) } with
      | .ok _ _ => true
      | .error _ _ => false) = true := by decide +kernel
  cases hrun : (signTx Runtime.zeros .main signingDevice []).run { psbt := changeIn (2 ^ 31) } with
  | ok signed s => exact ⟨signed, s, rfl⟩
  | error e s =>
    rw [hrun] at hok
    cases hok

/-! ### Requests for signatures -/

/-- Every request for signatures of a call that returns names each configuration once and
for each input and each output treated as change the one that was computed for it, and the
signatures go to the inputs they are for. -/
theorem signTx_refers {registered : List RegisteredDescriptor} {signed : PSBT}
    (h : (signTx R chain device registered).run { psbt } = .ok signed s) :
    ∃ policyScriptConfig masterFp requests sign sigs,
      SignsWith R chain device registered psbt policyScriptConfig masterFp ∧
      (∀ sign, .btcSign sign ∉ requests) ∧ s.requests = requests ++ [.btcSign sign] ∧
      device requests (.btcSign sign) = .ok sigs ∧
      Refers R chain device policyScriptConfig masterFp psbt requests sign ∧
      Stores masterFp psbt sigs signed := by
  obtain ⟨policyScriptConfig, masterFp, before, sign, sigs, inputs, hsigns, ⟨hsent, hs⟩, hsigs, hstore,
    rfl⟩ := (triple_signTx registered).ok rfl h
  exact ⟨policyScriptConfig, masterFp, before.requests, sign, sigs, hsigns,
    hsent.gathered.unsigned, hs, hsigs, hsent.refers, hsent.gathered.stores hstore⟩

theorem signTx_refers_sample : ∃ signed s,
    (signTx Runtime.zeros .main signingDevice []).run { psbt := changeIn (2 ^ 31) } = .ok signed s ∧
    ∃ policyScriptConfig masterFp requests sign sigs,
      SignsWith Runtime.zeros .main signingDevice [] (changeIn (2 ^ 31)) policyScriptConfig masterFp ∧
      (∀ sign, .btcSign sign ∉ requests) ∧ s.requests = requests ++ [.btcSign sign] ∧
      signingDevice requests (.btcSign sign) = .ok sigs ∧
      Refers Runtime.zeros .main signingDevice policyScriptConfig masterFp (changeIn (2 ^ 31))
        requests sign ∧
      Stores masterFp (changeIn (2 ^ 31)) sigs signed := by
  obtain ⟨signed, s, hrun⟩ := returns_changeIn
  exact ⟨signed, s, hrun, signTx_refers hrun⟩

end Bitbox02Client

end Hwi
