import Hwi.Proofs.Bitbox02Loops
import Hwi.Proofs.Bitbox02Policy

/-! The account that `sign_tx` of the BitBox02 asks signatures for, and which PSBTs it refuses
before that. -/

namespace Hwi

namespace Bitbox02Client

open Bitbox02 Procedure

variable {R : Runtime} {chain : Chain} {device : Device} {masterFp : Bytes}
  {registered : List RegisteredDescriptor} {policyScriptConfig : Option BTCScriptConfigWithKeypath}
  {psbt : PSBT} {psbtIn : PartiallySignedInput} {psbtOut : PartiallySignedOutput} {s : Session}

/-! ### The end of a call -/

/-- When a registration is refused. -/
theorem raises_maybeRegister {config : BTCScriptConfig} {keypath : List ℤ} :
    (∃ e s', (maybeRegisterScriptConfig chain device config keypath).run s = .error e s' ∧ Refusal e) ↔
      Refuses device s.requests (.btcIsScriptConfigRegistered (getCoin chain) config keypath) ∨
        device s.requests (.btcIsScriptConfigRegistered (getCoin chain) config keypath) = .ok false ∧
          Refuses device
            (s.requests ++ [.btcIsScriptConfigRegistered (getCoin chain) config keypath])
            (.btcRegisterScriptConfig (getCoin chain) config keypath []) := by
  have hregister : ∀ isRegistered : Bool, Asking
      (if isRegistered then return
        else makeRequest device (.btcRegisterScriptConfig (getCoin chain) config keypath []))
      { s with requests := s.requests ++ [.btcIsScriptConfigRegistered (getCoin chain) config keypath] }
      (fun a requests => if isRegistered then a = () ∧ requests = s.requests ++
          [.btcIsScriptConfigRegistered (getCoin chain) config keypath]
        else device (s.requests ++ [.btcIsScriptConfigRegistered (getCoin chain) config keypath])
            (.btcRegisterScriptConfig (getCoin chain) config keypath []) = .ok a ∧
          requests = s.requests ++ [.btcIsScriptConfigRegistered (getCoin chain) config keypath] ++
            [.btcRegisterScriptConfig (getCoin chain) config keypath []])
      (isRegistered = false ∧ Refuses device
        (s.requests ++ [.btcIsScriptConfigRegistered (getCoin chain) config keypath])
        (.btcRegisterScriptConfig (getCoin chain) config keypath [])) := by
    intro isRegistered
    cases isRegistered with
    | false => exact (asking_makeRequest _).congr (by simp) (by simp)
    | true => exact (asking_pure ()).congr (by simp) (by simp)
  unfold maybeRegisterScriptConfig
  refine Outcome.raises (Asking.congr (asking_request_bind fun isRegistered _ =>
    hregister isRegistered) (fun _ _ => Iff.rfl) (or_congr_right ?_))
  constructor
  · rintro ⟨_, hreply, rfl, h⟩
    exact ⟨hreply, h⟩
  · rintro ⟨hreply, h⟩
    exact ⟨false, hreply, rfl, h⟩

/-- The configurations of a session are one and the same. -/
theorem Gathers.scriptConfigs_eq_iff {seen : Seen} (hs : Gathers psbt seen s)
    {config : BTCScriptConfigWithKeypath} : s.scriptConfigs = [config] ↔
      config ∈ seen.configs ∧ ∀ c ∈ seen.configs, c = config := by
  simp only [← hs.configs]
  constructor
  · intro h
    simp [h]
  · rintro ⟨hmem, hall⟩
    refine List.perm_singleton.1 ((List.perm_ext_iff_of_nodup hs.nodup (List.nodup_singleton _)).2 ?_)
    intro c
    rw [List.mem_singleton]
    exact ⟨hall c, fun h => h ▸ hmem⟩

theorem raises_registerMultisig {seen : Seen} (hs : Gathers psbt seen s) :
    (∃ e s', (registerMultisig chain device s.scriptConfigs).run s = .error e s' ∧ Refusal e) ↔
      RegistrationRefused chain device seen := by
  by_cases hone : ∃ config multisig, s.scriptConfigs = [config] ∧
      config.scriptConfig = .multisig multisig
  · obtain ⟨config, multisig, hconfigs, hmultisig⟩ := hone
    have hregister : registerMultisig chain device s.scriptConfigs =
        maybeRegisterScriptConfig chain device config.scriptConfig config.keypath := by
      rw [hconfigs]
      unfold registerMultisig
      simp only [hmultisig]
    rw [hregister, raises_maybeRegister, hs.requests]
    obtain ⟨hmem, hall⟩ := hs.scriptConfigs_eq_iff.1 hconfigs
    constructor
    · exact .mk hmem hall hmultisig
    · rintro @⟨config', -, hmem', -, -, h⟩
      rwa [← hall config' hmem']
  · have hregister : registerMultisig chain device s.scriptConfigs = pure () := by
      unfold registerMultisig
      split
      · rename_i config hconfigs
        split
        · rename_i multisig hmultisig
          exact absurd ⟨config, multisig, hconfigs, hmultisig⟩ hone
        · rfl
      · rfl
    rw [hregister]
    refine iff_of_false ?_ ?_
    · rintro ⟨e, s', hrun, -⟩
      cases hrun
    · rintro @⟨config, multisig, hmem, hall, hmultisig, -⟩
      exact hone ⟨config, multisig, hs.scriptConfigs_eq_iff.2 ⟨hmem, hall⟩, hmultisig⟩

theorem not_raising_computeLockTime (psbt : PSBT) : ¬Raising Refusal psbt.computeLockTime := by
  rcases psbt.computeLockTime_cases with ⟨-, h⟩ | ⟨-, h⟩
  · rw [h]
    exact fun h => not_refusal_psbtSerializationError _ (raising_error.1 h)
  · rw [h]
    exact not_raising_ok

/-- The request for signatures is not refused before it is made. -/
theorem triple_sendSign_made : Triple (fun _ => True) (sendSign chain device)
    (fun _ s => ¬Unsigned s) (fun e s => ¬(Refusal e ∧ Unsigned s)) := by
  unfold sendSign
  refine Triple.get_bind fun s _ => ?_
  have hmade : ∀ s' sign, s' = { s with requests := s.requests ++ [.btcSign sign] } → ¬Unsigned s' := by
    rintro _ sign rfl hunsigned
    exact hunsigned sign (by simp)
  cases s.psbt.txVersion with
  | none => exact Triple.throw fun _ _ h => not_refusal_assertionError h.1
  | some version =>
    refine Triple.ofExcept_bind (fun locktime _ => ?_) fun e s' he _ h =>
      not_raising_computeLockTime s.psbt ⟨e, he, h.1⟩
    refine triple_makeRequest.mono (fun _ hs => hs) ?_ ?_
    · rintro sigs s' ⟨hs', -⟩
      exact hmade s' _ hs'
    · rintro e s' ⟨hs', -⟩ h
      exact hmade s' _ hs' h.2

/-- After that, a call is not refused any more. -/
theorem triple_afterRegistration : Triple (fun _ => True)
    (do
      let sigs ← sendSign chain device
      let s ← get
      let inputs ← Procedure.ofExcept (storeSignatures sigs s.foundPubkeys s.psbt.inputs)
      modify fun s => { s with psbt := { s.psbt with inputs } }
      let s ← get
      return s.psbt)
    (fun _ s => ¬Unsigned s) (fun e s => ¬(Refusal e ∧ Unsigned s)) := by
  refine Triple.bind triple_sendSign_made fun sigs => Triple.get_bind fun s hs => ?_
  refine Triple.ofExcept_bind (fun inputs _ => ?_) fun e s' _ hs' h => hs (hs' ▸ h.2)
  rintro _ rfl
  exact hs

/-! ### Whole calls -/

theorem keeps_unsigned_of_asks {α : Type} {x : Method α} (h : ∀ s₀, Keeps (Asks s₀) x) :
    Keeps Unsigned x := by
  intro s hs
  refine (h s).mono (fun _ hs => hs) ?_ ?_ s (asks_refl s)
  · exact fun _ _ hasks => hasks.unsigned hs
  · exact fun _ _ hasks => hasks.unsigned hs

theorem keeps_signInput (i : ℕ) :
    Keeps Unsigned (signInput R chain device policyScriptConfig masterFp psbtIn i) := by
  unfold signInput
  refine (keeps_ofExcept _).bind fun found => keeps_get.bind fun s => (keeps_ofExcept _).bind fun _ => ?_
  refine (keeps_unsigned_of_asks fun s₀ => keeps_scriptConfigFromUtxo _ _ _ _ _ _).bind fun config => ?_
  exact keeps_modify fun _ hs => hs

theorem keeps_signOutput (i : ℕ) :
    Keeps Unsigned (signOutput R chain device policyScriptConfig masterFp psbtOut i) := by
  unfold signOutput
  refine (keeps_ofExcept _).bind fun found => ?_
  obtain ⟨txOut, change⟩ := found
  cases change with
  | none => exact (keeps_ofExcept _).bind fun _ => keeps_modify fun _ hs => hs
  | some keypath =>
    refine keeps_get.bind fun s => ?_
    refine (keeps_unsigned_of_asks fun s₀ => keeps_scriptConfigFromUtxo _ _ _ _ _ _).bind fun config => ?_
    exact keeps_modify fun _ hs => hs

/-- Once everything is gathered, only a registration is refused. -/
theorem raises_finish {seen : Seen} (hs : Gathers psbt seen s ∧ Unsigned s) :
    (∃ e s', (do
        let s ← get
        if s.bip44Account.isNone then throw .assertionError
        registerMultisig chain device s.scriptConfigs
        let sigs ← sendSign chain device
        let s ← get
        let inputs ← Procedure.ofExcept (storeSignatures sigs s.foundPubkeys s.psbt.inputs)
        modify fun s => { s with psbt := { s.psbt with inputs } }
        let s ← get
        return s.psbt : Method PSBT).run s = .error e s' ∧ Refusal e ∧ Unsigned s') ↔
      seen.account ≠ none ∧ RegistrationRefused chain device seen := by
  rw [run_get_bind]
  by_cases haccount : seen.account = none
  · rw [if_pos (by rw [hs.1.account, haccount]; rfl)]
    refine iff_of_false ?_ fun h => h.1 haccount
    rintro ⟨e, s', hrun, he, -⟩
    cases hrun
    exact not_refusal_assertionError he
  · rw [if_neg (by simpa [hs.1.account] using haccount)]
    have hregister : Outcome (fun e s' => Refusal e ∧ Unsigned s')
        (registerMultisig chain device s.scriptConfigs) s _ _ (RegistrationRefused chain device seen) :=
      (Outcome.of_raises (raises_registerMultisig hs.1)).keeps
        (keeps_unsigned_of_asks fun s₀ => keeps_registerMultisig _) hs.2
    refine (Outcome.raises_bind (fun _ => False) hregister fun _ _ s' _ _ => ?_).trans ?_
    · refine iff_of_false ?_ id
      rintro ⟨e, s'', hrun, he⟩
      exact Triple.error triple_afterRegistration trivial hrun he
    · simp [haccount]

theorem adaptError_eq_badArgument {e : Exc} {name : String} :
    (∃ msg, adaptError name e = .badArgumentError msg) ↔ Refusal e := by
  constructor
  · rintro ⟨msg, h⟩
    cases e with
    | badArgumentError msg => exact .badArgument msg
    | bitbox02Exception code msg =>
      rw [adaptError] at h
      split_ifs at h
    | _ => first | exact .value rfl | cases h
  · rintro (msg | hvalue)
    · exact ⟨msg, rfl⟩
    · cases e with
      | valueError msg => exact ⟨msg, rfl⟩
      | binasciiError => exact ⟨"", rfl⟩
      | unicodeError => exact ⟨"", rfl⟩
      | _ => cases hvalue

/-- What is refused once the inputs are gathered. -/
def OutputsRefused (R : Runtime) (chain : Chain) (device : Device) (masterFp : Bytes) (psbt : PSBT)
    (policyScriptConfig : Option BTCScriptConfigWithKeypath) (seen : Seen) : Prop :=
  FirstStop (OutputPasses R chain device masterFp policyScriptConfig psbt.xpub)
    (OutputRefused R chain device masterFp policyScriptConfig psbt.xpub) psbt.outputs seen ∨
  ∃ seen', Steps (OutputPasses R chain device masterFp policyScriptConfig psbt.xpub) psbt.outputs
    seen seen' ∧ seen'.account ≠ none ∧ RegistrationRefused chain device seen'

/-- What is refused once the fingerprint is there. -/
def InputsRefused (R : Runtime) (chain : Chain) (device : Device) (masterFp : Bytes) (psbt : PSBT)
    (policyScriptConfig : Option BTCScriptConfigWithKeypath) (seen : Seen) : Prop :=
  FirstStop (InputPasses R chain device masterFp policyScriptConfig psbt.xpub)
    (InputRefused R chain device masterFp policyScriptConfig psbt.xpub) psbt.inputs seen ∨
  ∃ seen', Steps (InputPasses R chain device masterFp policyScriptConfig psbt.xpub) psbt.inputs
    seen seen' ∧ OutputsRefused R chain device masterFp psbt policyScriptConfig seen'

/-- What is refused once the policy is found. -/
def FingerprintRefused (R : Runtime) (chain : Chain) (device : Device) (masterFp : Bytes)
    (psbt : PSBT) (policyScriptConfig : Option BTCScriptConfigWithKeypath)
    (requests : List Request) : Prop :=
  Refuses device requests .rootFingerprint ∨ device requests .rootFingerprint = .ok masterFp ∧
    InputsRefused R chain device masterFp psbt policyScriptConfig
      { requests := requests ++ [.rootFingerprint] }

/-- What is refused, stage by stage. -/
theorem refused_iff : Refused R chain device registered masterFp psbt ↔
    PolicyRefused R chain device masterFp registered ∨
      ∃ r : Option BTCScriptConfigWithKeypath × List Request,
        PolicyFound R chain device masterFp registered r.1 r.2 ∧
          FingerprintRefused R chain device masterFp psbt r.1 r.2 := by
  constructor
  · intro h
    cases h with
    | policy h => exact Or.inl h
    | fingerprint hpolicy h => exact Or.inr ⟨(_, _), hpolicy, Or.inl h⟩
    | input hstarts h =>
      obtain ⟨requests, hpolicy, hfp, rfl⟩ := hstarts
      exact Or.inr ⟨(_, requests), hpolicy, Or.inr ⟨hfp, Or.inl h⟩⟩
    | output hstarts hinputs h =>
      obtain ⟨requests, hpolicy, hfp, rfl⟩ := hstarts
      exact Or.inr ⟨(_, requests), hpolicy, Or.inr ⟨hfp, Or.inr ⟨_, hinputs, Or.inl h⟩⟩⟩
    | registration hstarts hinputs houtputs hne h =>
      obtain ⟨requests, hpolicy, hfp, rfl⟩ := hstarts
      refine Or.inr ⟨(_, requests), hpolicy, Or.inr ⟨hfp, Or.inr ⟨_, hinputs, Or.inr ⟨_, houtputs,
        ?_, h⟩⟩⟩⟩
      rw [account_of_outputs houtputs, ne_eq, account_eq_none_iff hinputs]
      exact fun h => hne h.1
  · rintro (h | ⟨⟨policyScriptConfig, requests⟩, hpolicy, h | ⟨hfp, h | ⟨seen, hinputs, h⟩⟩⟩)
    · exact .policy h
    · exact .fingerprint hpolicy h
    · exact .input ⟨requests, hpolicy, hfp, rfl⟩ h
    · rcases h with h | ⟨seen', houtputs, haccount, h⟩
      · exact .output ⟨requests, hpolicy, hfp, rfl⟩ hinputs h
      · refine .registration ⟨requests, hpolicy, hfp, rfl⟩ hinputs houtputs (fun hnil => ?_) h
        rw [account_of_outputs houtputs, ne_eq, account_eq_none_iff hinputs] at haccount
        exact haccount ⟨hnil, rfl⟩

/-- Which calls end with a `BadArgumentError` before the device is asked for signatures. -/
theorem raises_signTx
    (hfp : ∀ requests fp, device requests .rootFingerprint = .ok fp → fp = masterFp) :
    (∃ e s, (signTx R chain device registered).run { psbt } = .error e s ∧
      (∃ msg, e = .badArgumentError msg) ∧ Unsigned s) ↔
      Refused R chain device registered masterFp psbt := by
  have hstart : Unsigned { psbt } := fun _ => List.not_mem_nil
  rw [refused_iff]
  refine Outcome.adaptExcept (P := fun e s => (∃ msg, e = Exc.badArgumentError msg) ∧ Unsigned s) ?_
  simp only [adaptError_eq_badArgument]
  refine Outcome.raises_bind (fun r => FingerprintRefused R chain device masterFp psbt r.1 r.2)
    (Outcome.keeps (asking_findPolicy rfl hfp)
      (keeps_unsigned_of_asks fun s₀ => keeps_findPolicy _) hstart) ?_
  rintro ⟨_, requests⟩ policyScriptConfig _ - ⟨⟨rfl, rfl⟩, hunsigned⟩
  refine (Outcome.raises_bind (fun r => InputsRefused R chain device r.1 psbt policyScriptConfig
    { requests := r.2 }) (Outcome.keeps (asking_makeRequest .rootFingerprint)
      (keeps_unsigned_of_asks fun s₀ => keeps_getMasterFingerprint) hunsigned) ?_).trans ?_
  · rintro ⟨_, requests'⟩ fp _ ⟨hreply, rfl⟩ ⟨⟨rfl, rfl⟩, hunsigned⟩
    obtain rfl := hfp _ _ hreply
    rw [run_get_bind]
    refine Outcome.raises_bind (fun seen => OutputsRefused R chain device fp psbt policyScriptConfig seen)
      ((outcome_inputs hfp ⟨rfl, rfl, rfl, List.nodup_nil, fun _ => Iff.rfl⟩).keeps
        (keeps_forM fun x _ => keeps_signInput x.2) hunsigned) fun seen _ s _ hs => ?_
    exact Outcome.raises_bind
      (fun seen' => seen'.account ≠ none ∧ RegistrationRefused chain device seen')
      ((outcome_outputs hfp hs.1).keeps (keeps_forM fun x _ => keeps_signOutput x.2) hs.2)
      fun seen' _ s' _ hs' => raises_finish hs'
  · refine or_congr_right ?_
    constructor
    · rintro ⟨⟨fp, requests'⟩, ⟨hreply, rfl⟩, h⟩
      obtain rfl := hfp _ _ hreply
      exact ⟨hreply, h⟩
    · rintro ⟨hreply, h⟩
      exact ⟨(masterFp, _), ⟨hreply, rfl⟩, h⟩

/-! ### Accounts -/

theorem findOutput_change {txOut : CTxOut} {keypath : List ℤ}
    (h : findOutput masterFp psbtOut = .ok (txOut, some keypath)) :
    (∃ pubkey, OutputKey masterFp psbtOut pubkey keypath) ∧ IsChange keypath := by
  obtain ⟨_, -, h⟩ := bind_eq_ok.1 h
  obtain ⟨keypaths, hkeypaths, h⟩ := bind_eq_ok.1 h
  obtain ⟨change, hchange, h⟩ := bind_eq_ok.1 h
  cases h
  by_cases hleaves : ScriptPath psbtOut.tapInternalKey psbtOut.tapBip32Paths
  · obtain ⟨msg, hmsg⟩ := @keyOriginInfos_error psbtOut.hdKeypaths _ _ hleaves
    rw [hmsg] at hkeypaths
    cases hkeypaths
  · rw [keyOriginInfos_ok hleaves] at hkeypaths
    cases hkeypaths
    have hkind := @outputKind_changeKeypath masterFp psbtOut
    rw [hchange] at hkind
    cases hkind with
    | change hkey hchange => exact ⟨⟨_, hkey⟩, hchange⟩

theorem externalOutput_ne_internal {i : ℕ} {txOut : CTxOut} {keypath : List ℤ} {value : ℤ}
    {index : ℕ} : externalOutput i txOut ≠ .ok (.internal keypath value index) := by
  simp only [externalOutput]
  split_ifs <;> exact nofun

/-- A request for signatures has the chosen paths of the PSBT. -/
theorem Sent.sharesAccount {sign : SignRequest}
    (h : Sent R chain device policyScriptConfig masterFp psbt s sign)
    (hshares : SharesAccount masterFp psbt) : ∃ account, sign.SharesAccount account := by
  obtain ⟨account, hins, houts⟩ := hshares
  refine ⟨account, fun entry hentry => ?_, fun keypath value index hmem => ?_⟩
  · rw [h.inputs] at hentry
    obtain ⟨i, hi⟩ := List.mem_iff_getElem?.1 hentry
    obtain ⟨psbtIn, hin, found, config, hfound, -, -, -, heq⟩ :=
      (Indexed.of_forall₂_zipIdx h.gathered.inputs).right hi
    rw [heq]
    exact hins psbtIn (List.mem_of_getElem? hin) _ _ (looksUp_of_findInput hfound).key
  · rw [h.outputs] at hmem
    obtain ⟨i, hi⟩ := List.mem_iff_getElem?.1 hmem
    obtain ⟨psbtOut, hout, hsent⟩ := (Indexed.of_forall₂_zipIdx h.gathered.outputs).right hi
    rcases hsent with ⟨txOut, keypath', config, index', hfound, -, -, heq⟩ | ⟨txOut, -, hexternal⟩
    · cases heq
      obtain ⟨⟨pubkey, hkey⟩, hchange⟩ := findOutput_change hfound
      exact houts psbtOut (List.mem_of_getElem? hout) pubkey keypath hkey hchange
    · exact absurd hexternal externalOutput_ne_internal

theorem signTx_sharesAccount
    (hfp : ∀ requests fp, device requests .rootFingerprint = .ok fp → fp = masterFp)
    (hshares : SharesAccount masterFp psbt) {sign : SignRequest}
    (hsign : .btcSign sign ∈ ((signTx R chain device registered).after { psbt }).requests) :
    ∃ account, sign.SharesAccount account := by
  have hsent : ∀ s policyScriptConfig fp before sign,
      SignsWith R chain device registered psbt policyScriptConfig fp →
      SentFrom R chain device policyScriptConfig fp psbt sign before s →
      ∀ sign, .btcSign sign ∈ s.requests → ∃ account, sign.SharesAccount account := by
    rintro s policyScriptConfig fp before sign ⟨start, -, hreply⟩ ⟨hsent, hs⟩ sign' hsign
    obtain rfl := hfp _ _ hreply
    rw [hs] at hsign
    rcases List.mem_append.1 hsign with hsign | hsign
    · exact absurd hsign (hsent.gathered.unsigned _)
    · cases List.mem_singleton.1 hsign
      exact hsent.sharesAccount hshares
  refine Triple.after (I := fun s => ∀ sign, .btcSign sign ∈ s.requests →
    ∃ account, sign.SharesAccount account)
    ((triple_signTx registered).mono (fun _ hs => hs) ?_ ?_) rfl sign hsign
  · rintro signed s ⟨policyScriptConfig, fp, before, sign, -, -, hsigns, h, -⟩
    exact hsent s policyScriptConfig fp before sign hsigns h
  · rintro e s (hs | ⟨policyScriptConfig, fp, before, sign, hsigns, h⟩)
    · exact fun sign hsign => absurd hsign (hs sign)
    · exact hsent s policyScriptConfig fp before sign hsigns h

/-- The accounts are checked exactly when they are one account, or when something is
refused, which may be their difference or something before it. The loop over the outputs
compares no account. -/
theorem signTx_sharesAccount_iff
    (hfp : ∀ requests fp, device requests .rootFingerprint = .ok fp → fp = masterFp) :
    AccountChecked R chain device registered masterFp psbt ↔
      SharesAccount masterFp psbt ∨ Refused R chain device registered masterFp psbt := by
  constructor
  · intro h
    by_cases hshares : SharesAccount masterFp psbt
    · exact Or.inl hshares
    · obtain ⟨msg, s, hrun, hunsigned⟩ := h.refused hshares
      exact Or.inr ((raises_signTx hfp).1 ⟨_, s, hrun, ⟨msg, rfl⟩, hunsigned⟩)
  · rintro (hshares | hrefused)
    · exact ⟨fun sign hsign => signTx_sharesAccount hfp hshares hsign, fun h => absurd hshares h⟩
    · obtain ⟨_, s, hrun, ⟨msg, rfl⟩, hunsigned⟩ := (raises_signTx hfp).2 hrefused
      refine ⟨fun sign hsign => ?_, fun _ => ⟨msg, s, hrun, hunsigned⟩⟩
      rw [Procedure.after, hrun] at hsign
      exact absurd hsign (hunsigned sign)

theorem chosen_ownKeypaths {account change : ℤ} {pubkey : Bytes} {keypath : List ℤ} :
    Chosen [0, 0, 0, 1] (ownKeypaths account change) pubkey keypath ↔
      pubkey = ownKey ∧ keypath = [2 ^ 31 + 84, 2 ^ 31, account, change, 0] := by
  have hfound : findOurKey [0, 0, 0, 1] (ownKeypaths account change) =
      some (ownKey, [2 ^ 31 + 84, 2 ^ 31, account, change, 0]) := rfl
  rw [← findOurKey_eq_some, hfound]
  simp [eq_comm]

theorem rootFingerprint_signingDevice (requests : List Request) (fp : Bytes)
    (h : signingDevice requests .rootFingerprint = .ok fp) : fp = [0, 0, 0, 1] :=
  (Except.ok.inj h).symm

theorem sharesAccount_changeIn : SharesAccount [0, 0, 0, 1] (changeIn (2 ^ 31)) := by
  refine ⟨2 ^ 31, fun psbtIn hin pubkey keypath hkey => ?_, fun psbtOut hout pubkey keypath hkey _ => ?_⟩
  · rw [List.mem_singleton.1 hin] at hkey
    rw [(chosen_ownKeypaths.1 hkey).2]
    rfl
  · rw [List.mem_singleton.1 hout] at hkey
    rw [(chosen_ownKeypaths.1 hkey).2]
    rfl

/-- A second input, in another account. -/
def otherInput : PartiallySignedInput := { ownInput with hdKeypaths := ownKeypaths (2 ^ 31 + 5) 0 }

theorem ownInput_passes (requests : List Request) :
    InputPasses Runtime.zeros .main signingDevice [0, 0, 0, 1] none ∅ ownInput { requests } {
      requests
      account := some (2 ^ 31)
      configs := [simpleConfig .P2WPKH [2 ^ 31 + 84, 2 ^ 31, 2 ^ 31, 0, 0]] } :=
  .mk ⟨nofun, nofun⟩ (Or.inl rfl) (.witness rfl rfl) (fun h => h.1 rfl)
    (chosen_ownKeypaths.2 ⟨rfl, rfl⟩) (List.cons_ne_nil _ _) rfl (fun _ => nofun)
    (.simple rfl rfl)

theorem otherInput_refused (seen : Seen) (h : seen.account = some (2 ^ 31)) :
    InputRefused Runtime.zeros .main signingDevice [0, 0, 0, 1] none ∅ otherInput seen :=
  .account ⟨nofun, nofun⟩ (Or.inl rfl) (.witness rfl rfl) (fun h => h.1 rfl)
    (chosen_ownKeypaths.2 ⟨rfl, rfl⟩) (List.cons_ne_nil _ _) rfl h (by decide)

/-- Inputs and change of account 0 are signed for, and an input of account 5 is refused. -/
theorem signTx_sharesAccount_iff_sample :
    AccountChecked Runtime.zeros .main signingDevice [] [0, 0, 0, 1] (changeIn (2 ^ 31)) ∧
    AccountChecked Runtime.zeros .main signingDevice [] [0, 0, 0, 1]
      { changeIn (2 ^ 31) with inputs := [ownInput, otherInput] } := by
  constructor
  · exact (signTx_sharesAccount_iff rootFingerprint_signingDevice).2 (Or.inl sharesAccount_changeIn)
  · refine (signTx_sharesAccount_iff rootFingerprint_signingDevice).2 (Or.inr ?_)
    exact .input ⟨[], .none, rfl, rfl⟩
      (.later (ownInput_passes _) (.here (otherInput_refused _ rfl)))

theorem requests_changeIn_other :
    ((signTx Runtime.zeros .main signingDevice []).after { psbt := changeIn (2 ^ 31 + 5) }).requests =
      [.rootFingerprint, .btcSign (changeRequest (2 ^ 31 + 5))] := by
  decide +kernel

theorem not_sharesAccount_other (account : ℤ) :
    ¬(changeRequest (2 ^ 31 + 5)).SharesAccount account := by
  rintro ⟨hinputs, hchange⟩
  have hin := hinputs _ List.mem_cons_self
  have hout := hchange _ _ _ List.mem_cons_self
  have haccounts := Option.some.inj (hin.trans hout.symm)
  norm_num at haccounts

/-- Change in account 5 of a transaction that spends from account 0 is sent to be signed. -/
theorem signTx_other_account : ∃ sign,
    .btcSign sign ∈ ((signTx Runtime.zeros .main signingDevice []).after
      { psbt := changeIn (2 ^ 31 + 5) }).requests ∧ ¬∃ account, sign.SharesAccount account := by
  refine ⟨changeRequest (2 ^ 31 + 5), ?_, fun ⟨account, h⟩ => not_sharesAccount_other account h⟩
  rw [requests_changeIn_other]
  exact List.mem_cons_of_mem _ List.mem_cons_self

end Bitbox02Client

end Hwi
