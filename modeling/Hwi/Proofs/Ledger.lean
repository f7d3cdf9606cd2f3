import Hwi.Format.Ledger
import Hwi.Lib.Result

/-! What every part of the signing call with a Ledger preserves, for any
condition on the session. -/

namespace Hwi

open LedgerBitcoin Procedure

namespace LedgerClient

variable {R : Runtime} {chain : Chain} {device : Device} {P : Session → Prop}

/-- The exchange of a request keeps a condition. -/
def Allows (P : Session → Prop) (request : Request) : Prop :=
  ∀ s reply, P s → P { s with exchanges := s.exchanges ++ [(request, reply)] }

theorem triple_makeRequest {request : Request} {Q : Response → Session → Prop}
    {E : Exc → Session → Prop}
    (hok : ∀ s r, P s → Q r { s with exchanges := s.exchanges ++ [(request, .ok r)] })
    (herror : ∀ e s reply, P s → E e { s with exchanges := s.exchanges ++ [(request, reply)] }) :
    Triple P (makeRequest device request) Q E := by
  unfold makeRequest
  refine Triple.get_bind fun s hs => ?_
  refine Triple.modify_bind
    (M := (· = { s with exchanges := s.exchanges ++ [(request, device s.exchanges request)] })) ?_ ?_
  · rintro _ rfl
    rfl
  · refine Triple.ofExcept_bind (fun r hr => ?_) fun e s' _ hs' => ?_
    · rw [hr]
      split_ifs
      · exact Triple.throw fun s' hs' => hs' ▸ herror _ s _ hs
      · exact Triple.pure fun s' hs' => hs' ▸ hok s r hs
    · rw [hs']
      exact herror e s _ hs

theorem keeps_makeRequest {request : Request} (h : Allows P request) :
    Keeps P (makeRequest device request) :=
  triple_makeRequest (fun s _ hs => h s _ hs) fun _ s reply hs => h s reply hs

/-- A condition that is not about the requests that only read from the device,
nor about the wallets found so far. -/
structure Queries (P : Session → Prop) : Prop where
  masterFingerprint : Allows P .getMasterFingerprint
  extendedPubkey : ∀ path display, Allows P (.getExtendedPubkey path display)
  wallets : ∀ s wallets, P s → P { s with wallets }

theorem keeps_ledgerException {α : Type} {f : Method α} (h : Keeps P f) :
    Keeps P (ledgerException f) := keeps_adaptExcept h

theorem keeps_getMasterFingerprint (h : Queries P) : Keeps P (getMasterFingerprint device) :=
  keeps_ledgerException ((keeps_makeRequest h.masterFingerprint).bind fun _ => keeps_pure _)

theorem keeps_getExtendedPubkey (h : Queries P) (path : List ℤ) (display : Bool) :
    Keeps P (getExtendedPubkey device path display) := by
  unfold getExtendedPubkey
  split_ifs
  · exact keeps_throw _
  · exact (keeps_makeRequest (h.extendedPubkey path display)).bind fun _ => keeps_ofExcept _

theorem keeps_getPubkeyAtPath (h : Queries P) (path : List ℤ) :
    Keeps P (getPubkeyAtPath device path) := by
  refine keeps_ledgerException (Keeps.bind (keeps_tryCatch ?_ fun e => ?_) fun _ => keeps_ofExcept _)
  · exact keeps_getExtendedPubkey h path false
  · exact keeps_ite (keeps_getExtendedPubkey h path true) (keeps_throw _)

theorem keeps_getSinglesigDefaultWalletPolicy (h : Queries P) (addrType : AddressType) (account : ℤ) :
    Keeps P (getSinglesigDefaultWalletPolicy R chain device addrType account) := by
  unfold getSinglesigDefaultWalletPolicy
  refine (keeps_getMasterFingerprint h).bind fun fingerprint => ?_
  refine (keeps_getPubkeyAtPath h _).bind fun key => ?_
  generalize key.toString R = xpub
  refine (keeps_ofExcept xpub).bind fun xpub => ?_
  exact (keeps_ofExcept _).bind fun keyStr => keeps_pure _

theorem keeps_addWallet (h : Queries P) (id : Bytes) (wallet : SigningWallet) :
    Keeps P (addWallet id wallet) := keeps_modify fun s hs => h.wallets s _ hs

theorem keeps_addRegistered (h : Queries P) (registered : RegisteredDescriptor) :
    Keeps P (addRegistered R registered) := by
  unfold addRegistered
  refine (keeps_ofExcept _).bind fun descriptorTemplate => ?_
  refine (keeps_ofExcept _).bind fun keysInfo => ?_
  cases registered.addressType with
  | none => exact keeps_throw _
  | some addrtype => exact (keeps_ofExcept _).bind fun id => keeps_addWallet h id _

theorem keeps_processOrigin (h : Queries P) (scriptAddrtype : AddressType) (origin : KeyOriginInfo) :
    Keeps P (processOrigin R chain device scriptAddrtype origin) := by
  unfold processOrigin
  split
  · split_ifs
    · refine (keeps_getSinglesigDefaultWalletPolicy h _ _).bind fun policy => ?_
      refine (keeps_getSinglesigDefaultWalletPolicy h _ _).bind fun wallet => ?_
      exact (keeps_ofExcept _).bind fun id => keeps_addWallet h id _
    · exact keeps_pure _
  · exact keeps_pure _

theorem keeps_registerWallet {inputNum : ℕ} {wallet : MultisigWallet}
    (h : Allows P (.registerWallet inputNum wallet)) :
    Keeps P (registerWallet R device inputNum wallet) := by
  unfold registerWallet
  refine (keeps_ofExcept _).bind fun _ => (keeps_makeRequest h).bind fun r => ?_
  split_ifs
  · exact keeps_throw _
  · exact keeps_pure _

/-- A wallet that is made has the threshold and the keys it was made from. -/
theorem MultisigWallet.new_eq_ok {name : Str} {addressType : AddressType} {threshold : ℤ} {keysInfo : List Str}
    {sorted : Bool} {wallet : MultisigWallet}
    (h : MultisigWallet.new name addressType threshold keysInfo sorted = .ok wallet) :
    wallet.threshold = threshold ∧ wallet.keysInfo = keysInfo := by
  unfold MultisigWallet.new at h
  simp only [throw_eq_error, error_bind, ite_error_eq_ok] at h
  obtain ⟨-, h⟩ := h
  obtain ⟨⟨policyPrefix, policySuffix⟩, -, h⟩ := bind_eq_ok.1 h
  cases h
  exact ⟨rfl, rfl⟩

/-- A registration is of a wallet made from the key expressions of the script. -/
theorem keeps_addMultisig (h : Queries P) {inputNum : ℕ} {psbtIn : PartiallySignedInput}
    {scriptAddrtype : AddressType} {k : ℕ} {msPubkeys : List Bytes}
    (hreg : ∀ s keyExprs name msw, P s →
      findKeyExprs R s.psbt2.xpub psbtIn.hdKeypaths msPubkeys = .ok (keyExprs, true) →
      MultisigWallet.new name scriptAddrtype k keyExprs = .ok msw →
      Allows P (.registerWallet inputNum msw)) :
    Keeps P (addMultisig R device inputNum psbtIn scriptAddrtype k msPubkeys) := by
  unfold addMultisig
  refine Triple.get_bind fun s hs => ?_
  refine Triple.mono (P := P) ?_ (fun _ h => h ▸ hs) (fun _ _ h => h) fun _ _ h => h
  refine Triple.ofExcept_bind (fun found hfound => ?_) fun _ _ _ hs => hs
  obtain ⟨keyExprs, ok⟩ := found
  cases ok with
  | false => exact keeps_pure _
  | true =>
    refine Triple.ofExcept_bind (fun msw hmsw => ?_) fun _ _ _ hs => hs
    refine (keeps_ofExcept _).bind fun mswId => ?_
    split_ifs
    · exact keeps_pure _
    · refine (keeps_registerWallet (hreg s keyExprs _ msw hs hfound hmsw)).bind fun hmac => ?_
      exact keeps_addWallet h mswId _

theorem keeps_findWalletsFor (h : Queries P) {masterFp : Bytes} {inputNum : ℕ}
    {psbtIn : PartiallySignedInput} {utxo : CTxOut}
    (hmultisig : ∀ scriptcode scriptAddrtype k msPubkeys,
      findScriptcode psbtIn utxo = .ok (some (scriptcode, scriptAddrtype)) →
      parseMultisig scriptcode = .ok (some (k, msPubkeys)) →
      Keeps P (addMultisig R device inputNum psbtIn scriptAddrtype k msPubkeys)) :
    Keeps P (findWalletsFor R chain device masterFp inputNum psbtIn utxo) := by
  unfold findWalletsFor
  refine Triple.ofExcept_bind (fun found hfound => ?_) fun _ _ _ hs => hs
  match found, hfound with
  | none, _ => exact keeps_pure _
  | some (scriptcode, scriptAddrtype), hfound =>
    refine Triple.ofExcept_bind (fun multisig hparse => ?_) fun _ _ _ hs => hs
    match multisig, hparse with
    | none, _ => exact keeps_forM fun origin _ => keeps_processOrigin h scriptAddrtype origin
    | some (k, msPubkeys), hparse => exact hmultisig scriptcode scriptAddrtype k msPubkeys hfound hparse

theorem keeps_findWallets (h : Queries P) {masterFp : Bytes} {inputNum : ℕ}
    {psbtIn : PartiallySignedInput}
    (hset : ∀ utxo s, psbtIn.nonWitnessUtxo.isSome → P s →
      P { s with psbt2 := setWitnessUtxo inputNum utxo s.psbt2 })
    (hmultisig : ∀ utxo scriptcode scriptAddrtype k msPubkeys,
      findUtxo inputNum psbtIn = .ok (some utxo) →
      findScriptcode psbtIn utxo = .ok (some (scriptcode, scriptAddrtype)) →
      parseMultisig scriptcode = .ok (some (k, msPubkeys)) →
      Keeps P (addMultisig R device inputNum psbtIn scriptAddrtype k msPubkeys)) :
    Keeps P (findWallets R chain device masterFp inputNum psbtIn) := by
  unfold findWallets
  refine Triple.ofExcept_bind (fun found hfound => ?_) fun _ _ _ hs => hs
  match found, hfound with
  | none, _ => exact keeps_pure _
  | some utxo, hfound =>
    have hrest : Keeps P (findWalletsFor R chain device masterFp inputNum psbtIn utxo) :=
      keeps_findWalletsFor h fun scriptcode scriptAddrtype k msPubkeys =>
        hmultisig utxo scriptcode scriptAddrtype k msPubkeys hfound
    by_cases hnon : psbtIn.nonWitnessUtxo.isSome
    · simp only [hnon, if_true]
      exact (keeps_modify fun s hs => hset utxo s hnon hs).bind fun _ => hrest
    · simp only [hnon]
      exact hrest

/-! ### The working copy -/

theorem workingCopy_xpub (psbt : PSBT) : (workingCopy psbt).xpub = psbt.xpub := by
  unfold workingCopy
  split_ifs <;> rfl

/-- The inputs of the copy differ in the version only. -/
theorem indexed_workingCopy (psbt : PSBT) :
    Indexed (fun _ a b => ∃ version, b = { a with version }) psbt.inputs (workingCopy psbt).inputs := by
  have hrefl : Indexed (fun _ a b => ∃ version, b = { a with version }) psbt.inputs psbt.inputs :=
    Indexed.refl fun i a _ => ⟨a.version, rfl⟩
  unfold workingCopy
  split_ifs
  · refine hrefl.map fun i a b hab => ?_
    obtain ⟨version, rfl⟩ := hab
    exact ⟨2, rfl⟩
  · exact hrefl

theorem findUtxo_eq_some {inputNum : ℕ} {psbtIn : PartiallySignedInput} {utxo : CTxOut}
    (h : findUtxo inputNum psbtIn = .ok (some utxo)) : spentOutput psbtIn = some utxo := by
  unfold findUtxo at h
  unfold spentOutput
  cases hnon : psbtIn.nonWitnessUtxo with
  | none =>
    rw [hnon] at h
    exact Except.ok.inj h
  | some tx =>
    simp only [hnon] at h ⊢
    split_ifs at h
    cases hout : psbtIn.prevOut with
    | none => rw [hout] at h; cases h
    | some prevOut =>
      simp only [hout] at h
      cases hv : tx.vout[prevOut]? with
      | none => rw [hv] at h; cases h
      | some out =>
        simp only [hv] at h
        rw [Option.bind_some, hv]
        exact Except.ok.inj h

theorem findWitnessScript_eq_some {psbtIn : PartiallySignedInput} {p2sh : Bool}
    {script scriptcode : Bytes} {scriptAddrtype : AddressType}
    (h : findWitnessScript psbtIn p2sh script = .ok (some (scriptcode, scriptAddrtype))) :
    (if isP2wsh script then psbtIn.witnessScript else script) = scriptcode := by
  unfold findWitnessScript at h
  rcases hfound : findScriptAddrtype p2sh script with e | (_ | found)
  · rw [hfound] at h
    cases h
  · rw [hfound] at h
    cases h
  · simp only [hfound] at h
    split_ifs at h ⊢
    · cases h
    all_goals
      rw [Except.ok.injEq, Option.some.injEq, Prod.mk.injEq] at h
      exact h.1

theorem findScriptcode_eq_some {psbtIn : PartiallySignedInput} {utxo : CTxOut} {scriptcode : Bytes}
    {scriptAddrtype : AddressType}
    (h : findScriptcode psbtIn utxo = .ok (some (scriptcode, scriptAddrtype))) :
    scriptCode psbtIn utxo = scriptcode := by
  unfold findScriptcode at h
  unfold scriptCode spendScript
  by_cases hp2sh : isP2sh utxo.scriptPubKey = true
  · simp only [hp2sh, if_true] at h ⊢
    by_cases hlen : psbtIn.redeemScript.length = 0
    · rw [if_pos hlen] at h
      cases h
    · rw [if_neg hlen] at h
      exact findWitnessScript_eq_some h
  · rw [if_neg hp2sh] at h
    simp only [hp2sh]
    exact findWitnessScript_eq_some h

/-! ### The whole call -/

/-- The session before the inputs are looked at. -/
structure Prepared (psbt copy : PSBT) (s : Session) : Prop where
  psbt_eq : s.psbt = psbt
  psbt2_eq : s.psbt2 = copy
  xpub_eq : copy.xpub = psbt.xpub
  registrations_eq : registrations s.exchanges = []
  yields_eq : yields s.exchanges = []

theorem registrations_concat (exchanges : List Exchange) (e : Exchange) :
    registrations (exchanges ++ [e]) = registrations exchanges ++ registrations [e] :=
  List.filterMap_append

theorem yields_concat (exchanges : List Exchange) (e : Exchange) :
    yields (exchanges ++ [e]) = yields exchanges ++ yieldsOf e := by
  rw [yields, yields, List.flatMap_append, List.flatMap_singleton]

theorem Prepared.allows {psbt copy : PSBT} {request : Request}
    (hreg : ∀ reply, registrations [(request, reply)] = [])
    (hyield : ∀ reply, yieldsOf (request, reply) = []) : Allows (Prepared psbt copy) request := by
  intro s reply hs
  refine ⟨hs.psbt_eq, hs.psbt2_eq, hs.xpub_eq, ?_, ?_⟩
  · rw [registrations_concat, hs.registrations_eq, hreg, List.append_nil]
  · rw [yields_concat, hs.yields_eq, hyield, List.append_nil]

theorem Prepared.queries (psbt copy : PSBT) : Queries (Prepared psbt copy) where
  masterFingerprint := Prepared.allows (fun _ => rfl) fun _ => rfl
  extendedPubkey _ _ := Prepared.allows (fun _ => rfl) fun _ => rfl
  wallets _ _ hs := ⟨hs.psbt_eq, hs.psbt2_eq, hs.xpub_eq, hs.registrations_eq, hs.yields_eq⟩

/-- The rule for a call: `P` has to hold of a prepared session, and survive the
search for the wallets of each input and the signing with each wallet. -/
theorem triple_signTx {psbt : PSBT} {P Q E : Session → Prop}
    {registeredDescriptors : List RegisteredDescriptor}
    (hstart : ∀ s, Prepared psbt (workingCopy psbt) s → P s)
    (hfind : ∀ masterFp inputNum psbtIn version, psbt.inputs[inputNum]? = some psbtIn →
      Keeps P (findWallets R chain device masterFp inputNum { psbtIn with version }))
    (hsign : ∀ wallet, Triple P (signWith R device wallet) (fun _ => P) fun _ => E)
    (hmerge : ∀ s, P s →
      Q { s with psbt := { s.psbt with inputs := mergeInputs s.psbt2.inputs s.psbt.inputs } })
    (hprepared : ∀ s copy, Prepared psbt copy s → E s) (herror : ∀ s, P s → E s) :
    Triple (· = start psbt) (signTx R chain device registeredDescriptors) (fun _ => Q) fun _ => E := by
  refine Triple.adaptExcept ?_
  refine Triple.bind (M := fun _ => Prepared psbt psbt) ?_ fun masterFp => ?_
  · refine (keeps_getMasterFingerprint (Prepared.queries psbt psbt)).mono ?_ (fun _ _ h => h) ?_
    · rintro _ rfl
      exact ⟨rfl, rfl, rfl, rfl, rfl⟩
    · exact fun _ s hs => hprepared s psbt hs
  refine Triple.modify_bind (M := Prepared psbt (workingCopy psbt)) ?_ ?_
  · intro s hs
    exact ⟨hs.psbt_eq, by rw [hs.psbt_eq], workingCopy_xpub psbt, hs.registrations_eq, hs.yields_eq⟩
  refine Triple.bind (M := fun _ => Prepared psbt (workingCopy psbt)) ?_ fun _ => ?_
  · refine (keeps_forM fun registered _ => keeps_addRegistered (Prepared.queries psbt _) registered).mono
      (fun _ h => h) (fun _ _ h => h) ?_
    exact fun _ s hs => hprepared s _ hs
  refine Triple.get_bind fun s hs => ?_
  refine Triple.bind (M := fun _ => P) ?_ fun _ => ?_
  · refine Triple.mono (P := P) (keeps_forM fun a ha => ?_) ?_ (fun _ _ h => h) fun _ => herror
    · obtain ⟨psbtIn', inputNum⟩ := a
      have hin := List.mem_zipIdx_iff_getElem?.1 ha
      rw [hs.psbt2_eq] at hin
      obtain ⟨psbtIn, hpsbtIn, version, rfl⟩ := (indexed_workingCopy psbt).right hin
      exact hfind masterFp inputNum psbtIn version hpsbtIn
    · intro s' hs'
      rw [hs']
      exact hstart s hs
  refine Triple.get_bind fun s hs => ?_
  refine Triple.bind (M := fun _ => P) ?_ fun _ => hmerge
  have hloop := Triple.forM (I := fun _ => P) (E := fun _ => E) (f := signWith R device)
    (l := s.wallets.values.insertionSort fun a b => a.priority ≤ b.priority)
    (fun _ wallet _ => hsign wallet) []
  exact hloop.mono (fun _ h => h ▸ hs) (fun _ _ h => h) fun _ _ h => h

end LedgerClient

end Hwi
