import Hwi.Proofs.Ledger
import Hwi.Spec.LedgerDisplay

/-! Multisig addresses on a Ledger: no descriptor gets as far as its address. -/

namespace Hwi

namespace LedgerClient

open LedgerBitcoin Procedure

/-! ### The checks -/

theorem anyM_eq_ok_false {α : Type} {f : α → Except Exc Bool} {l : List α} :
    l.anyM f = .ok false ↔ ∀ a ∈ l, f a = .ok false := by
  induction l with
  | nil => simp [List.anyM]
  | cons a l ih =>
    rw [List.anyM, bind_eq_ok, List.forall_mem_cons, ← ih]
    constructor
    · rintro ⟨b, hb, h⟩
      cases b with
      | true => cases h
      | false => exact ⟨hb, h⟩
    · rintro ⟨ha, h⟩
      exact ⟨false, ha, h⟩

theorem isValidDerPath_eq_ok {pk : PubkeyProvider} (h : isValidDerPath pk = .ok true) :
    ∃ first change index, pk.derivPath = some [first, change, index] := by
  unfold isValidDerPath at h
  split at h
  · exact ⟨_, _, _, by assumption⟩
  · cases h

/-- A descriptor that is admitted has paths of three steps. -/
theorem checkMultisigDisplay_eq_ok {multisig : MultisigDescriptor}
    (h : checkMultisigDisplay multisig = .ok ()) {pk : PubkeyProvider} (hpk : pk ∈ multisig.pubkeys) :
    ∃ first change index, pk.derivPath = some [first, change, index] := by
  unfold checkMultisigDisplay at h
  obtain ⟨invalid, hinvalid, h⟩ := bind_eq_ok.1 h
  cases invalid with
  | true => cases h
  | false =>
    obtain ⟨valid, hvalid, hnot⟩ := bind_eq_ok.1 (anyM_eq_ok_false.1 hinvalid pk hpk)
    cases valid with
    | true => exact isValidDerPath_eq_ok hvalid
    | false => cases hnot

/-- The step that the change flag is read from is missing. -/
theorem firstStep_three {multisig : MultisigDescriptor} (h : checkMultisigDisplay multisig = .ok ()) :
    firstStep multisig 3 = .error .indexError := by
  unfold firstStep
  cases hpubkeys : multisig.pubkeys with
  | nil => rfl
  | cons pk pks =>
    obtain ⟨first, change, index, hpath⟩ :=
      checkMultisigDisplay_eq_ok h (hpubkeys ▸ List.mem_cons_self : pk ∈ multisig.pubkeys)
    dsimp only
    rw [hpath]
    rfl

/-- Paths of the two steps that an address of an account has. -/
def TwoStep (pk : PubkeyProvider) : Prop :=
  (∃ c i : ℤ, (c = 0 ∨ c = 1) ∧ 0 ≤ i ∧ i < 2 ^ 31 ∧ pk.derivPath = some [[c], [i]]) ∧
    ∀ origin ∈ pk.origin, origin.path.length ≤ 4

theorem checkMultisigDisplay_twoStep {multisig : MultisigDescriptor} (hne : multisig.pubkeys ≠ [])
    (h : ∀ pk ∈ multisig.pubkeys, TwoStep pk) :
    checkMultisigDisplay multisig = .error (.badArgumentError
      "Ledger Bitcoin app requires derivation paths ending with /0/* or /1/* for multisig") := by
  obtain ⟨pk, pks, hpubkeys⟩ := List.exists_cons_of_ne_nil hne
  obtain ⟨⟨c, i, -, -, -, hpath⟩, -⟩ := h pk (hpubkeys ▸ List.mem_cons_self)
  have hvalid : isValidDerPath pk = .ok false := by
    unfold isValidDerPath
    rw [hpath]
  unfold checkMultisigDisplay
  rw [hpubkeys, List.anyM, hvalid]
  rfl

/-! ### Runs -/

variable {R : Runtime} {device : DisplayDevice} {legacy : Bool} {addrType : AddressType}
  {multisig : MultisigDescriptor}

/-- Only policies are registered, with the keys of the descriptor in its order. -/
def OnlyRegisters (R : Runtime) (multisig : MultisigDescriptor) (exchanges : List DisplayExchange) : Prop :=
  ∀ x ∈ exchanges, ∃ wallet, x.1 = .registerWallet wallet ∧
    multisig.pubkeys.mapM (formatKeyInfo R) = .ok wallet.keysInfo

theorem keeps_registerPolicy {wallet : WalletPolicy}
    (h : multisig.pubkeys.mapM (formatKeyInfo R) = .ok wallet.keysInfo) :
    Keeps (OnlyRegisters R multisig) (DisplayMethod.registerWallet R device wallet) := by
  unfold DisplayMethod.registerWallet DisplayMethod.makeRequest
  refine (keeps_ofExcept _).bind fun _ => Keeps.bind ?_ fun r => ?_
  · refine Triple.get_bind fun exchanges hexchanges => Triple.modify_bind
      (M := OnlyRegisters R multisig) ?_ ((keeps_ofExcept _).bind fun r => ?_)
    · rintro _ rfl x hx
      rcases List.mem_append.1 hx with hx | hx
      · exact hexchanges x hx
      · rw [List.mem_singleton.1 hx]
        exact ⟨wallet, rfl, h⟩
    · split_ifs
      · exact keeps_throw _
      · exact keeps_pure r
  · split_ifs
    · exact keeps_throw _
    · exact keeps_pure _

/-- A descriptor that is admitted never gets past its registration. -/
theorem triple_displayMultisigAddress (h : checkMultisigDisplay multisig = .ok ()) :
    Triple (OnlyRegisters R multisig) (displayMultisigAddress R legacy device addrType multisig)
      (fun _ _ => False) fun _ => OnlyRegisters R multisig := by
  unfold displayMultisigAddress
  apply Triple.adaptExcept
  split_ifs
  · exact Triple.throw fun _ hs => hs
  · rw [h, firstStep_three h]
    refine Triple.ofExcept_bind (fun _ _ => ?_) fun _ _ _ hs => hs
    refine Triple.ofExcept_bind (fun keysInfo hkeys => ?_) fun _ _ _ hs => hs
    refine Triple.ofExcept_bind (fun wallet hwallet => ?_) fun _ _ _ hs => hs
    rw [← (MultisigWallet.new_eq_ok hwallet).2] at hkeys
    exact Triple.bind (keeps_registerPolicy hkeys) fun _ =>
      Triple.throw fun _ hs => hs

theorem run_adaptExcept_error {σ α : Type} {f : Exc → Exc} {x : Procedure Exc σ α} {s s' : σ} {e : Exc}
    (h : x.run s = .error e s') : (EStateM.adaptExcept f x).run s = .error (f e) s' := by
  change EStateM.adaptExcept f x s = _
  unfold EStateM.adaptExcept
  change x s = _ at h
  rw [h]

theorem run_registerWallet {wallet : WalletPolicy} {data : Bytes} (hdata : wallet.serialize R = .ok data)
    {r : Response} (hreply : device [] (.registerWallet wallet) = .ok r) (hsw : r.sw = 0x9000)
    (hlen : r.response.length = 64) : (DisplayMethod.registerWallet R device wallet).run [] =
      .ok ((r.response.drop 32).take 32) [(.registerWallet wallet, .ok r)] := by
  have hrequest : (DisplayMethod.makeRequest device (.registerWallet wallet)).run [] =
      .ok r [(.registerWallet wallet, .ok r)] := by
    change ((Procedure.ofExcept (device [] (.registerWallet wallet)) >>= fun r => _) :
      DisplayMethod Response).run [(.registerWallet wallet, device [] (.registerWallet wallet))] = _
    rw [hreply]
    change (if r.sw ≠ 0x9000 then _ else _ : DisplayMethod Response).run _ = _
    rw [if_neg (not_not.2 hsw)]
    rfl
  unfold DisplayMethod.registerWallet
  rw [hdata, EStateM.run_bind]
  dsimp only [run_ofExcept_ok]
  rw [EStateM.run_bind, hrequest]
  dsimp only
  rw [if_neg (not_not.2 hlen)]
  rfl

/-- On a device that registers the policy the call ends with the missing step. -/
theorem run_displayMultisigAddress {keysInfo : List Str} {wallet : MultisigWallet} {data : Bytes}
    {r : Response} (hcheck : checkMultisigDisplay multisig = .ok ())
    (hkeys : multisig.pubkeys.mapM (formatKeyInfo R) = .ok keysInfo)
    (hwallet : MultisigWallet.new
      (str multisig.thresh ++ " of ".toList ++ str keysInfo.length ++ " Multisig".toList)
      addrType multisig.thresh keysInfo multisig.isSorted = .ok wallet)
    (hdata : wallet.serialize R = .ok data)
    (hreply : device [] (.registerWallet wallet.toWalletPolicy) = .ok r) (hsw : r.sw = 0x9000)
    (hlen : r.response.length = 64) :
    (displayMultisigAddress R false device addrType multisig).run [] =
      .error .indexError [(.registerWallet wallet.toWalletPolicy, .ok r)] := by
  have hregister := run_registerWallet hdata hreply hsw hlen
  unfold displayMultisigAddress
  rw [run_adaptExcept_error (e := .indexError)]
  · rfl
  · rw [if_neg (by simp), hcheck, hkeys, firstStep_three hcheck, EStateM.run_bind]
    dsimp only [run_ofExcept_ok]
    rw [EStateM.run_bind]
    dsimp only [run_ofExcept_ok]
    rw [hwallet, EStateM.run_bind]
    dsimp only [run_ofExcept_ok]
    rw [EStateM.run_bind, hregister]
    rfl

/-- No descriptor gets as far as its address: one that is admitted is registered and
no more, and one with the paths of an account is not admitted. -/
theorem displayMultisigAddress_never (R : Runtime) (device : DisplayDevice) (addrType : AddressType)
    (multisig : MultisigDescriptor) :
    (checkMultisigDisplay multisig = .ok () → ∃ e exchanges,
      (displayMultisigAddress R false device addrType multisig).run [] = .error e exchanges ∧
        OnlyRegisters R multisig exchanges) ∧
    (multisig.pubkeys ≠ [] → (∀ pk ∈ multisig.pubkeys, TwoStep pk) →
      (displayMultisigAddress R false device addrType multisig).run [] = .error (.badArgumentError
        "Ledger Bitcoin app requires derivation paths ending with /0/* or /1/* for multisig") []) := by
  constructor
  · intro h
    have htriple : Triple (OnlyRegisters R multisig)
        (displayMultisigAddress R false device addrType multisig) (fun _ _ => False)
        fun _ => OnlyRegisters R multisig := triple_displayMultisigAddress h
    have hrun := htriple [] fun x hx => absurd hx List.not_mem_nil
    cases hresult : (displayMultisigAddress R false device addrType multisig).run [] with
    | ok address exchanges =>
      rw [hresult] at hrun
      exact hrun.elim
    | error e exchanges =>
      rw [hresult] at hrun
      exact ⟨e, exchanges, rfl, hrun⟩
  · intro hne h
    unfold displayMultisigAddress
    rw [run_adaptExcept_error (e := .badArgumentError
      "Ledger Bitcoin app requires derivation paths ending with /0/* or /1/* for multisig")]
    · rfl
    · rw [if_neg (by simp), checkMultisigDisplay_twoStep hne h]
      rfl

/-! ### A descriptor with one key -/

def threeStepXpub : Str :=
  ("xpub6DXuQW1Q2JpZw1UMCfkhzjKJ1xHuvfobjg5kDT9tFomxXRj7rJbnDy71u" ++
    "TKimm6aW7Wx9M8UwDjL1z5nzidcwYqdQaLLXNLrcgu4KPErGcG").toList

def threeStepPubkey (derivPath : List (List ℤ)) : PubkeyProvider where
  origin := some {
    fingerprint := [0, 0, 0, 1]
    path := [2 ^ 31 + 48, 2 ^ 31, 2 ^ 31, 2 ^ 31 + 2] }
  pubkey := threeStepXpub
  derivPath := some derivPath
  exprIndex := 0
  ranged := true
  extkey := some {
    version := ExtendedKey.MAINNET_PUBLIC
    depth := 4
    parentFingerprint := [0, 0, 0, 0]
    childNum := 2 ^ 31 + 2
    chaincode := List.replicate 32 1
    privkey := none
    pubkey := [0x02, 0x79, 0xbe, 0x66, 0x7e, 0xf9, 0xdc, 0xbb, 0xac, 0x55, 0xa0, 0x62, 0x95, 0xce, 0x87,
      0x0b, 0x07, 0x02, 0x9b, 0xfc, 0xdb, 0x2d, 0xce, 0x28, 0xd9, 0x59, 0xf2, 0x81, 0x5b, 0x16, 0xf8,
      0x17, 0x98] }

def threeStepMultisig : MultisigDescriptor where
  pubkeys := [threeStepPubkey [[5], [0], [3]]]
  thresh := 1
  isSorted := true

/-- A device that answers every command. -/
def answering : DisplayDevice := fun _ _ => .ok { sw := 0x9000, response := List.replicate 64 0 }

theorem displayMultisigAddress_never_sample : ∃ e exchanges,
    (displayMultisigAddress Runtime.zeros false answering .wit threeStepMultisig).run [] = .error e exchanges ∧
      OnlyRegisters Runtime.zeros threeStepMultisig exchanges :=
  (displayMultisigAddress_never Runtime.zeros answering .wit threeStepMultisig).1 (by decide +kernel)

/-- The key is one that is parsed, its descriptor is admitted and registered, and
its address is never asked for. -/
theorem displayMultisigAddress_sample :
    PubkeyProvider.parse ("[00000001/48h/0h/0h/2h]".toList ++ threeStepXpub ++ "/5/0/3/*".toList) 0 =
        .ok (threeStepPubkey [[5], [0], [3]]) ∧
      checkMultisigDisplay threeStepMultisig = .ok () ∧
      ∃ wallet reply, (displayMultisigAddress Runtime.zeros false answering .wit threeStepMultisig).run [] =
        .error .indexError [(.registerWallet wallet, reply)] := by
  refine ⟨by decide +kernel, by decide +kernel, ?_⟩
  have hsome : (do
      let keysInfo ← threeStepMultisig.pubkeys.mapM (formatKeyInfo Runtime.zeros)
      let wallet ← MultisigWallet.new
        (str threeStepMultisig.thresh ++ " of ".toList ++ str keysInfo.length ++ " Multisig".toList)
        .wit threeStepMultisig.thresh keysInfo threeStepMultisig.isSorted
      serializeStr wallet.name).toOption.isSome = true := by
    decide +kernel
  obtain ⟨name, hname⟩ := Option.isSome_iff_exists.1 hsome
  obtain ⟨keysInfo, hkeys, hname⟩ := bind_eq_ok.1 (toOption_eq_some.1 hname)
  obtain ⟨wallet, hwallet, hname⟩ := bind_eq_ok.1 hname
  have hdata : ∃ data, wallet.serialize Runtime.zeros = .ok data := by
    unfold WalletPolicy.serialize
    rw [hname]
    exact ⟨_, rfl⟩
  obtain ⟨data, hdata⟩ := hdata
  exact ⟨wallet.toWalletPolicy, _,
    run_displayMultisigAddress (by decide +kernel) hkeys hwallet hdata rfl rfl rfl⟩

end LedgerClient

end Hwi
