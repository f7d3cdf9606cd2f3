import Hwi.Lib.Result
import Hwi.Proofs.Ledger

/-! The signatures of a signing call, from the working copy to the caller's PSBT. -/

namespace Hwi

open LedgerBitcoin Procedure

namespace LedgerClient

variable {R : Runtime} {chain : Chain} {device : Device} {psbt : PSBT}

/-! ### One input of the working copy -/

/-- An input of the copy after some writes. A witness UTXO is only ever added
next to a non-witness UTXO, and may be removed. -/
structure CopiedInput (writes : List ((ℕ × Slot) × Bytes)) (i : ℕ)
    (psbtIn copyIn : PartiallySignedInput) : Prop where
  nonWitnessUtxo : copyIn.nonWitnessUtxo = psbtIn.nonWitnessUtxo
  prevOut : copyIn.prevOut = psbtIn.prevOut
  witnessUtxo : psbtIn.nonWitnessUtxo = none → ∀ utxo, copyIn.witnessUtxo = some utxo →
    psbtIn.witnessUtxo = some utxo
  partialSigs : ∀ pubkey, copyIn.partialSigs.get? pubkey =
    (lastWrite writes (i, .partialSig pubkey)).or (psbtIn.partialSigs.get? pubkey)
  tapScriptSigs : ∀ pubkey leafHash, copyIn.tapScriptSigs.get? (pubkey, leafHash) =
    (lastWrite writes (i, .tapScriptSig pubkey leafHash)).or
      (psbtIn.tapScriptSigs.get? (pubkey, leafHash))
  tapKeySig : copyIn.tapKeySig = (lastWrite writes (i, .tapKeySig)).getD psbtIn.tapKeySig

theorem copiedInput_refl (i : ℕ) (psbtIn : PartiallySignedInput) (version : ℕ) :
    CopiedInput [] i psbtIn { psbtIn with version } where
  nonWitnessUtxo := rfl
  prevOut := rfl
  witnessUtxo _ _ h := h
  partialSigs _ := rfl
  tapScriptSigs _ _ := rfl
  tapKeySig := rfl

variable {writes : List ((ℕ × Slot) × Bytes)} {i : ℕ} {psbtIn copyIn : PartiallySignedInput}

/-- What is stored for an input of the copy goes by the output the caller's
input spends. -/
theorem CopiedInput.spentOutput_eq (h : CopiedInput writes i psbtIn copyIn) {utxo : CTxOut}
    (hutxo : signedUtxo copyIn = .ok utxo) : spentOutput psbtIn = some utxo := by
  unfold signedUtxo at hutxo
  unfold spentOutput
  rw [h.nonWitnessUtxo, h.prevOut] at hutxo
  cases hnon : psbtIn.nonWitnessUtxo with
  | none =>
    rw [hnon] at hutxo
    cases hwit : copyIn.witnessUtxo with
    | none => rw [hwit] at hutxo; cases hutxo
    | some out =>
      rw [hwit] at hutxo
      obtain rfl : out = utxo := Except.ok.inj hutxo
      exact h.witnessUtxo hnon out hwit
  | some tx =>
    rw [hnon] at hutxo
    cases hout : psbtIn.prevOut with
    | none => rw [hout] at hutxo; cases hutxo
    | some prevOut =>
      simp only [hout, Option.bind_some] at hutxo ⊢
      cases hv : tx.vout[prevOut]? with
      | none => rw [hv] at hutxo; cases hutxo
      | some out =>
        rw [hv] at hutxo
        rw [Except.ok.inj hutxo]

/-- A write to another input. -/
theorem CopiedInput.other (h : CopiedInput writes i psbtIn copyIn) {w : (ℕ × Slot) × Bytes}
    (hw : i ≠ w.1.1) : CopiedInput (writes ++ [w]) i psbtIn copyIn := by
  have hlast (σ : Slot) : lastWrite (writes ++ [w]) (i, σ) = lastWrite writes (i, σ) := by
    rw [lastWrite_concat, if_neg fun heq => hw (congrArg Prod.fst heq)]
  refine ⟨h.nonWitnessUtxo, h.prevOut, h.witnessUtxo, ?_, ?_, ?_⟩
  · intro pubkey
    rw [hlast, h.partialSigs]
  · intro pubkey leafHash
    rw [hlast, h.tapScriptSigs]
  · rw [hlast, h.tapKeySig]

/-- An input with a signature at a place. -/
def storeAt (σ : Slot) (signature : Bytes) (psbtIn : PartiallySignedInput) : PartiallySignedInput :=
  match σ with
  | .partialSig pubkey => { psbtIn with partialSigs := psbtIn.partialSigs.set pubkey signature }
  | .tapScriptSig pubkey leafHash =>
    { psbtIn with tapScriptSigs := psbtIn.tapScriptSigs.set (pubkey, leafHash) signature }
  | .tapKeySig => { psbtIn with tapKeySig := signature }

theorem storeIn_eq_storeAt (utxo : CTxOut) (y : PartialSignature) (psbtIn : PartiallySignedInput) :
    storeIn utxo y psbtIn = storeAt (slot utxo y) y.signature psbtIn := by
  unfold storeIn slot
  by_cases htap : TaprootProgram utxo.scriptPubKey
  · rw [if_pos htap]
    simp only [taprootProgram_iff.1 htap, and_self, if_true]
    cases y.tapleafHash with
    | none => rfl
    | some leafHash => rfl
  · rw [if_neg htap]
    rw [taprootProgram_iff] at htap
    simp only [if_neg htap]
    rfl

/-- Storing a signature writes to its place. -/
theorem CopiedInput.store (h : CopiedInput writes i psbtIn copyIn) (σ : Slot) (signature : Bytes) :
    CopiedInput (writes ++ [((i, σ), signature)]) i psbtIn (storeAt σ signature copyIn) := by
  have hlast (τ : Slot) : lastWrite (writes ++ [((i, σ), signature)]) (i, τ) =
      if τ = σ then some signature else lastWrite writes (i, τ) := by
    rw [lastWrite_concat]
    simp only [Prod.mk.injEq, true_and]
  cases σ with
  | partialSig pk =>
    refine ⟨h.nonWitnessUtxo, h.prevOut, h.witnessUtxo, fun pubkey => ?_, fun pubkey leafHash => ?_, ?_⟩
    · rw [hlast, storeAt, Dict.get?_set, h.partialSigs]
      simp only [Slot.partialSig.injEq]
      split_ifs <;> rfl
    · rw [hlast, if_neg Slot.noConfusion]
      exact h.tapScriptSigs pubkey leafHash
    · rw [hlast, if_neg Slot.noConfusion]
      exact h.tapKeySig
  | tapScriptSig pk lh =>
    refine ⟨h.nonWitnessUtxo, h.prevOut, h.witnessUtxo, fun pubkey => ?_, fun pubkey leafHash => ?_, ?_⟩
    · rw [hlast, if_neg Slot.noConfusion]
      exact h.partialSigs pubkey
    · rw [hlast, storeAt, Dict.get?_set, h.tapScriptSigs]
      simp only [Slot.tapScriptSig.injEq, Prod.mk.injEq]
      split_ifs <;> rfl
    · rw [hlast, if_neg Slot.noConfusion]
      exact h.tapKeySig
  | tapKeySig =>
    refine ⟨h.nonWitnessUtxo, h.prevOut, h.witnessUtxo, fun pubkey => ?_, fun pubkey leafHash => ?_, ?_⟩
    · rw [hlast, if_neg Slot.noConfusion]
      exact h.partialSigs pubkey
    · rw [hlast, if_neg Slot.noConfusion]
      exact h.tapScriptSigs pubkey leafHash
    · rw [hlast, if_pos rfl]
      rfl

/-- The witness UTXO of an input with a non-witness UTXO is free, and that of
any input may go. -/
theorem CopiedInput.setWitnessUtxo (h : CopiedInput writes i psbtIn copyIn) (witnessUtxo : Option CTxOut)
    (hw : psbtIn.nonWitnessUtxo = none → ∀ utxo, witnessUtxo = some utxo →
      copyIn.witnessUtxo = some utxo) :
    CopiedInput writes i psbtIn { copyIn with witnessUtxo } where
  nonWitnessUtxo := h.nonWitnessUtxo
  prevOut := h.prevOut
  witnessUtxo hnon utxo hutxo := h.witnessUtxo hnon utxo (hw hnon utxo hutxo)
  partialSigs := h.partialSigs
  tapScriptSigs := h.tapScriptSigs
  tapKeySig := h.tapKeySig

/-- The signatures of the copy as the caller's input takes them over. -/
theorem CopiedInput.merge (h : CopiedInput writes i psbtIn copyIn) :
    SignedInput writes i psbtIn (mergeInput copyIn psbtIn) where
  frame := rfl
  partialSigs pubkey := by
    rw [mergeInput, Dict.get?_update, h.partialSigs, Option.or_assoc, Option.or_self]
  tapScriptSigs pubkey leafHash := by
    rw [mergeInput, Dict.get?_update, h.tapScriptSigs, Option.or_assoc, Option.or_self]
  tapKeySig := by
    simp only [mergeInput, h.tapKeySig, List.length_eq_zero_iff, ne_eq]
    by_cases hkey : psbtIn.tapKeySig = []
    · rw [if_pos hkey, hkey]
      by_cases hnew : (lastWrite writes (i, Slot.tapKeySig)).getD [] = []
      · rw [hnew, if_neg fun hne => hne.1 rfl]
      · rw [if_pos ⟨hnew, rfl⟩]
    · rw [if_neg hkey, if_neg fun hne => hkey hne.2]

/-! ### The whole working copy -/

/-- The session after some signatures have been stored: the caller's PSBT as it
was, the signatures in the copy. -/
structure Stored (psbt : PSBT) (ys : List (ℕ × PartialSignature)) (s : Session) : Prop where
  psbt_eq : s.psbt = psbt
  placed : ∀ y ∈ ys, (placeYield psbt y).isSome
  inputs : Indexed (CopiedInput (ys.filterMap (placeYield psbt))) psbt.inputs s.psbt2.inputs

/-- Every yielded signature is stored. -/
def StoredAll (psbt : PSBT) (s : Session) : Prop := Stored psbt (yields s.exchanges) s

theorem StoredAll.allows {request : Request} (h : ∀ reply, yieldsOf (request, reply) = []) :
    Allows (StoredAll psbt) request := by
  intro s reply hs
  unfold StoredAll
  rw [yields_concat, h, List.append_nil]
  exact ⟨hs.psbt_eq, hs.placed, hs.inputs⟩

theorem StoredAll.queries : Queries (StoredAll psbt) where
  masterFingerprint := StoredAll.allows fun _ => rfl
  extendedPubkey _ _ := StoredAll.allows fun _ => rfl
  wallets _ _ hs := ⟨hs.psbt_eq, hs.placed, hs.inputs⟩

/-- A step that stores one signature. -/
theorem triple_storeSignature (ys : List (ℕ × PartialSignature)) (y : ℕ × PartialSignature)
    (exchanges : List Exchange) :
    Triple (fun s => Stored psbt ys s ∧ s.exchanges = exchanges) (storeSignature y.1 y.2)
      (fun _ s => Stored psbt (ys ++ [y]) s ∧ s.exchanges = exchanges) fun _ s => s.psbt = psbt := by
  unfold storeSignature
  refine Triple.get_bind fun s ⟨hs, hex⟩ => ?_
  cases hcopy : s.psbt2.inputs[y.1]? with
  | none => exact Triple.throw fun _ h => h ▸ hs.psbt_eq
  | some copyIn =>
    refine Triple.ofExcept_bind (fun utxo hutxo => ?_) fun _ _ _ h => h ▸ hs.psbt_eq
    obtain ⟨psbtIn, hpsbtIn, hin⟩ := hs.inputs.right hcopy
    have hspent := hin.spentOutput_eq hutxo
    have hplace : placeYield psbt y = some ((y.1, slot utxo y.2), y.2.signature) := by
      unfold placeYield
      rw [hpsbtIn]
      simp only [Option.bind_eq_bind, Option.bind_some, hspent]
      rfl
    rintro _ rfl
    refine ⟨⟨hs.psbt_eq, fun z hz => ?_, ?_⟩, hex⟩
    · rcases List.mem_append.1 hz with hold | hnew
      · exact hs.placed z hold
      · rw [List.mem_singleton.1 hnew, hplace]
        rfl
    · rw [List.filterMap_append, List.filterMap_cons_some hplace, List.filterMap_nil]
      refine hs.inputs.modify (fun a b _ hab => ?_) fun i a b hi hab => hab.other hi
      rw [storeIn_eq_storeAt]
      exact hab.store (slot utxo y.2) y.2.signature

theorem triple_storeSignatures (ys sigs : List (ℕ × PartialSignature)) (exchanges : List Exchange) :
    Triple (fun s => Stored psbt ys s ∧ s.exchanges = exchanges)
      (forM sigs fun y => storeSignature y.1 y.2)
      (fun _ s => Stored psbt (ys ++ sigs) s ∧ s.exchanges = exchanges) fun _ s => s.psbt = psbt := by
  have hloop := Triple.forM (I := fun done s => Stored psbt (ys ++ done) s ∧ s.exchanges = exchanges)
    (E := fun _ s => s.psbt = psbt) (f := fun y => storeSignature y.1 y.2) (l := sigs)
    (fun done y _ => by
      rw [← List.append_assoc]
      exact triple_storeSignature (ys ++ done) y exchanges) []
  rwa [List.append_nil] at hloop

theorem mapM_toOption {α : Type} {f : Bytes → Except Exc α} :
    ∀ {l : List Bytes} {r : List α}, l.mapM f = .ok r → l.filterMap (fun b => (f b).toOption) = r
  | [], r, h => by
    rw [List.mapM_nil] at h
    cases h
    rfl
  | b :: l, r, h => by
    rw [List.mapM_cons] at h
    obtain ⟨a, ha, h⟩ := bind_eq_ok.1 h
    obtain ⟨r', hr', h⟩ := bind_eq_ok.1 h
    cases h
    rw [List.filterMap_cons_some (by rw [ha, toOption_ok]), mapM_toOption hr']

/-- What `sign_psbt` returns is what the exchange yielded. -/
theorem yieldsOf_signPsbt {b : Bytes} {wallet : WalletPolicy} {walletHmac : Option Bytes}
    {r : Response} {sigs : List (ℕ × PartialSignature)} (h : parseResults r.yielded = .ok sigs) :
    yieldsOf (.signPsbt b wallet walletHmac, .ok r) = sigs := by
  unfold parseResults at h
  split_ifs at h
  · cases h
  · exact mapM_toOption h

/-- After `sign_psbt` the signatures it returns are all that is not stored. -/
theorem triple_signPsbt (copy : PSBT) (wallet : WalletPolicy) (walletHmac : Option Bytes) :
    Triple (StoredAll psbt) (signPsbt R device copy wallet walletHmac)
      (fun sigs s => ∃ ys, Stored psbt ys s ∧ yields s.exchanges = ys ++ sigs)
      fun _ s => s.psbt = psbt := by
  unfold signPsbt
  split_ifs
  · exact Triple.throw fun s hs => hs.psbt_eq
  refine Triple.ofExcept_bind (fun psbtBytes _ => ?_) fun _ s _ hs => hs.psbt_eq
  refine Triple.ofExcept_bind (fun _ _ => ?_) fun _ s _ hs => hs.psbt_eq
  refine Triple.bind (M := fun r s => ∃ ys, Stored psbt ys s ∧ ∀ sigs,
    parseResults r.yielded = .ok sigs → yields s.exchanges = ys ++ sigs) ?_ fun r => ?_
  · refine triple_makeRequest (fun s r hs => ?_) fun _ s _ hs => hs.psbt_eq
    refine ⟨yields s.exchanges, ⟨hs.psbt_eq, hs.placed, hs.inputs⟩, fun sigs hsigs => ?_⟩
    rw [yields_concat, yieldsOf_signPsbt hsigs]
  · refine Triple.ofExcept (fun sigs s hsigs hs => ?_) fun _ s _ hs => ?_
    · obtain ⟨ys, hstored, hys⟩ := hs
      exact ⟨ys, hstored, hys sigs hsigs⟩
    · obtain ⟨ys, hstored, _⟩ := hs
      exact hstored.psbt_eq

/-- Signing with a wallet stores what is yielded. -/
theorem triple_signWith (wallet : SigningWallet) :
    Triple (StoredAll psbt) (signWith R device wallet) (fun _ => StoredAll psbt)
      fun _ s => s.psbt = psbt := by
  have hsign : Triple (StoredAll psbt) (do
      let s ← get
      let inputSigs ← signPsbt R device s.psbt2 wallet.wallet wallet.walletHmac
      forM inputSigs fun y => storeSignature y.1 y.2)
      (fun _ => StoredAll psbt) fun _ s => s.psbt = psbt := by
    refine Triple.get_bind fun s hs => ?_
    refine Triple.mono (P := StoredAll psbt) ?_ (fun _ h => h ▸ hs) (fun _ _ h => h) fun _ _ h => h
    refine Triple.bind (triple_signPsbt s.psbt2 wallet.wallet wallet.walletHmac) fun sigs => ?_
    rintro s₁ ⟨ys, hstored, hys⟩
    refine (triple_storeSignatures ys sigs s₁.exchanges).mono (fun _ h => h) (fun _ s₂ h => ?_)
      (fun _ _ h => h) s₁ ⟨hstored, rfl⟩
    unfold StoredAll
    rw [h.2, hys]
    exact h.1
  unfold signWith
  split_ifs
  · refine Triple.modify_bind (fun s hs => ?_) hsign
    refine ⟨hs.psbt_eq, hs.placed, hs.inputs.map fun i a b hab => ?_⟩
    cases hwit : b.witnessUtxo with
    | none => exact hab
    | some utxo =>
      simp only
      split_ifs
      · exact hab
      · exact hab.setWitnessUtxo none fun _ _ h => by cases h
  · exact hsign

theorem keeps_findWallets_storedAll {masterFp : Bytes} {inputNum : ℕ} {psbtIn : PartiallySignedInput}
    (hin : psbt.inputs[inputNum]? = some psbtIn) (version : ℕ) :
    Keeps (StoredAll psbt) (findWallets R chain device masterFp inputNum { psbtIn with version }) := by
  refine keeps_findWallets StoredAll.queries ?_ ?_
  · intro utxo s hnon hs
    refine ⟨hs.psbt_eq, hs.placed, ?_⟩
    refine hs.inputs.modify (fun a b ha hab => ?_) fun i a b _ hab => hab
    obtain rfl : a = psbtIn := Option.some.inj (ha.symm.trans hin)
    refine hab.setWitnessUtxo (some utxo) fun hnone => ?_
    rw [hnone] at hnon
    cases hnon
  · intro utxo scriptcode scriptAddrtype k msPubkeys _ _ _
    exact keeps_addMultisig StoredAll.queries fun _ _ _ _ _ _ _ => StoredAll.allows fun _ => rfl

theorem mergeInputs_getElem? : ∀ (sigIns psbtIns : List PartiallySignedInput) (i : ℕ),
    (mergeInputs sigIns psbtIns)[i]? = match sigIns[i]? with
      | some sigIn => psbtIns[i]?.map (mergeInput sigIn)
      | none => psbtIns[i]?
  | [], psbtIns, i => by simp [mergeInputs]
  | sigIn :: sigIns, [], i => by
    cases h : (sigIn :: sigIns)[i]? <;> simp [mergeInputs]
  | sigIn :: sigIns, psbtIn :: psbtIns, 0 => by simp [mergeInputs]
  | sigIn :: sigIns, psbtIn :: psbtIns, i + 1 => by
    simp only [mergeInputs, List.getElem?_cons_succ]
    exact mergeInputs_getElem? sigIns psbtIns i

/-- The merged inputs. -/
theorem Stored.merge {ys : List (ℕ × PartialSignature)} {s : Session} (h : Stored psbt ys s) :
    SignedBy ys psbt { s.psbt with inputs := mergeInputs s.psbt2.inputs s.psbt.inputs } := by
  rw [h.psbt_eq]
  refine ⟨h.placed, rfl, fun i => ?_⟩
  rw [mergeInputs_getElem?]
  cases hin : psbt.inputs[i]? with
  | none =>
    cases hcopy : s.psbt2.inputs[i]? with
    | none => exact .none
    | some copyIn => exact .none
  | some psbtIn =>
    obtain ⟨copyIn, hcopy, hcopied⟩ := h.inputs.left hin
    rw [hcopy]
    exact .some hcopied.merge

/-- A call that raises leaves the caller's PSBT as it is, and one that returns
leaves it with the yielded signatures. -/
theorem signTx_signedBy (R : Runtime) (chain : Chain) (device : Device)
    (registeredDescriptors : List RegisteredDescriptor) (psbt : PSBT) :
    match (signTx R chain device registeredDescriptors).run (start psbt) with
    | .ok _ s => SignedBy (yields s.exchanges) psbt s.psbt
    | .error _ s => s.psbt = psbt := by
  have hcall : Triple (· = start psbt) (signTx R chain device registeredDescriptors)
      (fun _ s => SignedBy (yields s.exchanges) psbt s.psbt) fun _ s => s.psbt = psbt := by
    refine triple_signTx (P := StoredAll psbt) ?_ ?_ ?_ ?_ ?_ ?_
    · intro s hs
      unfold StoredAll
      rw [hs.yields_eq]
      refine ⟨hs.psbt_eq, fun y hy => absurd hy List.not_mem_nil, ?_⟩
      rw [hs.psbt2_eq]
      refine (indexed_workingCopy psbt).mono fun i a b hab => ?_
      obtain ⟨version, rfl⟩ := hab
      exact copiedInput_refl i a version
    · exact fun masterFp inputNum psbtIn version hin => keeps_findWallets_storedAll hin version
    · exact triple_signWith
    · exact fun s hs => hs.merge
    · exact fun s copy hs => hs.psbt_eq
    · exact fun s hs => hs.psbt_eq
  cases hrun : (signTx R chain device registeredDescriptors).run (start psbt) with
  | ok _ s => exact hcall.ok rfl hrun
  | error e s => exact hcall.error rfl hrun

/-! ### A registered wallet -/

def registeredKey : Bytes := 0x02 :: List.replicate 32 0x01

/-- A PSBT that spends a P2WPKH output. -/
def registeredSample : PSBT where
  inputs := [{
    witnessUtxo := some { nValue := 1000, scriptPubKey := [0x00, 0x14] ++ List.replicate 20 0x05 }
    prevTxid := List.replicate 32 0x03
    prevOut := some 0
    version := 2 }]
  txVersion := some 2
  version := 2

def sampleRegistered : RegisteredDescriptor where
  serialized := "wpkh".toList
  name := "cold".toList
  bip388Template := .ok "wpkh(@0/**)".toList
  bip388KeyInfo := .ok ["xpub".toList]
  addressType := some .wit
  registration := List.replicate 32 0x07

/-- A device that yields a signature for the first input. -/
def yieldingDevice : Device := fun _ request => match request with
  | .getMasterFingerprint => .ok { sw := 0x9000, response := [0, 0, 0, 1] }
  | .signPsbt _ _ _ => .ok {
      sw := 0x9000, response := [], yielded := [[0x00, 0x21] ++ registeredKey ++ [0x30, 0x01]] }
  | _ => .ok { sw := 0x6985, response := [] }

/-- The call returns with the signature that the device yields. -/
theorem signTx_signedBy_sample : ∃ s,
    (signTx Runtime.zeros .main yieldingDevice [sampleRegistered]).run (start registeredSample) =
      .ok () s ∧
    SignedBy [(0, { pubkey := registeredKey, signature := [0x30, 0x01] })] registeredSample s.psbt := by
  have hyields : (match (signTx Runtime.zeros .main yieldingDevice [sampleRegistered]).run
      (start registeredSample) with
      | .ok _ s => yields s.exchanges
      | .error _ _ => []) = [(0, { pubkey := registeredKey, signature := [0x30, 0x01] })] := by
    decide +kernel
  have hcall := signTx_signedBy Runtime.zeros .main yieldingDevice [sampleRegistered] registeredSample
  cases hrun : (signTx Runtime.zeros .main yieldingDevice [sampleRegistered]).run
      (start registeredSample) with
  | ok _ s =>
    rw [hrun] at hyields hcall
    rw [← hyields]
    exact ⟨s, rfl, hcall⟩
  | error e s =>
    rw [hrun] at hyields
    cases hyields

end LedgerClient

end Hwi
