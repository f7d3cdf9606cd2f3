import Hwi.Proofs.TrezorInput

/-! The passes of a signing call with a Trezor: what each of them sends and
stores, and when the kind of a signature is kept. -/

namespace Hwi

open Trezor Procedure

namespace TrezorClient

variable {R : Runtime} {chain : Chain} {device : Device} {external : Bool} {masterFp : Bytes}
  {xpub : Dict Bytes KeyOriginInfo}

/-! ### The streamed inputs -/

theorem mem_prepareInputs : ∀ {n : ℕ} {inputs : List PartiallySignedInput} {streamed : List Streamed},
    prepareInputs R chain external masterFp xpub n inputs = .ok streamed → ∀ st,
      st ∈ streamed ↔ ∃ k psbtIn, inputs[k]? = some psbtIn ∧
        prepareInput R chain external masterFp xpub (n + k) psbtIn = .ok (some st)
  | n, [], streamed, h, st => by
    cases h
    simp
  | n, psbtIn :: rest, streamed, h, st => by
    obtain ⟨first, hfirst, h⟩ := bind_eq_ok.1 h
    obtain ⟨more, hmore, h⟩ := bind_eq_ok.1 h
    cases h
    rw [List.mem_append, Option.mem_toList, mem_prepareInputs hmore st]
    constructor
    · rintro (heq | ⟨k, psbtIn', hget, hst⟩)
      · refine ⟨0, psbtIn, rfl, ?_⟩
        rw [Nat.add_zero, hfirst, heq]
      · refine ⟨k + 1, psbtIn', hget, ?_⟩
        rw [← hst, Nat.add_assoc, Nat.add_comm 1 k]
    · rintro ⟨k, psbtIn', hget, hst⟩
      cases k with
      | zero =>
        cases hget
        rw [Nat.add_zero, hfirst] at hst
        exact Or.inl (Except.ok.inj hst)
      | succ k =>
        refine Or.inr ⟨k, psbtIn', hget, ?_⟩
        rw [← hst, Nat.add_assoc, Nat.add_comm 1 k]

theorem prepareInputs_length : ∀ {n : ℕ} {inputs : List PartiallySignedInput}
    {streamed : List Streamed},
    prepareInputs R chain external masterFp xpub n inputs = .ok streamed →
      streamed.length ≤ inputs.length
  | n, [], streamed, h => by
    cases h
    rfl
  | n, psbtIn :: rest, streamed, h => by
    obtain ⟨first, _, h⟩ := bind_eq_ok.1 h
    obtain ⟨more, hmore, h⟩ := bind_eq_ok.1 h
    cases h
    have hrest := prepareInputs_length hmore
    cases first <;> simp <;> omega

theorem Prepared.inputNum_eq {inputNum : ℕ} {psbtIn : PartiallySignedInput} {st : Streamed}
    (h : Prepared R chain external masterFp xpub inputNum psbtIn st) : st.inputNum = inputNum := by
  obtain ⟨_, _, _, tx', ignored, _, _, _, _, hst⟩ := h
  cases ignored with
  | true =>
    rw [if_pos rfl] at hst
    rw [hst]
    rfl
  | false => exact (prepareKey_eq_ok hst).1

/-! ### One pass -/

/-- What a pass sends and stores. -/
structure PassOf (R : Runtime) (chain : Chain) (external : Bool) (pass : Pass) : Prop where
  streamed : prepareInputs R chain external pass.masterFp pass.psbt.xpub 0 pass.psbt.inputs =
    .ok pass.streamed
  sent : pass.call.1.inputs = pass.streamed.map fun st => st.txinputtype
  outputs : pass.psbt.outputs.mapM (prepareOutput R chain pass.masterFp pass.psbt.xpub) =
    .ok pass.call.1.outputs
  returned : pass.call.2.length = pass.streamed.length
  psbtAfter : pass.psbtAfter = { pass.psbt with
    inputs := storeSignatures pass.masterFp (toIgnore pass.streamed) 0 pass.psbt.inputs pass.call.2 }

theorem prepareRequest_eq_ok {psbt : PSBT} {streamed : List Streamed} {request : SignTx}
    (h : prepareRequest R chain external masterFp psbt = .ok (streamed, request)) :
    prepareInputs R chain external masterFp psbt.xpub 0 psbt.inputs = .ok streamed ∧
      request.inputs = streamed.map (fun st => st.txinputtype) ∧
      psbt.outputs.mapM (prepareOutput R chain masterFp psbt.xpub) = .ok request.outputs := by
  obtain ⟨streamed', hstreamed, h⟩ := bind_eq_ok.1 h
  obtain ⟨outputs, houtputs, h⟩ := bind_eq_ok.1 h
  obtain ⟨prevTxes, -, h⟩ := bind_eq_ok.1 h
  split at h
  · cases h
  · obtain ⟨lockTime, -, h⟩ := bind_eq_ok.1 h
    cases h
    exact ⟨hstreamed, rfl, houtputs⟩

/-- A pass adds itself to those that were made, and its PSBT is the next one. -/
theorem triple_signPass (masterFp : Bytes) (passes : ℕ) (s₀ : State) :
    Triple (· = s₀) (signPass R chain device masterFp passes)
      (fun n s => ∃ pass, PassOf R chain (supportsExternal device) pass ∧ pass.masterFp = masterFp ∧
        pass.psbt = s₀.psbt ∧ s.psbt = pass.psbtAfter ∧ s.passes = s₀.passes ++ [pass] ∧
        n = pass.streamed.foldl (fun passes st => max passes st.ourKeys) passes)
      fun _ s => s.psbt = s₀.psbt ∧ s.passes = s₀.passes := by
  unfold signPass
  refine Triple.get_bind ?_
  rintro s rfl
  refine Triple.ofExcept_bind (fun prepared hprepared => ?_) ?_
  · obtain ⟨streamed, request⟩ := prepared
    obtain ⟨hstreamed, hinputs, houtputs⟩ := prepareRequest_eq_ok hprepared
    refine Triple.modify_bind (M := fun t => t.psbt = s.psbt ∧ t.passes = s.passes) ?_ ?_
    · rintro _ rfl
      exact ⟨rfl, rfl⟩
    refine Triple.ofExcept_bind (fun sign _ => ?_) fun _ _ _ h => h
    rintro t ⟨-, hpasses⟩
    refine ⟨{
      masterFp, psbt := s.psbt, streamed, call := (request, (List.range streamed.length).map sign),
      psbtAfter := _ }, ?_, rfl, rfl, rfl, congrArg (· ++ _) hpasses, rfl⟩
    exact ⟨hstreamed, hinputs, houtputs, by simp only [List.length_map, List.length_range], rfl⟩
  · rintro _ _ _ rfl
    exact ⟨rfl, rfl⟩

/-- Every pass that is made is one. -/
def PassesMade (R : Runtime) (chain : Chain) (external : Bool) (s : State) : Prop :=
  ∀ pass ∈ s.passes, PassOf R chain external pass

theorem keeps_signPass (masterFp : Bytes) (passes : ℕ) :
    Keeps (PassesMade R chain (supportsExternal device))
      (signPass R chain device masterFp passes) := by
  intro s hs
  refine (triple_signPass masterFp passes s).mono (fun _ h => h) ?_ ?_ s rfl
  · rintro n ⟨_, _, requests⟩ ⟨pass, hpass, -, -, -, rfl, -⟩ pass' hmem
    rcases List.mem_append.1 hmem with hold | hnew
    · exact hs pass' hold
    · rw [List.mem_singleton.1 hnew]
      exact hpass
  · rintro _ t ⟨-, hpasses⟩ pass hmem
    exact hs pass (hpasses ▸ hmem)

theorem keeps_signPasses {I : State → Prop} {masterFp : Bytes}
    (h : ∀ passes, Keeps I (signPass R chain device masterFp passes)) : ∀ fuel p passes : ℕ,
    Keeps I (signPasses R chain device masterFp fuel p passes)
  | 0, _, _ => keeps_pure _
  | fuel + 1, p, passes => by
    unfold signPasses
    split_ifs
    · exact (h passes).bind fun n => keeps_signPasses h fuel (p + 1) n
    · exact keeps_pure _

/-- A call preserves what each of its passes preserves. -/
theorem keeps_signTx {I : State → Prop} (registeredDescriptors : Bool)
    (h : ∀ masterFp passes, Keeps I (signPass R chain device masterFp passes)) :
    Keeps I (signTx R chain device registeredDescriptors) := by
  refine keeps_adaptExcept ?_
  split_ifs
  · exact keeps_throw _
  refine (keeps_ofExcept _).bind fun _ => ?_
  refine (keeps_ofExcept _).bind fun _ => ?_
  refine (keeps_ofExcept _).bind fun _ => ?_
  exact keeps_get.bind fun s => keeps_signPasses (h _) _ _ _

/-- The passes of a call, however it ends. -/
theorem passOf_signTx {registeredDescriptors : Bool} {psbt : PSBT} {pass : Pass}
    (h : pass ∈ ((signTx R chain device registeredDescriptors).after { psbt }).passes) :
    PassOf R chain (supportsExternal device) pass :=
  Triple.after (keeps_signTx registeredDescriptors keeps_signPass) (fun _ hmem => absurd hmem List.not_mem_nil) pass h

/-! ### Signature kinds -/

theorem PassOf.mem_toIgnore_iff {pass : Pass} (h : PassOf R chain external pass) {k : ℕ}
    {psbtIn : PartiallySignedInput} (hin : pass.psbt.inputs[k]? = some psbtIn) :
    k ∈ toIgnore pass.streamed ↔ SignatureIgnored pass.masterFp psbtIn := by
  have hverdict := prepareInput_verdict R chain external pass.masterFp pass.psbt.xpub k psbtIn
  have hpass := prepareInputs_isOk_iff.1 ⟨_, h.streamed⟩ psbtIn (List.mem_of_getElem? hin)
  obtain ⟨found, hfound⟩ := hverdict.isOk_iff.2 hpass
  rw [← hverdict.returned hfound]
  unfold toIgnore
  simp only [List.mem_map, List.mem_filter]
  constructor
  · rintro ⟨st, ⟨hst, hignored⟩, hnum⟩
    obtain ⟨i, psbtIn', hin', hprep⟩ := (mem_prepareInputs h.streamed st).1 hst
    obtain rfl : 0 + i = k := (prepareInput_eq_some hprep).inputNum_eq.symm.trans hnum
    rw [Nat.zero_add] at hin
    obtain rfl := Option.some.inj (hin.symm.trans hin')
    rw [hprep] at hfound
    exact ⟨st, (Except.ok.inj hfound).symm, hignored⟩
  · rintro ⟨st, rfl, hignored⟩
    refine ⟨st, ⟨(mem_prepareInputs h.streamed st).2 ⟨k, psbtIn, hin, ?_⟩, hignored⟩, ?_⟩
    · rw [Nat.zero_add]
      exact hfound
    · exact (prepareInput_eq_some hfound).inputNum_eq

/-- The input that gets the signature at a place. -/
theorem PassOf.input_after {pass : Pass} (h : PassOf R chain external pass) {k : ℕ}
    {before : PartiallySignedInput} {sig : Bytes} (hin : pass.psbt.inputs[k]? = some before)
    (hsig : pass.call.2[k]? = some sig) :
    pass.psbtAfter.inputs[k]? = some (if k ∈ toIgnore pass.streamed then before
      else storeSignature pass.masterFp before sig) := by
  rw [h.psbtAfter, storeSignatures_getElem?, hin, hsig, Nat.zero_add]
  rfl

theorem rightKind_refl (scriptType : InputScriptType) (psbtIn : PartiallySignedInput) :
    RightKind scriptType psbtIn psbtIn := ⟨fun _ => rfl, fun _ => rfl⟩

/-- The type an input is sent with and the place its signature is stored at are
right exactly for a program that has a type, where no field of the input that
gets the signature draws it to the wrong place. -/
theorem signTx_signatureKinds (R : Runtime) (chain : Chain) (device : Device)
    (registeredDescriptors : Bool) (psbt : PSBT) (pass : Pass)
    (hpass : pass ∈ ((signTx R chain device registeredDescriptors).after { psbt }).passes)
    (k : ℕ) (st : Streamed) (hst : pass.streamed[k]? = some st) (hkept : st.ignored = false) :
    ∃ psbtIn spent sig before after, SignedAt pass k st psbtIn spent sig before after ∧
      (RightType spent psbtIn.redeemScript st.txinputtype.scriptType ∧
          RightKind st.txinputtype.scriptType before after ↔
        TypedProgram spent psbtIn.redeemScript ∧
          (SignatureIgnored pass.masterFp before ∨
            UncrossedFields pass.masterFp (PaysTaproot spent) sig before)) := by
  have h := passOf_signTx hpass
  have hk := (List.getElem?_eq_some_iff.1 hst).1
  obtain ⟨i, psbtIn, hin, hprep⟩ := (mem_prepareInputs h.streamed st).1 (List.mem_of_getElem? hst)
  have hprepared := prepareInput_eq_some hprep
  obtain ⟨spent, hspent, htype⟩ := hprepared.rightType_iff hkept
  have hsig : k < pass.call.2.length := h.returned.symm ▸ hk
  have hbefore : k < pass.psbt.inputs.length := hk.trans_le (prepareInputs_length h.streamed)
  have hget := h.input_after (List.getElem?_eq_getElem hbefore) (List.getElem?_eq_getElem hsig)
  refine ⟨psbtIn, spent, _, _, _,
    ⟨?_, ?_, hspent, List.getElem?_eq_getElem hsig, List.getElem?_eq_getElem hbefore, hget⟩, ?_⟩
  · rw [h.sent, List.getElem?_map, hst]
    rfl
  · rw [hprepared.inputNum_eq, Nat.zero_add, hin]
  · rw [htype, ← h.mem_toIgnore_iff (List.getElem?_eq_getElem hbefore)]
    refine and_congr_right fun hprogram => ?_
    split_ifs with hmem
    · exact iff_of_true (rightKind_refl _ _) (Or.inl hmem)
    · rw [rightKind_storeSignature_iff, (htype.2 hprogram).taproot]
      simp only [hmem, false_or]

/-! ### An input with one key of the device -/

/-- An input that spends a P2WPKH output. -/
def p2wpkhInput (tapInternalKey : Bytes) : PartiallySignedInput :=
  { version := 2, prevTxid := List.replicate 32 7, prevOut := some 1, sequence := some 0xfffffffd
    witnessUtxo := some { nValue := 5, scriptPubKey := [0x00, 0x14] ++ List.replicate 20 8 }
    hdKeypaths := Dict.set ∅ (2 :: List.replicate 32 9) ⟨[1, 2, 3, 4], [0]⟩
    tapInternalKey }

def p2wpkhSample (tapInternalKey : Bytes) : PSBT :=
  { version := 2, explicitVersion := true, txVersion := some 2
    inputs := [p2wpkhInput tapInternalKey] }

/-- A device that returns the same signature for every input. -/
def sampleDevice : Device where
  checkUnlocked := .ok ()
  masterXpub := .ok (Base58.encode
    (ExtendedKey.MAINNET_PUBLIC ++ [0x01, 0x01, 0x02, 0x03, 0x04] ++ List.replicate 73 0))
  model := "T"
  version := (2, 4, 3)
  sign _ _ := .ok fun _ => [0x30]

def samplePasses (psbt : PSBT) : List Pass :=
  ((signTx Runtime.zeros .main sampleDevice false).after { psbt }).passes

/-- Without fields of another kind the signature is kept as an ECDSA signature. -/
theorem signTx_signatureKinds_p2wpkh :
    ∃ pass ∈ samplePasses (p2wpkhSample []), ∃ st psbtIn spent sig before after,
      SignedAt pass 0 st psbtIn spent sig before after ∧
        RightType spent psbtIn.redeemScript st.txinputtype.scriptType ∧
        RightKind st.txinputtype.scriptType before after := by
  obtain ⟨pass, hmem, hpass⟩ := exists_of_map_eq_singleton (b := (p2wpkhSample [], [(0, false)]))
    (f := fun pass => (pass.psbt, pass.streamed.map fun st => (st.inputNum, st.ignored)))
    (l := samplePasses (p2wpkhSample [])) (by decide +kernel)
  simp only [Prod.mk.injEq, List.map_eq_singleton_iff] at hpass
  obtain ⟨hpsbt, st, hst, hnum, hkept⟩ := hpass
  obtain ⟨psbtIn, spent, sig, before, after, hsigned, hiff⟩ :=
    signTx_signatureKinds Runtime.zeros .main sampleDevice false (p2wpkhSample []) pass hmem 0 st
      (by rw [hst]; rfl) hkept
  refine ⟨pass, hmem, st, psbtIn, spent, sig, before, after, hsigned, hiff.2 ?_⟩
  obtain rfl : p2wpkhInput [] = psbtIn := by
    have hinput := hsigned.input
    rw [hpsbt, hnum] at hinput
    exact Option.some.inj hinput
  obtain rfl : p2wpkhInput [] = before := by
    have hbefore := hsigned.before
    rw [hpsbt] at hbefore
    exact Option.some.inj hbefore
  obtain rfl := Option.some.inj hsigned.spent
  have hprog : WitnessProgram ([0x00, 0x14] ++ List.replicate 20 8) 0 (List.replicate 20 8) :=
    ⟨rfl, by decide, by decide, by decide⟩
  refine ⟨fun v prog hw => Or.inl (hw.unique hprog).1, Or.inr ⟨?_, fun _ => Or.inl rfl⟩⟩
  rintro ⟨prog, hw, -⟩
  exact absurd (hw.unique hprog).1 Nat.one_ne_zero

/-- With an internal key the signature for a P2WPKH output becomes `tap_key_sig`
as well. -/
theorem signTx_crossed :
    ((p2wpkhSample (List.replicate 32 6)).serialize Runtime.zeros >>=
        PSBT.deserialize Runtime.zeros {}) = .ok (p2wpkhSample (List.replicate 32 6)) ∧
      ∃ pass ∈ samplePasses (p2wpkhSample (List.replicate 32 6)), ∃ st before after,
        pass.streamed[0]? = some st ∧ st.ignored = false ∧
        st.txinputtype.scriptType = .SPENDWITNESS ∧ pass.psbt.inputs[0]? = some before ∧
        pass.psbtAfter.inputs[0]? = some after ∧ before.tapKeySig = [] ∧ after.tapKeySig = [0x30] ∧
        ¬RightKind st.txinputtype.scriptType before after := by
  refine ⟨by decide +kernel, ?_⟩
  obtain ⟨pass, hmem, hpass⟩ := exists_of_map_eq_singleton
    (f := fun pass => (pass.streamed.map fun st => (st.ignored, st.txinputtype.scriptType),
      pass.psbt.inputs.map fun psbtIn => psbtIn.tapKeySig,
      pass.psbtAfter.inputs.map fun psbtIn => psbtIn.tapKeySig))
    (l := samplePasses (p2wpkhSample (List.replicate 32 6)))
    (b := ([(false, .SPENDWITNESS)], [[]], [[0x30]])) (by decide +kernel)
  simp only [Prod.mk.injEq, List.map_eq_singleton_iff] at hpass
  obtain ⟨⟨st, hst, hkept, htype⟩, ⟨before, hbefore, hempty⟩, after, hafter, hsig⟩ := hpass
  refine ⟨pass, hmem, st, before, after, by rw [hst]; rfl, hkept, htype, by rw [hbefore]; rfl,
    by rw [hafter]; rfl, hempty, hsig, fun h => ?_⟩
  have hsame := h.ecdsa (by rw [htype]; decide)
  rw [hempty, hsig] at hsame
  cases hsame

end TrezorClient

end Hwi
