import Hwi.Lib.Indexed
import Hwi.Proofs.TrezorSign

/-! How many passes a signing call with a Trezor makes, and that each key of the
device signs once. What decides how an input is signed does not change from one
pass to the next; the keys without a signature become fewer by one. -/

namespace Hwi

open Trezor Procedure

namespace TrezorClient

variable {R : Runtime} {chain : Chain} {device : Device} {external : Bool} {masterFp : Bytes}
  {xpub : Dict Bytes KeyOriginInfo}

/-! ### The keys without a signature -/

theorem nodup_unsignedKeys (masterFp : Bytes) (psbtIn : PartiallySignedInput) :
    ((unsignedKeys masterFp psbtIn).map Prod.fst).Nodup :=
  psbtIn.hdKeypaths.nodup.sublist (List.filter_sublist.map Prod.fst)

/-- Storing a signature takes the first of the keys without one. -/
theorem unsignedKeys_storeSignature (psbtIn : PartiallySignedInput) (sig : Bytes) :
    unsignedKeys masterFp (storeSignature masterFp psbtIn sig) =
      (unsignedKeys masterFp psbtIn).tail := by
  rw [storeSignature_eq]
  cases hkeys : unsignedKeys masterFp psbtIn with
  | nil =>
    rw [List.head?_nil, List.tail_nil]
    exact hkeys
  | cons e rest =>
    have hnodup := nodup_unsignedKeys masterFp psbtIn
    rw [hkeys, List.map_cons, List.nodup_cons] at hnodup
    have hfilter : (e :: rest).filter (fun e' => e'.1 ≠ e.1) = rest := by
      rw [List.filter_cons_of_neg (by simp)]
      refine List.filter_eq_self.2 fun e' he' => ?_
      rw [decide_eq_true_iff]
      exact fun heq => hnodup.1 (heq ▸ List.mem_map_of_mem he')
    rw [List.head?_cons, List.tail_cons, ← hfilter, ← hkeys]
    unfold unsignedKeys
    rw [List.filter_filter]
    refine List.filter_congr fun e' _ => ?_
    simp only [Dict.contains_eq_isSome, Dict.get?_set]
    by_cases heq : e'.1 = e.1
    · simp [heq]
    · simp [heq]

theorem unsignedKeys_eq_nil_iff {psbtIn : PartiallySignedInput} :
    unsignedKeys masterFp psbtIn = [] ↔ ∀ key origin, psbtIn.hdKeypaths.get? key = some origin →
      origin.fingerprint = masterFp → psbtIn.partialSigs.contains key = true := by
  unfold unsignedKeys
  rw [List.filter_eq_nil_iff]
  constructor
  · intro h key origin hget hfp
    have hnot := h (key, origin) (Dict.get?_eq_some_iff.1 hget)
    simpa [hfp] using hnot
  · rintro h ⟨key, origin⟩ hmem
    have hcontains := h key origin (Dict.get?_eq_some_iff.2 hmem)
    simpa using hcontains

/-- A partial signature that is new belongs to the first key without one. -/
theorem new_partialSig {psbtIn : PartiallySignedInput} {sig key v : Bytes}
    (hnone : psbtIn.partialSigs.get? key = none)
    (hnew : (storeSignature masterFp psbtIn sig).partialSigs.get? key = some v) :
    ∃ e, (unsignedKeys masterFp psbtIn).head? = some e ∧ e.1 = key ∧ v = sig ++ [0x01] := by
  rw [storeSignature_eq] at hnew
  cases hhead : (unsignedKeys masterFp psbtIn).head? with
  | none =>
    rw [hhead] at hnew
    rw [hnone] at hnew
    cases hnew
  | some e =>
    simp only [hhead, Dict.get?_set] at hnew
    split_ifs at hnew with heq
    · exact ⟨e, rfl, heq.symm, (Option.some.inj hnew).symm⟩
    · rw [hnone] at hnew
      cases hnew

/-- No partial signature is changed or removed. -/
theorem kept_storeSignature {psbtIn : PartiallySignedInput} {sig key v : Bytes}
    (h : psbtIn.partialSigs.get? key = some v) :
    (storeSignature masterFp psbtIn sig).partialSigs.get? key = some v := by
  rw [storeSignature_eq]
  cases hhead : (unsignedKeys masterFp psbtIn).head? with
  | none => exact h
  | some e =>
    have hnone := get?_of_mem_unsignedKeys (List.mem_of_head? hhead)
    simp only [Dict.get?_set]
    rw [if_neg]
    · exact h
    · rintro rfl
      rw [hnone] at h
      cases h

/-! ### What does not change between passes -/

/-- What the scripts of an input say: the type it is signed with, and whether
they are ones to ignore. -/
structure Classified (R : Runtime) (external : Bool) (xpub : Dict Bytes KeyOriginInfo)
    (psbtIn : PartiallySignedInput) (scriptType : InputScriptType) (ignored : Bool) : Prop where
  exists_spend : ∃ spent spend tx tx', spentOutput psbtIn = some spent ∧
    findSpend psbtIn spent = some spend ∧ tx.scriptType = spend.scriptType ∧
    checkScript R external xpub psbtIn.hdKeypaths spent spend tx = .ok (tx', ignored) ∧
    tx'.scriptType = scriptType

theorem checkScript_congr {hdKeypaths : Dict Bytes KeyOriginInfo} {utxo : CTxOut} {spend : Spend}
    {tx₁ tx₁' tx₂ tx₂' : TxInputType} {ignored₁ ignored₂ : Bool}
    (htype : tx₁.scriptType = tx₂.scriptType)
    (h₁ : checkScript R external xpub hdKeypaths utxo spend tx₁ = .ok (tx₁', ignored₁))
    (h₂ : checkScript R external xpub hdKeypaths utxo spend tx₂ = .ok (tx₂', ignored₂)) :
    tx₁'.scriptType = tx₂'.scriptType ∧ ignored₁ = ignored₂ := by
  unfold checkScript at h₁ h₂
  obtain ⟨found, hfound, h₁⟩ := bind_eq_ok.1 h₁
  rw [hfound, ok_bind] at h₂
  cases found with
  | none =>
    simp only at h₁ h₂
    split_ifs at h₁ h₂
    all_goals
      cases h₁
      cases h₂
      exact ⟨htype, rfl⟩
  | some multisig =>
    simp only at h₁ h₂
    split_ifs at h₁ h₂
    all_goals
      cases h₁
      cases h₂
    · exact ⟨rfl, rfl⟩
    all_goals exact ⟨htype, rfl⟩

theorem Classified.unique {psbtIn : PartiallySignedInput} {T₁ T₂ : InputScriptType} {b₁ b₂ : Bool}
    (h₁ : Classified R external xpub psbtIn T₁ b₁) (h₂ : Classified R external xpub psbtIn T₂ b₂) :
    T₁ = T₂ ∧ b₁ = b₂ := by
  obtain ⟨spent, spend, tx₁, tx₁', hspent, hspend, htype₁, hcheck₁, rfl⟩ := h₁
  obtain ⟨spent', spend', tx₂, tx₂', hspent', hspend', htype₂, hcheck₂, rfl⟩ := h₂
  obtain rfl := Option.some.inj (hspent.symm.trans hspent')
  obtain rfl := Option.some.inj (hspend.symm.trans hspend')
  exact checkScript_congr (htype₁.trans htype₂.symm) hcheck₁ hcheck₂

/-- Signatures do not change what the scripts say. -/
theorem classified_frame {psbtIn : PartiallySignedInput} {T : InputScriptType} {b : Bool}
    (partialSigs : Dict Bytes Bytes) (tapKeySig : Bytes) :
    Classified R external xpub { psbtIn with partialSigs, tapKeySig } T b ↔
      Classified R external xpub psbtIn T b := ⟨fun ⟨h⟩ => ⟨h⟩, fun ⟨h⟩ => ⟨h⟩⟩

theorem searchSchnorr_ourKeys {tapInternalKey : Bytes} :
    ∀ (items : List (Bytes × OrderedSet Bytes × KeyOriginInfo)) (k : KeySearch),
      (searchSchnorr masterFp tapInternalKey items k).ourKeys ≤ k.ourKeys + 1
  | [], k => Nat.le_succ _
  | (key, leafHashes, origin) :: rest, k => by
    unfold searchSchnorr
    split_ifs
    · exact le_rfl
    · exact searchSchnorr_ourKeys rest k

/-- How a streamed input is signed: not at all where its scripts are ones to
ignore, otherwise with the first key without a signature. -/
theorem Prepared.cases {inputNum : ℕ} {psbtIn : PartiallySignedInput} {st : Streamed}
    (h : Prepared R chain external masterFp xpub inputNum psbtIn st) :
    ∃ T ignored, Classified R external xpub psbtIn T ignored ∧
      if ignored then st.ignored = true ∧ st.ourKeys = 0
      else if T = .SPENDTAPROOT then
        st.ourKeys ≤ 1 ∧ (st.ignored = false → st.txinputtype.scriptType = .SPENDTAPROOT)
      else st.ourKeys = (unsignedKeys masterFp psbtIn).length ∧
        match (unsignedKeys masterFp psbtIn).head? with
        | none => st.ignored = true
        | some e => st.ecdsa ∧ st.txinputtype.addressN = e.2.path := by
  obtain ⟨spent, spend, tx, tx', ignored, hspent, hspend, htype, hcheck, hst⟩ := h
  refine ⟨tx'.scriptType, ignored, ⟨spent, spend, tx, tx', hspent, hspend, htype, hcheck, rfl⟩, ?_⟩
  cases ignored with
  | true =>
    simp only [if_true] at hst ⊢
    rw [hst]
    exact ⟨rfl, rfl⟩
  | false =>
    simp only [Bool.false_eq_true, if_false] at hst ⊢
    have hkey := (prepareKey_eq_ok hst).2
    split_ifs with hT
    · have hkeys : (searchKey masterFp psbtIn tx'.scriptType).ourKeys ≤ 1 := by
        unfold searchKey
        rw [if_pos hT]
        exact searchSchnorr_ourKeys _ _
      cases hfound : (searchKey masterFp psbtIn tx'.scriptType).found with
      | none =>
        rw [hfound] at hkey
        obtain ⟨hignored, hours⟩ := hkey
        exact ⟨by omega, fun hkept => by rw [hignored] at hkept; cases hkept⟩
      | some addressN =>
        rw [hfound] at hkey
        obtain ⟨-, htx, hours⟩ := hkey
        exact ⟨hours ▸ hkeys, fun _ => by rw [htx]; exact hT⟩
    · obtain ⟨hfound, hkeys⟩ := searchKey_ecdsa masterFp psbtIn hT
      rw [hfound] at hkey
      cases hhead : (unsignedKeys masterFp psbtIn).head? with
      | none =>
        rw [hhead] at hkey
        obtain ⟨hignored, hours⟩ := hkey
        rw [List.head?_eq_none_iff] at hhead
        rw [hhead] at hkeys ⊢
        rw [hkeys] at hours
        exact ⟨or_self_iff.1 hours, hignored⟩
      | some e =>
        rw [hhead] at hkey
        obtain ⟨hkept, htx, hours⟩ := hkey
        refine ⟨hours.trans hkeys, ⟨hkept, ?_⟩, by rw [htx]⟩
        rw [htx]
        exact hT

/-! ### One pass over inputs that are all streamed -/

theorem prepareInput_ne_none {inputNum : ℕ} {psbtIn : PartiallySignedInput}
    (hstream : Streamable psbtIn) :
    prepareInput R chain external masterFp xpub inputNum psbtIn ≠ .ok none := by
  obtain ⟨spent, hspent, hredeem, hwitness⟩ := hstream
  intro h
  unfold prepareInput at h
  cases hout : psbtIn.prevOut with
  | none => rw [hout] at h; cases h
  | some prevOut =>
    cases hseq : psbtIn.sequence with
    | none => rw [hout, hseq] at h; cases h
    | some sequence =>
      rw [hout, hseq] at h
      obtain ⟨found, hfound, h⟩ := bind_eq_ok.1 h
      cases found with
      | none =>
        rw [findUtxo_eq_ok hout hfound] at hspent
        cases hspent
      | some spent' =>
        obtain rfl := Option.some.inj (hspent.symm.trans (findUtxo_eq_ok hout hfound))
        simp only [findSpend_of_there ⟨hredeem, hwitness⟩] at h
        obtain ⟨⟨tx', ignored⟩, _, h⟩ := bind_eq_ok.1 h
        cases ignored with
        | true => cases h
        | false =>
          obtain ⟨st', _, h⟩ := bind_eq_ok.1 h
          cases h

/-- Every input is streamed at its place. -/
theorem prepareInputs_getElem? : ∀ {n : ℕ} {inputs : List PartiallySignedInput}
    {streamed : List Streamed},
    prepareInputs R chain external masterFp xpub n inputs = .ok streamed →
      (∀ psbtIn ∈ inputs, Streamable psbtIn) → ∀ {k : ℕ} {psbtIn : PartiallySignedInput},
        inputs[k]? = some psbtIn → ∃ st, streamed[k]? = some st ∧
          prepareInput R chain external masterFp xpub (n + k) psbtIn = .ok (some st)
  | n, [], streamed, h, hstream, k, psbtIn, hin => by cases hin
  | n, psbtIn :: rest, streamed, h, hstream, k, psbtIn', hin => by
    obtain ⟨first, hfirst, h⟩ := bind_eq_ok.1 h
    obtain ⟨more, hmore, h⟩ := bind_eq_ok.1 h
    cases h
    cases first with
    | none => exact absurd hfirst (prepareInput_ne_none (hstream psbtIn List.mem_cons_self))
    | some st =>
      cases k with
      | zero =>
        cases hin
        exact ⟨st, rfl, hfirst⟩
      | succ k =>
        obtain ⟨st', hst', hprep⟩ := prepareInputs_getElem? hmore
          (fun p hp => hstream p (List.mem_cons_of_mem psbtIn hp)) hin
        refine ⟨st', hst', ?_⟩
        rw [← hprep, Nat.add_assoc, Nat.add_comm 1 k]

/-- What a pass does with an input. -/
structure PassAt (R : Runtime) (chain : Chain) (external : Bool) (pass : Pass) (k : ℕ)
    (st : Streamed) (sig : Bytes) (before after : PartiallySignedInput) : Prop where
  streamed : pass.streamed[k]? = some st
  inputNum : st.inputNum = k
  prepared : Prepared R chain external pass.masterFp pass.psbt.xpub k before st
  returned : pass.call.2[k]? = some sig
  after : after = if st.ignored = true then before else storeSignature pass.masterFp before sig

theorem PassOf.passAt {pass : Pass} (h : PassOf R chain external pass)
    (hstream : ∀ psbtIn ∈ pass.psbt.inputs, Streamable psbtIn) :
    Indexed (fun k before after => ∃ st sig, PassAt R chain external pass k st sig before after)
      pass.psbt.inputs pass.psbtAfter.inputs := by
  intro k
  cases hin : pass.psbt.inputs[k]? with
  | none =>
    rw [h.psbtAfter, storeSignatures_getElem?, hin]
    exact .none
  | some before =>
    obtain ⟨st, hst, hprep⟩ := prepareInputs_getElem? h.streamed hstream hin
    rw [Nat.zero_add] at hprep
    have hprepared := prepareInput_eq_some hprep
    have hk : k < pass.call.2.length := h.returned.symm ▸ (List.getElem?_eq_some_iff.1 hst).1
    rw [h.input_after hin (List.getElem?_eq_getElem hk)]
    refine .some ⟨st, _, hst, hprepared.inputNum_eq, hprepared, List.getElem?_eq_getElem hk, ?_⟩
    have hiff : k ∈ toIgnore pass.streamed ↔ st.ignored = true := by
      have hverdict := prepareInput_verdict R chain external pass.masterFp pass.psbt.xpub k before
      rw [h.mem_toIgnore_iff hin, ← hverdict.returned hprep]
      simp
    simp only [hiff]

/-! ### A run of passes -/

/-- An input before a run and after some passes of it. -/
structure SignedTimes (R : Runtime) (external : Bool) (xpub : Dict Bytes KeyOriginInfo)
    (masterFp : Bytes) (n : ℕ) (before now : PartiallySignedInput) : Prop where
  frame : now = { before with partialSigs := now.partialSigs, tapKeySig := now.tapKeySig }
  kept : ∀ key sig, before.partialSigs.get? key = some sig → now.partialSigs.get? key = some sig
  unowned : unsignedKeys masterFp before = [] → now.partialSigs = before.partialSigs
  unsigned : ∀ T, Classified R external xpub before T false → T ≠ .SPENDTAPROOT →
    unsignedKeys masterFp now = (unsignedKeys masterFp before).drop n

theorem SignedTimes.refl (psbtIn : PartiallySignedInput) :
    SignedTimes R external xpub masterFp 0 psbtIn psbtIn :=
  ⟨rfl, fun _ _ h => h, fun _ => rfl, fun _ _ _ => rfl⟩

theorem SignedTimes.classified_iff {n : ℕ} {before now : PartiallySignedInput}
    {T : InputScriptType} {ignored : Bool}
    (h : SignedTimes R external xpub masterFp n before now) :
    Classified R external xpub now T ignored ↔ Classified R external xpub before T ignored := by
  rw [h.frame]
  exact classified_frame _ _

theorem SignedTimes.streamable {n : ℕ} {before now : PartiallySignedInput}
    (h : SignedTimes R external xpub masterFp n before now) (hstream : Streamable before) :
    Streamable now := by
  rw [h.frame]
  exact hstream

theorem SignedTimes.step {n k : ℕ} {before now : PartiallySignedInput} {st : Streamed}
    (h : SignedTimes R external xpub masterFp n before now)
    (hprep : Prepared R chain external masterFp xpub k now st) (sig : Bytes) :
    SignedTimes R external xpub masterFp (n + 1) before
      (if st.ignored = true then now else storeSignature masterFp now sig) := by
  split_ifs with hignored
  · refine ⟨h.frame, h.kept, h.unowned, fun T hclass hT => ?_⟩
    -- an input whose scripts are fine is ignored only when no key is left
    obtain ⟨T', ignored, hclass', hcases⟩ := hprep.cases
    obtain ⟨rfl, rfl⟩ := hclass.unique (h.classified_iff.1 hclass')
    rw [if_neg Bool.false_ne_true, if_neg hT] at hcases
    have hkeys : unsignedKeys masterFp now = [] := by
      cases hhead : (unsignedKeys masterFp now).head? with
      | none => exact List.head?_eq_none_iff.1 hhead
      | some e =>
        rw [hhead] at hcases
        rw [hcases.2.1.1] at hignored
        cases hignored
    have hdrop := h.unsigned T hclass hT
    rw [← List.drop_drop, ← hdrop, hkeys, List.drop_nil]
  · refine ⟨?_, fun key v hv => kept_storeSignature (h.kept key v hv), fun hnone => ?_,
      fun T hclass hT => ?_⟩
    · rw [storeSignature_eq, h.frame]
    · have hsigs := h.unowned hnone
      have hnow : unsignedKeys masterFp now = [] := by
        rw [← hnone, h.frame, hsigs]
        rfl
      rw [storeSignature_eq, hnow]
      exact hsigs
    · rw [unsignedKeys_storeSignature, h.unsigned T hclass hT, List.tail_drop]

theorem streamable_of_signedTimes {n : ℕ} {before now : List PartiallySignedInput}
    (h : Indexed (fun _ => SignedTimes R external xpub masterFp n) before now)
    (hstream : ∀ psbtIn ∈ before, Streamable psbtIn) : ∀ psbtIn ∈ now, Streamable psbtIn := by
  intro psbtIn hmem
  obtain ⟨i, hi⟩ := List.mem_iff_getElem?.1 hmem
  obtain ⟨psbtIn', hget, hsigned⟩ := h.right hi
  exact hsigned.streamable (hstream psbtIn' (List.mem_of_getElem? hget))

/-- After some passes every input is signed as often. -/
theorem Passes.signedTimes {psbt now : PSBT} {passes : List Pass}
    (h : Passes masterFp psbt passes now) (hmade : ∀ pass ∈ passes, PassOf R chain external pass)
    (hstream : ∀ psbtIn ∈ psbt.inputs, Streamable psbtIn) :
    now.xpub = psbt.xpub ∧
      Indexed (fun _ => SignedTimes R external psbt.xpub masterFp passes.length) psbt.inputs
        now.inputs := by
  induction h with
  | nil => exact ⟨rfl, Indexed.refl fun _ psbtIn _ => SignedTimes.refl psbtIn⟩
  | @snoc passes pass h hfp ih =>
    obtain ⟨hxpub, hinputs⟩ := ih (fun pass hmem => hmade pass (List.mem_append_left _ hmem))
    have hpass := hmade pass (List.mem_append_right _ List.mem_cons_self)
    refine ⟨by rw [hpass.psbtAfter, hxpub], ?_⟩
    have hinputs' := hpass.passAt (streamable_of_signedTimes hinputs hstream)
    refine (hinputs.comp hinputs').mono fun k before after hk => ?_
    obtain ⟨now, hsigned, st, sig, hat⟩ := hk
    have hprep := hat.prepared
    rw [hxpub, hfp] at hprep
    rw [hat.after, hfp, List.length_append]
    exact hsigned.step hprep sig

/-- The passes before one of a run. -/
theorem Passes.of_mem {psbt now : PSBT} {passes : List Pass} {pass : Pass}
    (h : Passes masterFp psbt passes now) (hmem : pass ∈ passes) :
    ∃ before, (∀ p ∈ before, p ∈ passes) ∧ Passes masterFp psbt before pass.psbt := by
  induction h with
  | nil => exact absurd hmem List.not_mem_nil
  | @snoc passes last h hfp ih =>
    rcases List.mem_append.1 hmem with hold | hnew
    · obtain ⟨before, hsub, hbefore⟩ := ih hold
      exact ⟨before, fun p hp => List.mem_append_left _ (hsub p hp), hbefore⟩
    · rw [List.mem_singleton.1 hnew]
      exact ⟨passes, fun p hp => List.mem_append_left _ hp, h⟩

theorem Passes.eq_of_nil {psbt now : PSBT} {passes : List Pass} (h : Passes masterFp psbt passes now)
    (hnil : passes = []) : now = psbt := by
  cases h with
  | nil => rfl
  | snoc h hfp => exact absurd hnil (List.append_ne_nil_of_right_ne_nil _ (List.cons_ne_nil _ _))

theorem Passes.head {psbt now : PSBT} {passes : List Pass} {first : Pass}
    (h : Passes masterFp psbt passes now) (hfirst : passes.head? = some first) :
    first.psbt = psbt ∧ first.masterFp = masterFp := by
  induction h with
  | nil => cases hfirst
  | @snoc passes pass h hfp ih =>
    cases passes with
    | nil =>
      cases hfirst
      exact ⟨h.eq_of_nil rfl, hfp⟩
    | cons first' rest => exact ih hfirst

/-! ### The number of passes -/

theorem foldl_max_le_iff {α : Type} {f : α → ℕ} {l : List α} {n c : ℕ} :
    l.foldl (fun n a => max n (f a)) n ≤ c ↔ n ≤ c ∧ ∀ a ∈ l, f a ≤ c := by
  induction l generalizing n with
  | nil => simp
  | cons a l ih =>
    rw [List.foldl_cons, ih, max_le_iff, and_assoc]
    simp only [List.forall_mem_cons]

/-- The number of passes after the first one. -/
def passCount (streamed : List Streamed) : ℕ :=
  streamed.foldl (fun passes st => max passes st.ourKeys) 1

theorem one_le_passCount (streamed : List Streamed) : 1 ≤ passCount streamed :=
  (foldl_max_le_iff.1 le_rfl).1

theorem ourKeys_le_passCount {streamed : List Streamed} {st : Streamed} (h : st ∈ streamed) :
    st.ourKeys ≤ passCount streamed := (foldl_max_le_iff.1 le_rfl).2 st h

theorem Prepared.ourKeys_eq {inputNum : ℕ} {psbtIn : PartiallySignedInput} {st : Streamed}
    {T : InputScriptType} (h : Prepared R chain external masterFp xpub inputNum psbtIn st)
    (hclass : Classified R external xpub psbtIn T false) (hT : T ≠ .SPENDTAPROOT) :
    st.ourKeys = (unsignedKeys masterFp psbtIn).length := by
  obtain ⟨T', ignored, hclass', hcases⟩ := h.cases
  obtain ⟨rfl, rfl⟩ := hclass.unique hclass'
  rw [if_neg Bool.false_ne_true, if_neg hT] at hcases
  exact hcases.1

/-- An input counts the keys that are to sign it, or it counts for one at most. -/
theorem Prepared.ourKeys_cases {inputNum : ℕ} {psbtIn : PartiallySignedInput} {st : Streamed}
    (h : Prepared R chain external masterFp xpub inputNum psbtIn st) :
    (∃ T, Classified R external xpub psbtIn T false ∧ T ≠ .SPENDTAPROOT) ∨
      ¬st.ecdsa ∧ st.ourKeys ≤ 1 := by
  obtain ⟨T, ignored, hclass, hcases⟩ := h.cases
  cases ignored with
  | true =>
    rw [if_pos rfl] at hcases
    refine Or.inr ⟨fun hecdsa => ?_, by omega⟩
    rw [hecdsa.1] at hcases
    cases hcases.1
  | false =>
    rw [if_neg Bool.false_ne_true] at hcases
    by_cases hT : T = .SPENDTAPROOT
    · rw [if_pos hT] at hcases
      exact Or.inr ⟨fun hecdsa => hecdsa.2 (hcases.2 hecdsa.1), hcases.1⟩
    · exact Or.inl ⟨T, hclass, hT⟩

/-- No later pass finds more keys than the first one. -/
theorem PassOf.ourKeys_le {first pass : Pass} {n : ℕ} (hfirst : PassOf R chain external first)
    (hpass : PassOf R chain external pass) (hfp : pass.masterFp = first.masterFp)
    (hxpub : pass.psbt.xpub = first.psbt.xpub)
    (hstream : ∀ psbtIn ∈ first.psbt.inputs, Streamable psbtIn)
    (hinputs : Indexed
      (fun _ => SignedTimes R external first.psbt.xpub first.masterFp n) first.psbt.inputs
        pass.psbt.inputs) {st : Streamed} (hst : st ∈ pass.streamed) :
    st.ourKeys ≤ passCount first.streamed := by
  obtain ⟨k, now, hnow, hprep⟩ := (mem_prepareInputs hpass.streamed st).1 hst
  have hprepared := prepareInput_eq_some hprep
  rw [hfp, hxpub] at hprepared
  obtain ⟨before, hbefore, hsigned⟩ := hinputs.right hnow
  obtain ⟨_, _, st₀, sig, hat⟩ := (hfirst.passAt hstream).left hbefore
  have hle := ourKeys_le_passCount (List.mem_of_getElem? hat.streamed)
  rcases hprepared.ourKeys_cases with ⟨T, hclass, hT⟩ | ⟨-, hone⟩
  · have hclass₀ := hsigned.classified_iff.1 hclass
    rw [hat.prepared.ourKeys_eq hclass₀ hT] at hle
    rw [hprepared.ourKeys_eq hclass hT, hsigned.unsigned T hclass₀ hT, List.length_drop]
    exact (Nat.sub_le _ _).trans hle
  · exact hone.trans (one_le_passCount first.streamed)

/-- A call that has made some passes. -/
structure Underway (R : Runtime) (chain : Chain) (external : Bool) (masterFp : Bytes) (psbt : PSBT)
    (p passes : ℕ) (s : State) : Prop where
  run : Passes masterFp psbt s.passes s.psbt
  made : PassesMade R chain external s
  length : s.passes.length = p
  count : passes = passCount ((s.passes.head?.map fun first => first.streamed).getD [])

variable {psbt : PSBT}

theorem Underway.le_maxPasses {p passes : ℕ} {s : State}
    (h : Underway R chain external masterFp psbt p passes s) : passes ≤ maxPasses psbt := by
  rw [h.count]
  have hmax := foldl_max_le_iff (f := fun psbtIn : PartiallySignedInput => psbtIn.hdKeypaths.size)
    (l := psbt.inputs) (n := 1) |>.1 (le_refl (maxPasses psbt))
  cases hfirst : s.passes.head? with
  | none => exact hmax.1
  | some first =>
    refine foldl_max_le_iff.2 ⟨hmax.1, fun st hst => ?_⟩
    have hpass := h.made first (List.mem_of_head? hfirst)
    obtain ⟨k, before, hbefore, hprep⟩ := (mem_prepareInputs hpass.streamed st).1 hst
    rw [(h.run.head hfirst).1] at hbefore
    rcases (prepareInput_eq_some hprep).ourKeys_cases with ⟨T, hclass, hT⟩ | ⟨-, hone⟩
    · rw [(prepareInput_eq_some hprep).ourKeys_eq hclass hT]
      exact (List.length_filter_le _ _).trans (hmax.2 before (List.mem_of_getElem? hbefore))
    · exact hone.trans hmax.1

theorem triple_signPass_underway (hstream : ∀ psbtIn ∈ psbt.inputs, Streamable psbtIn) {p passes : ℕ}
    (hp : p < passes) :
    Triple (Underway R chain (supportsExternal device) masterFp psbt p passes)
      (signPass R chain device masterFp passes)
      (fun n s => Underway R chain (supportsExternal device) masterFp psbt (p + 1) n s ∧ p + 1 ≤ n)
      fun _ _ => True := by
  intro s hs
  refine (triple_signPass masterFp passes s).mono (fun _ h => h) ?_ (fun _ _ _ => trivial) s rfl
  rintro n ⟨_, _, requests⟩ ⟨pass, hpass, hfp, hpsbt, rfl, rfl, rfl⟩
  have hrun := hs.run
  rw [← hpsbt] at hrun
  refine ⟨⟨hrun.snoc hfp, ?_, ?_, ?_⟩, hp.trans_le (foldl_max_le_iff.1 le_rfl).1⟩
  · intro pass' hmem
    rcases List.mem_append.1 hmem with hold | hnew
    · exact hs.made pass' hold
    · rw [List.mem_singleton.1 hnew]
      exact hpass
  · rw [List.length_append, hs.length]
    rfl
  · have hcount := hs.count
    cases hpasses : s.passes with
    | nil =>
      rw [hpasses] at hcount
      rw [hcount]
      rfl
    | cons first rest =>
      rw [hpasses] at hcount
      rw [hcount]
      have hhead : s.passes.head? = some first := by rw [hpasses]; rfl
      obtain ⟨hfirst, hfirstFp⟩ := hs.run.head hhead
      obtain ⟨hxpub, hinputs⟩ := hrun.signedTimes hs.made hstream
      refine le_antisymm (foldl_max_le_iff.2 ⟨le_rfl, fun st hst => ?_⟩) (foldl_max_le_iff.1 le_rfl).1
      rw [← hfirst, ← hfirstFp] at hinputs
      exact (hs.made first (List.mem_of_head? hhead)).ourKeys_le hpass (hfp.trans hfirstFp.symm)
        (by rw [hxpub, hfirst]) (hfirst ▸ hstream) hinputs hst

/-- A call that returns has made as many passes as the first one has found keys. -/
theorem triple_signPasses (masterFp : Bytes) (hstream : ∀ psbtIn ∈ psbt.inputs, Streamable psbtIn) :
    ∀ fuel p passes : ℕ, maxPasses psbt ≤ p + fuel → p ≤ passes →
      Triple (Underway R chain (supportsExternal device) masterFp psbt p passes)
        (signPasses R chain device masterFp fuel p passes)
        (fun _ s => ∃ n, Underway R chain (supportsExternal device) masterFp psbt n n s)
        fun _ _ => True
  | 0, p, passes, hfuel, hp => by
    refine Triple.pure fun s hs => ⟨p, ?_⟩
    have hpasses : passes = p := le_antisymm (hs.le_maxPasses.trans hfuel) hp
    rw [hpasses] at hs
    exact hs
  | fuel + 1, p, passes, hfuel, hp => by
    unfold signPasses
    split_ifs with hlt
    · refine Triple.bind (triple_signPass_underway hstream hlt) fun n => Triple.assume fun hn => ?_
      exact triple_signPasses masterFp hstream fuel (p + 1) n (by omega) hn
    · refine Triple.pure fun s hs => ⟨p, ?_⟩
      have hpasses : passes = p := le_antisymm (not_lt.1 hlt) hp
      rw [hpasses] at hs
      exact hs

/-- What is counted are the keys that are to sign. -/
theorem PassOf.keysToSign_cases {pass : Pass} (h : PassOf R chain external pass) {st : Streamed}
    (hst : st ∈ pass.streamed) :
    keysToSign pass st = st.ourKeys ∨ keysToSign pass st ≤ 1 ∧ st.ourKeys ≤ 1 := by
  obtain ⟨k, psbtIn, hin, hprep⟩ := (mem_prepareInputs h.streamed st).1 hst
  have hprepared := prepareInput_eq_some hprep
  rw [← Nat.zero_add k, ← hprepared.inputNum_eq] at hin
  unfold keysToSign
  rw [hin]
  obtain ⟨T, ignored, hclass, hcases⟩ := hprepared.cases
  rcases hprepared.ourKeys_cases with ⟨T', hclass', hT⟩ | ⟨hnot, hone⟩
  · obtain ⟨rfl, rfl⟩ := hclass'.unique hclass
    rw [if_neg Bool.false_ne_true, if_neg hT] at hcases
    split_ifs with hecdsa
    · exact Or.inl hcases.1.symm
    · refine Or.inl ?_
      cases hhead : (unsignedKeys pass.masterFp psbtIn).head? with
      | none => rw [hcases.1, List.head?_eq_none_iff.1 hhead, List.length_nil]
      | some e =>
        rw [hhead] at hcases
        exact absurd hcases.2.1 hecdsa
  · rw [if_neg hnot]
    exact Or.inr ⟨Nat.zero_le 1, hone⟩

theorem PassOf.passCount_eq {pass : Pass} (h : PassOf R chain external pass) :
    passCount pass.streamed = pass.streamed.foldl (fun n st => max n (keysToSign pass st)) 1 := by
  refine eq_of_forall_ge_iff fun c => ?_
  unfold passCount
  rw [foldl_max_le_iff, foldl_max_le_iff]
  refine and_congr_right fun hc => forall₂_congr fun st hst => ?_
  rcases h.keysToSign_cases hst with heq | ⟨hkeys, hours⟩
  · rw [heq]
  · exact iff_of_true (hours.trans hc) (hkeys.trans hc)

theorem PassOf.credited {pass : Pass} (h : PassOf R chain external pass)
    (hstream : ∀ psbtIn ∈ pass.psbt.inputs, Streamable psbtIn) : Credited pass := by
  intro k st before after key sig hst hT hbefore hafter hnone hnew
  obtain ⟨after', hafter', st', returned, hat⟩ := (h.passAt hstream).left hbefore
  obtain rfl := Option.some.inj (hafter.symm.trans hafter')
  obtain rfl := Option.some.inj (hst.symm.trans hat.streamed)
  rw [hat.after] at hnew
  split_ifs at hnew with hignored
  · rw [hnone] at hnew
    cases hnew
  obtain ⟨e, hhead, rfl, rfl⟩ := new_partialSig hnone hnew
  obtain ⟨T, ignored, hclass, hcases⟩ := hat.prepared.cases
  cases ignored with
  | true =>
    rw [if_pos rfl] at hcases
    exact absurd hcases.1 hignored
  | false =>
    rw [Bool.not_eq_true] at hignored
    rw [if_neg Bool.false_ne_true] at hcases
    split_ifs at hcases with htap
    · exact absurd (hcases.2 hignored) hT
    · rw [hhead] at hcases
      have hmem := (List.mem_filter.1 (List.mem_of_head? hhead)).1
      refine ⟨e.2, returned, Dict.get?_eq_some_iff.2 hmem, ?_, hcases.2.2, hat.returned, rfl⟩
      rw [h.sent, List.getElem?_map, hst]
      rfl

/-! ### Every key once -/

theorem SignedTimes.keysSigned {n k : ℕ} {before after : PartiallySignedInput} {st : Streamed}
    (h : SignedTimes R external xpub masterFp n before after)
    (hprep : Prepared R chain external masterFp xpub k before st) (hn : st.ourKeys ≤ n) :
    KeysSigned masterFp st before after := by
  refine ⟨fun hecdsa => ?_, h.kept, fun hnone => h.unowned ?_⟩
  · rcases hprep.ourKeys_cases with ⟨T, hclass, hT⟩ | ⟨hnot, -⟩
    · have hnil : unsignedKeys masterFp after = [] := by
        rw [h.unsigned T hclass hT, List.drop_eq_nil_iff, ← hprep.ourKeys_eq hclass hT]
        exact hn
      rw [unsignedKeys_eq_nil_iff, h.frame] at hnil
      exact hnil
    · exact absurd hecdsa hnot
  · refine unsignedKeys_eq_nil_iff.2 fun key origin hget hfp => ?_
    exact absurd hfp (hnone (key, origin) (Dict.get?_eq_some_iff.1 hget))

theorem Underway.everyKeyOnce {n : ℕ} {s : State} (hfp : MasterFp device masterFp)
    (hstream : ∀ psbtIn ∈ psbt.inputs, Streamable psbtIn)
    (h : Underway R chain external masterFp psbt n n s) : ∃ first, EveryKeyOnce device psbt first s := by
  have hcount := h.count
  rw [← h.length] at hcount
  cases hhead : s.passes.head? with
  | none =>
    rw [List.head?_eq_none_iff.1 hhead] at hcount
    cases hcount
  | some first =>
    rw [hhead, Option.map_some, Option.getD_some] at hcount
    obtain ⟨hfirst, rfl⟩ := h.run.head hhead
    have hpass := h.made first (List.mem_of_head? hhead)
    obtain ⟨hxpub, hinputs⟩ := h.run.signedTimes h.made hstream
    have hstreamFirst : ∀ psbtIn ∈ first.psbt.inputs, Streamable psbtIn := hfirst ▸ hstream
    refine ⟨first, hfp, h.run, hhead, hcount.trans hpass.passCount_eq, ?_, ?_⟩
    · intro k before hbefore
      obtain ⟨after, hafter, hsigned⟩ := hinputs.left hbefore
      obtain ⟨_, _, st, sig, hat⟩ := (hpass.passAt hstreamFirst).left (hfirst ▸ hbefore)
      have hprep := hat.prepared
      rw [hfirst] at hprep
      refine ⟨st, after, hat.streamed, hafter, hsigned.keysSigned hprep ?_⟩
      rw [hcount]
      exact ourKeys_le_passCount (List.mem_of_getElem? hat.streamed)
    · intro pass hmem
      obtain ⟨before, hsub, hbefore⟩ := h.run.of_mem hmem
      obtain ⟨-, hinputs'⟩ := hbefore.signedTimes (fun p hp => h.made p (hsub p hp)) hstream
      exact (h.made pass hmem).credited (streamable_of_signedTimes hinputs' hstream)

/-- Of a PSBT whose inputs are all streamed, a call that returns has signed every
key of the device once, one key of each input in every pass. -/
theorem signTx_everyKeyOnce (R : Runtime) (chain : Chain) (device : Device)
    (registeredDescriptors : Bool) (psbt : PSBT)
    (hstream : ∀ psbtIn ∈ psbt.inputs, Streamable psbtIn) (s : State)
    (hrun : (signTx R chain device registeredDescriptors).run { psbt } = .ok () s) :
    ∃ first, EveryKeyOnce device psbt first s := by
  have hcall : Triple (· = { psbt }) (signTx R chain device registeredDescriptors)
      (fun _ s => ∃ first, EveryKeyOnce device psbt first s) fun _ _ => True := by
    refine Triple.adaptExcept ?_
    split_ifs
    · exact Triple.throw fun _ _ => trivial
    refine Triple.ofExcept_bind (fun _ _ => ?_) fun _ _ _ _ => trivial
    refine Triple.ofExcept_bind (fun masterKey hkey => ?_) fun _ _ _ _ => trivial
    refine Triple.ofExcept_bind (fun data hdata => ?_) fun _ _ _ _ => trivial
    refine Triple.get_bind ?_
    rintro _ rfl
    refine (triple_signPasses ((data.drop 5).take 4) hstream (maxPasses psbt) 0 1 (by omega)
      (Nat.zero_le 1)).mono ?_ ?_ fun _ _ _ => trivial
    · rintro _ rfl
      exact ⟨.nil, fun _ hmem => absurd hmem List.not_mem_nil, rfl, rfl⟩
    · rintro _ s ⟨n, hn⟩
      exact hn.everyKeyOnce ⟨masterKey, data, hkey, hdata, rfl⟩ hstream
  exact hcall.ok rfl hrun

/-! ### A 1-of-2 script with two keys of the device -/

def multisigSampleScript : Bytes :=
  [0x51, 0x21, 0x02] ++ List.replicate 32 1 ++ [0x21, 0x02] ++ List.replicate 32 2 ++ [0x52, 0xae]

def multisigInput (scriptPubKey witnessScript : Bytes) : PartiallySignedInput :=
  { version := 2, prevTxid := List.replicate 32 7, prevOut := some 1, sequence := some 0xfffffffd
    witnessUtxo := some { nValue := 5, scriptPubKey }
    witnessScript
    hdKeypaths := (Dict.set ∅ (2 :: List.replicate 32 1) ⟨[1, 2, 3, 4], [0]⟩).set
      (2 :: List.replicate 32 2) ⟨[1, 2, 3, 4], [1]⟩ }

def multisigSample (scriptPubKey witnessScript : Bytes) : PSBT :=
  { version := 2, explicitVersion := true, txVersion := some 2
    inputs := [multisigInput scriptPubKey witnessScript] }

/-- The state after a call that returns. -/
def sampleRun (psbt : PSBT) : Option State :=
  match (signTx Runtime.zeros .main sampleDevice false).run { psbt } with
  | .ok _ s => some s
  | .error _ _ => none

theorem run_of_sampleRun {psbt : PSBT} {s : State} (h : sampleRun psbt = some s) :
    (signTx Runtime.zeros .main sampleDevice false).run { psbt } = .ok () s := by
  unfold sampleRun at h
  split at h
  · rename_i hrun
    rw [hrun, Option.some.inj h]
  · cases h

/-- Behind P2WSH the script takes two passes. -/
theorem signTx_everyKeyOnce_p2wsh :
    ∃ first s, s.passes.length = 2 ∧ EveryKeyOnce sampleDevice
      (multisigSample ([0x00, 0x20] ++ List.replicate 32 8) multisigSampleScript) first s := by
  obtain ⟨s, hs, hlen⟩ := Option.map_eq_some_iff.1
    (show (sampleRun (multisigSample ([0x00, 0x20] ++ List.replicate 32 8)
      multisigSampleScript)).map (fun s => s.passes.length) = some 2 by decide +kernel)
  obtain ⟨first, hfirst⟩ := signTx_everyKeyOnce Runtime.zeros .main sampleDevice false _ (by
    intro psbtIn hmem
    rw [List.mem_singleton.1 hmem]
    exact ⟨_, rfl, by decide, by decide⟩) s (run_of_sampleRun hs)
  exact ⟨first, s, hlen, hfirst⟩

/-- Bare, the script is not one that is signed: both keys are without a signature,
but there is one pass. -/
theorem signTx_bareMultisig :
    (∀ psbtIn ∈ (multisigSample multisigSampleScript []).inputs, Streamable psbtIn) ∧
      MasterFp sampleDevice [1, 2, 3, 4] ∧
      (multisigSample multisigSampleScript []).inputs.map
        (fun psbtIn => (unsignedKeys [1, 2, 3, 4] psbtIn).length) = [2] ∧
      ∃ s, (signTx Runtime.zeros .main sampleDevice false).run
          { psbt := multisigSample multisigSampleScript [] } = .ok () s ∧
        s.passes.length = 1 ∧ s.psbt = multisigSample multisigSampleScript [] := by
  refine ⟨?_, ⟨_,
    ExtendedKey.MAINNET_PUBLIC ++ [0x01, 0x01, 0x02, 0x03, 0x04] ++ List.replicate 73 0, rfl,
    by decide +kernel, by decide⟩, by decide +kernel, ?_⟩
  · intro psbtIn hmem
    rw [List.mem_singleton.1 hmem]
    exact ⟨_, rfl, by decide, by decide⟩
  · obtain ⟨s, hs, hproj⟩ := Option.map_eq_some_iff.1
      (show (sampleRun (multisigSample multisigSampleScript [])).map
        (fun s => (s.passes.length, s.psbt)) = some (1, multisigSample multisigSampleScript []) by
        decide +kernel)
    exact ⟨s, run_of_sampleRun hs, congrArg Prod.fst hproj, congrArg Prod.snd hproj⟩

end TrezorClient

end Hwi
