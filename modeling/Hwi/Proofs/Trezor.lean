import Hwi.Format.Trezor
import Hwi.Lib.Result

/-! What the steps of a signing call with a Trezor do. -/

namespace Hwi

open Trezor Procedure

namespace TrezorClient

variable {R : Runtime} {chain : Chain} {external : Bool} {masterFp : Bytes}
  {xpub : Dict Bytes KeyOriginInfo}

/-! ### Storing a signature -/

/-- A signature is stored for the first of our keys without one, and as
`tap_key_sig` where there is an internal key but none yet. -/
theorem storeSignature_eq (psbtIn : PartiallySignedInput) (sig : Bytes) :
    storeSignature masterFp psbtIn sig = { psbtIn with
      partialSigs := match (unsignedKeys masterFp psbtIn).head? with
        | none => psbtIn.partialSigs
        | some e => psbtIn.partialSigs.set e.1 (sig ++ [0x01])
      tapKeySig :=
        if psbtIn.tapInternalKey ≠ [] ∧ psbtIn.tapKeySig = [] then sig else psbtIn.tapKeySig } := by
  unfold storeSignature unsignedKeys
  rw [List.head?_filter]
  simp only [List.length_eq_zero_iff, List.length_pos_iff]
  generalize psbtIn.hdKeypaths.items.find? _ = found
  cases found with
  | none =>
    simp only
    split_ifs <;> rfl
  | some e =>
    simp only
    split_ifs <;> rfl

theorem get?_of_mem_unsignedKeys {psbtIn : PartiallySignedInput} {e : Bytes × KeyOriginInfo}
    (h : e ∈ unsignedKeys masterFp psbtIn) : psbtIn.partialSigs.get? e.1 = none := by
  have hmem := (List.mem_filter.1 h).2
  rw [Bool.and_eq_true, Bool.not_eq_true', Dict.contains_eq_isSome] at hmem
  rw [← Option.not_isSome_iff_eq_none, hmem.2]
  exact Bool.false_ne_true

/-- A signature is kept in its place if and only if no field of the input draws
it to the other one. -/
theorem rightKind_storeSignature_iff {scriptType : InputScriptType} {psbtIn : PartiallySignedInput}
    {sig : Bytes} :
    RightKind scriptType psbtIn (storeSignature masterFp psbtIn sig) ↔
      UncrossedFields masterFp (scriptType = .SPENDTAPROOT) sig psbtIn := by
  rw [storeSignature_eq]
  have htaproot : (match (unsignedKeys masterFp psbtIn).head? with
      | none => psbtIn.partialSigs
      | some e => psbtIn.partialSigs.set e.1 (sig ++ [0x01])) = psbtIn.partialSigs ↔
      unsignedKeys masterFp psbtIn = [] := by
    cases hkeys : unsignedKeys masterFp psbtIn with
    | nil => simp
    | cons e rest =>
      simp only [List.head?_cons, reduceCtorEq, iff_false]
      intro heq
      have hget := get?_of_mem_unsignedKeys (hkeys ▸ List.mem_cons_self)
      rw [← heq, Dict.get?_set, if_pos rfl] at hget
      cases hget
  have hecdsa : (if psbtIn.tapInternalKey ≠ [] ∧ psbtIn.tapKeySig = [] then sig
      else psbtIn.tapKeySig) = psbtIn.tapKeySig ↔
      psbtIn.tapInternalKey = [] ∨ psbtIn.tapKeySig ≠ [] ∨ sig = [] := by
    split_ifs with h
    · simp [h.1, h.2]
    · rw [not_and_or, not_not] at h
      tauto
  constructor
  · rintro ⟨h1, h2⟩
    exact ⟨fun h => htaproot.1 (h1 h), fun h => hecdsa.1 (h2 h)⟩
  · rintro ⟨h1, h2⟩
    exact ⟨fun h => htaproot.2 (h1 h), fun h => hecdsa.2 (h2 h)⟩

theorem storeSignatures_getElem? (toIgnore : List ℕ) :
    ∀ (n : ℕ) (inputs : List PartiallySignedInput) (sigs : List Bytes) (k : ℕ),
      (storeSignatures masterFp toIgnore n inputs sigs)[k]? = inputs[k]?.map fun psbtIn =>
        match sigs[k]? with
        | none => psbtIn
        | some sig => if n + k ∈ toIgnore then psbtIn else storeSignature masterFp psbtIn sig
  | n, [], sigs, k => by simp [storeSignatures]
  | n, psbtIn :: rest, [], k => by simp [storeSignatures]
  | n, psbtIn :: rest, sig :: sigs, 0 => by simp [storeSignatures]
  | n, psbtIn :: rest, sig :: sigs, k + 1 => by
    simp only [storeSignatures, List.getElem?_cons_succ]
    rw [storeSignatures_getElem? toIgnore (n + 1) rest sigs k]
    simp only [Nat.add_assoc, Nat.add_comm 1 k]

/-! ### The type of an input -/

theorem not_witnessProgram_of_isP2sh {script prog : Bytes} {v : ℕ} (h : isP2sh script = true) :
    ¬WitnessProgram script v prog := by
  intro hw
  have hhead : script.head? = some 0xa9 := by rw [(eq_p2shScript h).2]; rfl
  exact absurd (hw.head_le hhead) (by decide)

theorem not_witnessProgram_of_isP2pkh {script prog : Bytes} {v : ℕ} (h : isP2pkh script = true) :
    ¬WitnessProgram script v prog := by
  intro hw
  have hhead : script.head? = some 0x76 := by rw [(eq_p2pkhScript h).2]; rfl
  exact absurd (hw.head_le hhead) (by decide)

/-- How an input is spent whose scripts are there. -/
def spendOf (psbtIn : PartiallySignedInput) (spent : CTxOut) : Spend where
  scriptcode := scriptCode psbtIn spent
  isWit := (isWitness (spendScript spent psbtIn.redeemScript)).1
  p2wsh := isP2wsh (spendScript spent psbtIn.redeemScript)
  scriptType := spendType (isP2sh spent.scriptPubKey)
    (isWitness (spendScript spent psbtIn.redeemScript)).1
    (isWitness (spendScript spent psbtIn.redeemScript)).2.1

/-- The scripts an output and a redeem script ask for. -/
def ScriptsThere (psbtIn : PartiallySignedInput) (spent : CTxOut) : Prop :=
  (isP2sh spent.scriptPubKey = true → psbtIn.redeemScript ≠ []) ∧
    (isP2wsh (spendScript spent psbtIn.redeemScript) = true → psbtIn.witnessScript ≠ [])

theorem findSpend_of_there {psbtIn : PartiallySignedInput} {spent : CTxOut}
    (h : ScriptsThere psbtIn spent) : findSpend psbtIn spent = some (spendOf psbtIn spent) := by
  obtain ⟨hredeem, hwitness⟩ := h
  unfold spendOf scriptCode
  unfold spendScript at *
  simp only [findSpend, findWitnessScript, List.length_eq_zero_iff]
  by_cases hp2sh : isP2sh spent.scriptPubKey = true
  · simp only [hp2sh, if_true] at hwitness ⊢
    rw [if_neg (hredeem hp2sh)]
    split_ifs with hwsh hnone
    · exact absurd hnone (hwitness hwsh)
    · rw [hwsh]
    · rw [Bool.not_eq_true] at hwsh
      rw [hwsh]
  · rw [Bool.not_eq_true] at hp2sh
    simp only [hp2sh, Bool.false_eq_true, if_false] at hwitness ⊢
    split_ifs with hwsh hnone
    · exact absurd hnone (hwitness hwsh)
    · rw [hwsh]
    · rw [Bool.not_eq_true] at hwsh
      rw [hwsh]

theorem findSpend_of_not_there {psbtIn : PartiallySignedInput} {spent : CTxOut}
    (h : ¬ScriptsThere psbtIn spent) : findSpend psbtIn spent = none := by
  unfold ScriptsThere spendScript at h
  simp only [findSpend, findWitnessScript, List.length_eq_zero_iff]
  split_ifs with hp2sh hempty hwsh hnone hwsh hnone
  all_goals simp_all

theorem findSpend_eq_some {psbtIn : PartiallySignedInput} {spent : CTxOut} {spend : Spend} :
    findSpend psbtIn spent = some spend ↔ ScriptsThere psbtIn spent ∧ spend = spendOf psbtIn spent := by
  by_cases h : ScriptsThere psbtIn spent
  · rw [findSpend_of_there h, Option.some.injEq, eq_comm]
    exact (and_iff_right h).symm
  · rw [findSpend_of_not_there h]
    exact iff_of_false (fun hnone => by cases hnone) fun hthere => h hthere.1

theorem native_iff {spent : CTxOut} {redeemScript prog : Bytes} {v : ℕ} :
    WitnessProgram spent.scriptPubKey v prog ↔
      isP2sh spent.scriptPubKey = false ∧ WitnessProgram (spendScript spent redeemScript) v prog := by
  unfold spendScript
  cases h : isP2sh spent.scriptPubKey with
  | false => simp
  | true => simp [not_witnessProgram_of_isP2sh h]

theorem wrapped_iff {spent : CTxOut} {redeemScript prog : Bytes} {v : ℕ}
    (h : isP2sh spent.scriptPubKey = true) :
    WitnessProgram redeemScript v prog ↔ WitnessProgram (spendScript spent redeemScript) v prog := by
  rw [spendScript, if_pos h]

/-- The right type in terms of the program of the script that is spent. -/
theorem rightType_iff {spent : CTxOut} {redeemScript : Bytes} {scriptType : InputScriptType}
    {v : ℕ} {prog : Bytes} (hw : WitnessProgram (spendScript spent redeemScript) v prog) :
    RightType spent redeemScript scriptType ↔
      (scriptType = .SPENDTAPROOT ↔
        isP2sh spent.scriptPubKey = false ∧ v = 1 ∧ prog.length = 32) ∧
      (scriptType = .SPENDWITNESS ↔ isP2sh spent.scriptPubKey = false ∧ v = 0) ∧
      (scriptType = .SPENDP2SHWITNESS ↔ isP2sh spent.scriptPubKey = true ∧ v = 0) ∧
      scriptType ≠ .SPENDADDRESS ∧ scriptType ≠ .SPENDMULTISIG := by
  have hnative (w : ℕ) (p : Bytes → Prop) : (∃ q, WitnessProgram spent.scriptPubKey w q ∧ p q) ↔
      isP2sh spent.scriptPubKey = false ∧ v = w ∧ p prog := by
    constructor
    · rintro ⟨q, hq, hp⟩
      obtain ⟨hp2sh, hq⟩ := native_iff.1 hq
      obtain ⟨rfl, rfl⟩ := hw.unique hq
      exact ⟨hp2sh, rfl, hp⟩
    · rintro ⟨hp2sh, rfl, hp⟩
      exact ⟨prog, native_iff.2 ⟨hp2sh, hw⟩, hp⟩
  have hwrapped : (isP2sh spent.scriptPubKey = true ∧ ∃ q, WitnessProgram redeemScript 0 q) ↔
      isP2sh spent.scriptPubKey = true ∧ v = 0 := by
    refine and_congr_right fun hp2sh => ⟨?_, ?_⟩
    · rintro ⟨q, hq⟩
      exact (hw.unique ((wrapped_iff hp2sh).1 hq)).1
    · rintro rfl
      exact ⟨prog, (wrapped_iff hp2sh).2 hw⟩
  have hlegacy : (scriptType = .SPENDADDRESS ∨ scriptType = .SPENDMULTISIG →
      ∀ w q, ¬WitnessProgram (spendScript spent redeemScript) w q) ↔
      scriptType ≠ .SPENDADDRESS ∧ scriptType ≠ .SPENDMULTISIG := by
    rw [← not_or]
    exact ⟨fun h ht => h ht v prog hw, fun h ht => absurd ht h⟩
  have hzero := hnative 0 fun _ => True
  simp only [and_true] at hzero
  rw [← hnative 1 fun q => q.length = 32, ← hzero, ← hwrapped, ← hlegacy]
  exact ⟨fun h => ⟨h.taproot, h.witness, h.p2shWitness, h.legacy⟩,
    fun h => ⟨h.1, h.2.1, h.2.2.1, h.2.2.2⟩⟩

/-- The types there are for a script that is no witness program. -/
theorem rightType_of_not_witness {spent : CTxOut} {redeemScript : Bytes} {scriptType : InputScriptType}
    (h : ∀ v prog, ¬WitnessProgram (spendScript spent redeemScript) v prog)
    (htype : scriptType = .SPENDADDRESS ∨ scriptType = .SPENDMULTISIG) :
    RightType spent redeemScript scriptType := by
  have hnative (v : ℕ) (prog : Bytes) : ¬WitnessProgram spent.scriptPubKey v prog :=
    fun hw => h v prog (native_iff.1 hw).2
  refine ⟨⟨fun heq => ?_, ?_⟩, ⟨fun heq => ?_, ?_⟩, ⟨fun heq => ?_, ?_⟩, fun _ => h⟩
  · rcases htype with rfl | rfl <;> cases heq
  · rintro ⟨prog, hw, _⟩
    exact absurd hw (hnative 1 prog)
  · rcases htype with rfl | rfl <;> cases heq
  · rintro ⟨prog, hw⟩
    exact absurd hw (hnative 0 prog)
  · rcases htype with rfl | rfl <;> cases heq
  · rintro ⟨hp2sh, prog, hw⟩
    exact absurd ((wrapped_iff hp2sh).1 hw) (h 0 prog)

theorem not_witnessProgram_of_isWitness {script : Bytes} (h : (isWitness script).1 = false) (v : ℕ)
    (prog : Bytes) : ¬WitnessProgram script v prog := by
  intro hw
  rw [isWitness_eq_true_iff.2 hw] at h
  cases h

/-- The spend type is right if and only if there is one for the program. -/
theorem rightType_spendType_iff {spent : CTxOut} {redeemScript : Bytes} :
    RightType spent redeemScript (spendType (isP2sh spent.scriptPubKey)
        (isWitness (spendScript spent redeemScript)).1
        (isWitness (spendScript spent redeemScript)).2.1) ↔
      TypedProgram spent redeemScript := by
  rcases hwit : isWitness (spendScript spent redeemScript) with ⟨isWit, v, prog⟩
  cases isWit with
  | false =>
    have hnot := not_witnessProgram_of_isWitness (congrArg Prod.fst hwit)
    exact iff_of_true (rightType_of_not_witness hnot (Or.inl rfl)) fun v prog hw =>
      absurd hw (hnot v prog)
  | true =>
    have hw := isWitness_eq_true_iff.1 hwit
    have hiff : TypedProgram spent redeemScript ↔
        v = 0 ∨ v = 1 ∧ isP2sh spent.scriptPubKey = false ∧ prog.length = 32 := by
      constructor
      · exact fun h => h v prog hw
      · intro h w q hq
        obtain ⟨rfl, rfl⟩ := hw.unique hq
        exact h
    rw [hiff, rightType_iff hw]
    rcases v with _ | _ | v
    all_goals
      cases isP2sh spent.scriptPubKey
      all_goals simp [spendType]

/-- A multisig script is sent as such where there is no witness program. -/
theorem rightType_multisig_iff {spent : CTxOut} {redeemScript : Bytes}
    (h : (isWitness (spendScript spent redeemScript)).1 = false) :
    RightType spent redeemScript .SPENDMULTISIG ↔ TypedProgram spent redeemScript := by
  have hnot := not_witnessProgram_of_isWitness h
  exact iff_of_true (rightType_of_not_witness hnot (Or.inr rfl)) fun v prog hw =>
    absurd hw (hnot v prog)

/-! ### Preparing an input -/

/-- The script check keeps the type, or turns it into that of a multisig script. -/
theorem checkScript_scriptType {hdKeypaths : Dict Bytes KeyOriginInfo} {utxo : CTxOut} {spend : Spend}
    {tx tx' : TxInputType} {ignored : Bool}
    (h : checkScript R external xpub hdKeypaths utxo spend tx = .ok (tx', ignored)) :
    tx'.scriptType = tx.scriptType ∨ tx'.scriptType = .SPENDMULTISIG ∧ spend.isWit = false := by
  unfold checkScript at h
  obtain ⟨found, _, h⟩ := bind_eq_ok.1 h
  cases found with
  | none =>
    simp only at h
    split_ifs at h
    all_goals
      cases h
      exact Or.inl rfl
  | some multisig =>
    simp only at h
    split_ifs at h with hwit
    all_goals cases h
    · rw [Bool.not_eq_true'] at hwit
      exact Or.inr ⟨rfl, hwit⟩
    all_goals exact Or.inl rfl

/-- What the search in `hd_keypaths` finds. -/
theorem searchEcdsa_eq (masterFp : Bytes) (partialSigs : Dict Bytes Bytes) :
    ∀ (items : List (Bytes × KeyOriginInfo)) (k : KeySearch),
      (searchEcdsa masterFp partialSigs items k).found = k.found.or
        ((items.filter fun e => e.2.fingerprint = masterFp && !partialSigs.contains e.1).head?.map
          fun e => e.2.path) ∧
      (searchEcdsa masterFp partialSigs items k).ourKeys = k.ourKeys +
        (items.filter fun e => e.2.fingerprint = masterFp && !partialSigs.contains e.1).length ∧
      (searchEcdsa masterFp partialSigs items k).foundInSigs = (k.foundInSigs ||
        items.any fun e => e.2.fingerprint = masterFp && partialSigs.contains e.1)
  | [], k => by simp [searchEcdsa]
  | (key, keypath) :: rest, k => by
    unfold searchEcdsa
    obtain ⟨hfound, hkeys, hsigs⟩ := searchEcdsa_eq masterFp partialSigs rest
      (if keypath.fingerprint = masterFp then
        if partialSigs.contains key then
          { k with pathLastOurs := some keypath.path, foundInSigs := true }
        else
          { k with
            pathLastOurs := some keypath.path
            found := some (k.found.getD keypath.path)
            ourKeys := k.ourKeys + 1 }
      else k)
    rw [hfound, hkeys, hsigs]
    by_cases hfp : keypath.fingerprint = masterFp
    · cases hsig : partialSigs.contains key with
      | true => simp [hfp, hsig]
      | false =>
        refine ⟨?_, ?_, ?_⟩
        · cases hk : k.found <;> simp [hfp, hsig]
        · simp only [hfp, hsig, if_true, Bool.false_eq_true, if_false, decide_true, Bool.not_false,
            Bool.and_self, List.filter_cons_of_pos, List.length_cons]
          omega
        · simp [hfp, hsig]
    · simp [hfp]

theorem searchKey_ecdsa (masterFp : Bytes) (psbtIn : PartiallySignedInput)
    {scriptType : InputScriptType} (h : scriptType ≠ .SPENDTAPROOT) :
    (searchKey masterFp psbtIn scriptType).found =
        (unsignedKeys masterFp psbtIn).head?.map (fun e => e.2.path) ∧
      (searchKey masterFp psbtIn scriptType).ourKeys = (unsignedKeys masterFp psbtIn).length := by
  obtain ⟨hfound, hkeys, -⟩ :=
    searchEcdsa_eq masterFp psbtIn.partialSigs psbtIn.hdKeypaths.items {}
  unfold searchKey
  rw [if_neg h, hfound, hkeys, Nat.zero_add]
  exact ⟨rfl, rfl⟩

/-- An input is sent with the path of the key that is found, or its signature is
going to be ignored. -/
theorem prepareKey_eq_ok {inputNum : ℕ} {psbtIn : PartiallySignedInput} {tx : TxInputType}
    {st : Streamed} (h : prepareKey chain external masterFp inputNum psbtIn tx = .ok st) :
    st.inputNum = inputNum ∧
      match (searchKey masterFp psbtIn tx.scriptType).found with
      | some addressN => st.ignored = false ∧ st.txinputtype = { tx with addressN } ∧
          st.ourKeys = (searchKey masterFp psbtIn tx.scriptType).ourKeys
      | none => st.ignored = true ∧
          (st.ourKeys = 0 ∨ st.ourKeys = (searchKey masterFp psbtIn tx.scriptType).ourKeys) := by
  unfold prepareKey at h
  simp only at h
  cases hfound : (searchKey masterFp psbtIn tx.scriptType).found with
  | some addressN =>
    rw [hfound] at h
    cases h
    exact ⟨rfl, rfl, rfl, rfl⟩
  | none =>
    rw [hfound] at h
    simp only at h
    split_ifs at h
    · cases h
      exact ⟨rfl, rfl, Or.inl rfl⟩
    · split at h
      · cases h
      · cases h
        exact ⟨rfl, rfl, Or.inr rfl⟩

theorem findUtxo_eq_ok {inputNum prevOut : ℕ} {psbtIn : PartiallySignedInput} {utxo : Option CTxOut}
    (hout : psbtIn.prevOut = some prevOut) (h : findUtxo inputNum psbtIn prevOut = .ok utxo) :
    spentOutput psbtIn = utxo := by
  unfold findUtxo at h
  unfold spentOutput
  cases hnon : psbtIn.nonWitnessUtxo with
  | none =>
    rw [hnon] at h
    exact Except.ok.inj h
  | some tx =>
    simp only [hnon] at h
    simp only [hout, Option.bind_some]
    split_ifs at h
    cases hv : tx.vout[prevOut]? with
    | none => rw [hv] at h; cases h
    | some out =>
      rw [hv] at h
      exact Except.ok.inj h

/-- How a streamed input came about: the output it spends, its scripts, the
check of the script, and the search for a key. -/
structure Prepared (R : Runtime) (chain : Chain) (external : Bool) (masterFp : Bytes)
    (xpub : Dict Bytes KeyOriginInfo) (inputNum : ℕ) (psbtIn : PartiallySignedInput) (st : Streamed) :
    Prop where
  exists_spend : ∃ spent spend tx tx' ignored, spentOutput psbtIn = some spent ∧
    findSpend psbtIn spent = some spend ∧ tx.scriptType = spend.scriptType ∧
    checkScript R external xpub psbtIn.hdKeypaths spent spend tx = .ok (tx', ignored) ∧
    if ignored then st = ignoreInput chain inputNum tx'
    else prepareKey chain external masterFp inputNum psbtIn tx' = .ok st

theorem prepareInput_eq_some {inputNum : ℕ} {psbtIn : PartiallySignedInput} {st : Streamed}
    (h : prepareInput R chain external masterFp xpub inputNum psbtIn = .ok (some st)) :
    Prepared R chain external masterFp xpub inputNum psbtIn st := by
  unfold prepareInput at h
  cases hout : psbtIn.prevOut with
  | none => rw [hout] at h; cases h
  | some prevOut =>
    cases hseq : psbtIn.sequence with
    | none => rw [hout, hseq] at h; cases h
    | some sequence =>
      rw [hout, hseq] at h
      obtain ⟨found, hfound, h⟩ := bind_eq_ok.1 h
      cases found with
      | none => cases h
      | some spent =>
        cases hspend : findSpend psbtIn spent with
        | none => simp only [hspend] at h; cases h
        | some spend =>
          simp only [hspend] at h
          obtain ⟨⟨tx', ignored⟩, hcheck, h⟩ := bind_eq_ok.1 h
          refine ⟨spent, spend, _, tx', ignored, findUtxo_eq_ok hout hfound, hspend, rfl, hcheck, ?_⟩
          cases ignored with
          | true =>
            cases h
            exact rfl
          | false =>
            obtain ⟨st', hst', h⟩ := bind_eq_ok.1 h
            cases h
            exact hst'

/-- The type of an input whose signature is kept is right if and only if there
is one for its program. -/
theorem Prepared.rightType_iff {inputNum : ℕ} {psbtIn : PartiallySignedInput} {st : Streamed}
    (h : Prepared R chain external masterFp xpub inputNum psbtIn st) (hkept : st.ignored = false) :
    ∃ spent, spentOutput psbtIn = some spent ∧
      (RightType spent psbtIn.redeemScript st.txinputtype.scriptType ↔
        TypedProgram spent psbtIn.redeemScript) := by
  obtain ⟨spent, spend, tx, tx', ignored, hspent, hspend, htype, hcheck, hst⟩ := h
  refine ⟨spent, hspent, ?_⟩
  obtain ⟨-, rfl⟩ := findSpend_eq_some.1 hspend
  have hscriptType : st.txinputtype.scriptType = tx'.scriptType := by
    cases ignored with
    | true =>
      rw [if_pos rfl] at hst
      rw [hst] at hkept
      cases hkept
    | false =>
      have hkey := (prepareKey_eq_ok hst).2
      cases hfound : (searchKey masterFp psbtIn tx'.scriptType).found with
      | none =>
        rw [hfound] at hkey
        rw [hkey.1] at hkept
        cases hkept
      | some addressN =>
        rw [hfound] at hkey
        rw [hkey.2.1]
  rw [hscriptType]
  rcases checkScript_scriptType hcheck with heq | ⟨heq, hnot⟩
  · rw [heq, htype]
    exact rightType_spendType_iff
  · rw [heq]
    exact rightType_multisig_iff hnot

end TrezorClient

end Hwi
