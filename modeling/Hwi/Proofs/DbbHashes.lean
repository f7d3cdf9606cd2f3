import Hwi.Proofs.DigitalBitbox

/-! Which inputs the Digital Bitbox driver can hash, and what it raises at the others. -/

namespace Hwi

open Procedure

namespace DigitalbitboxClient

/-- A transaction with all its scriptSigs blanked. -/
def blanked (tx : CTransaction) : CTransaction :=
  { tx with vin := tx.vin.map fun txin => { txin with scriptSig := [] } }

@[simp] theorem blanked_setScriptSig (i : ℕ) (scriptSig : Bytes) (tx : CTransaction) :
    blanked (setScriptSig i scriptSig tx) = blanked tx := by
  have hvin : (tx.vin.modify i fun txin => { txin with scriptSig }).map
      (fun txin => { txin with scriptSig := [] }) = tx.vin.map fun txin => { txin with scriptSig := [] } := by
    apply List.ext_getElem?
    intro k
    simp only [List.getElem?_map, List.getElem?_modify]
    cases tx.vin[k]? with
    | none => rfl
    | some txin =>
      by_cases hk : i = k
      · simp [hk]
      · simp [hk]
  rw [blanked, setScriptSig, blanked, hvin]

section Same

variable {tx tx' : CTransaction}

theorem numbersFit_blanked : (blanked tx).NumbersFit ↔ tx.NumbersFit := by
  constructor
  · rintro ⟨hversion, hvin, hvout, hlock⟩
    refine ⟨hversion, fun txin h => ?_, hvout, hlock⟩
    exact hvin { txin with scriptSig := [] } (List.mem_map.2 ⟨txin, h, rfl⟩)
  · rintro ⟨hversion, hvin, hvout, hlock⟩
    refine ⟨hversion, fun txin h => ?_, hvout, hlock⟩
    obtain ⟨txin', h', rfl⟩ := List.mem_map.1 h
    exact hvin txin' h'

theorem numbersFit_congr (h : blanked tx' = blanked tx) : tx'.NumbersFit ↔ tx.NumbersFit := by
  rw [← numbersFit_blanked, h, numbersFit_blanked]

theorem vin_congr (h : blanked tx' = blanked tx) (i : ℕ) :
    (tx'.vin[i]?.map fun txin => txin.prevout) = tx.vin[i]?.map fun txin => txin.prevout := by
  have hmap (t : CTransaction) : (t.vin[i]?.map fun txin => txin.prevout) =
      (blanked t).vin[i]?.map fun txin => txin.prevout := by
    simp only [blanked, List.getElem?_map, Option.map_map, Function.comp_def]
  rw [hmap tx', h, ← hmap]

end Same

/-! ### One input -/

section Input

variable {R : Runtime} {tx s : CTransaction} {iNum : ℕ} {txin txin' : CTxIn}
  {psbtIn : PartiallySignedInput} {spent : CTxOut}

theorem Spends.unique {spent' : CTxOut} (h : Spends txin psbtIn spent) (h' : Spends txin psbtIn spent') :
    spent = spent' := by
  unfold Spends at h h'
  cases hprev : psbtIn.nonWitnessUtxo with
  | none =>
    rw [hprev] at h h'
    exact Option.some.inj (h.symm.trans h')
  | some prev =>
    rw [hprev] at h h'
    exact Option.some.inj (h.2.symm.trans h'.2)

theorem spends_congr (h : txin'.prevout = txin.prevout) :
    Spends txin' psbtIn spent ↔ Spends txin psbtIn spent := by
  unfold Spends
  rw [h]

/-- Only the outpoint of the input matters, and the numbers of the transaction. -/
theorem HashBreaks.congr (h : txin'.prevout = txin.prevout) (hs : blanked s = blanked tx)
    (hb : HashBreaks s txin' psbtIn) : HashBreaks tx txin psbtIn := by
  cases hb with
  | vout hprev hhash hn => exact .vout hprev (h ▸ hhash) (h ▸ hn)
  | noUtxo hspends hscripts hprog hutxo =>
    exact .noUtxo ((spends_congr h).1 hspends) hscripts hprog hutxo
  | amount hspends hscripts hprog hutxo hfits =>
    exact .amount ((spends_congr h).1 hspends) hscripts hprog hutxo hfits
  | numbers hspends hscripts hkind hfits =>
    exact .numbers ((spends_congr h).1 hspends) hscripts hkind fun h => hfits ((numbersFit_congr hs).2 h)

theorem WrongPrev.congr (h : txin'.prevout = txin.prevout) (hw : WrongPrev txin' psbtIn) :
    WrongPrev txin psbtIn := by
  obtain ⟨prev, hprev, hne⟩ := hw
  exact ⟨prev, hprev, h ▸ hne⟩

/-- An input whose previous transaction is another one spends no output. -/
theorem WrongPrev.not_spends (h : WrongPrev txin psbtIn) : ¬Spends txin psbtIn spent := by
  obtain ⟨prev, hprev, hne⟩ := h
  unfold Spends
  rw [hprev]
  exact fun h => hne h.1

theorem WrongPrev.not_hashBreaks (h : WrongPrev txin psbtIn) : ¬HashBreaks tx txin psbtIn := by
  intro hb
  cases hb with
  | vout hprev hhash hn =>
    obtain ⟨prev, hprev', hne⟩ := h
    rw [hprev] at hprev'
    cases hprev'
    exact hne hhash
  | noUtxo hspends => exact h.not_spends hspends
  | amount hspends => exact h.not_spends hspends
  | numbers hspends => exact h.not_spends hspends

/-- An input without an output that it spends breaks off at most at its previous transaction. -/
theorem not_hashBreaks_of_not_spends (hspends : ∀ spent, ¬Spends txin psbtIn spent)
    (hprev : psbtIn.nonWitnessUtxo = none) : ¬HashBreaks tx txin psbtIn := by
  intro hb
  cases hb with
  | vout hprev' =>
    rw [hprev] at hprev'
    cases hprev'
  | noUtxo h => exact hspends _ h
  | amount h => exact hspends _ h
  | numbers h => exact hspends _ h

/-- An input that spends an output breaks off at one of its numbers, or without a witness UTXO. -/
theorem hashBreaks_iff_of_spends (tx : CTransaction) (h : Spends txin psbtIn spent) : HashBreaks tx txin psbtIn ↔
    ScriptsGiven spent psbtIn ∧
      ((∃ v prog, WitnessProgram (spendScript spent psbtIn.redeemScript) v prog) ∧
          (∀ utxo, psbtIn.witnessUtxo = some utxo → ¬SignedFits 8 utxo.nValue) ∨
        ((∃ v prog, WitnessProgram (spendScript spent psbtIn.redeemScript) v prog) ∨
          LegacyHashed spent psbtIn) ∧ ¬tx.NumbersFit) := by
  constructor
  · intro hb
    cases hb with
    | vout hprev hhash hn =>
      unfold Spends at h
      rw [hprev] at h
      have hlt := (List.getElem?_eq_some_iff.1 h.2).1
      omega
    | noUtxo hspends hscripts hprog hutxo =>
      cases h.unique hspends
      refine ⟨hscripts, Or.inl ⟨⟨_, _, hprog⟩, fun utxo hsome => ?_⟩⟩
      rw [hutxo] at hsome
      cases hsome
    | amount hspends hscripts hprog hutxo hfits =>
      cases h.unique hspends
      refine ⟨hscripts, Or.inl ⟨⟨_, _, hprog⟩, fun utxo hsome => ?_⟩⟩
      rw [hutxo] at hsome
      cases hsome
      exact hfits
    | numbers hspends hscripts hkind hfits =>
      cases h.unique hspends
      exact ⟨hscripts, Or.inr ⟨hkind, hfits⟩⟩
  · rintro ⟨hscripts, ⟨⟨v, prog, hprog⟩, hutxo⟩ | ⟨hkind, hfits⟩⟩
    · cases hsome : psbtIn.witnessUtxo with
      | none => exact .noUtxo h hscripts hprog hsome
      | some utxo => exact .amount h hscripts hprog hsome (hutxo utxo hsome)
    · exact .numbers h hscripts hkind hfits

/-- What the look-up of the spent output raises or returns. -/
theorem findUtxo_cases (tx : CTransaction) (iNum : ℕ) (txin : CTxIn) (psbtIn : PartiallySignedInput) :
    (∃ e, findUtxo iNum txin psbtIn = .error e ∧ e.isHWWError = true ∧ WrongPrev txin psbtIn) ∨
    (∃ e, findUtxo iNum txin psbtIn = .error e ∧ Unreported e ∧ ¬WrongPrev txin psbtIn ∧
      HashBreaks tx txin psbtIn) ∨
    (findUtxo iNum txin psbtIn = .ok none ∧ ¬WrongPrev txin psbtIn ∧ ¬HashBreaks tx txin psbtIn) ∨
    ∃ spent, findUtxo iNum txin psbtIn = .ok (some spent) ∧ ¬WrongPrev txin psbtIn := by
  unfold findUtxo
  cases hprev : psbtIn.nonWitnessUtxo with
  | none =>
    have hright : ¬WrongPrev txin psbtIn := by
      rintro ⟨prev, h, -⟩
      rw [hprev] at h
      cases h
    right; right
    cases hutxo : psbtIn.witnessUtxo with
    | none =>
      refine Or.inl ⟨rfl, hright, not_hashBreaks_of_not_spends (fun spent h => ?_) hprev⟩
      unfold Spends at h
      rw [hprev] at h
      exact Option.some_ne_none _ (h.symm.trans hutxo)
    | some utxo => exact Or.inr ⟨utxo, rfl, hright⟩
  | some prev =>
    dsimp only
    by_cases hhash : some txin.prevout.hash = prev.sha256
    · have hright : ¬WrongPrev txin psbtIn := by
        rintro ⟨prev', h, hne⟩
        rw [hprev] at h
        cases h
        exact hne hhash.symm
      rw [if_neg (not_not.2 hhash)]
      cases hvout : prev.vout[txin.prevout.n]? with
      | none =>
        exact Or.inr (Or.inl ⟨_, rfl, rfl, hright,
          .vout hprev hhash.symm (List.getElem?_eq_none_iff.1 hvout)⟩)
      | some utxo => exact Or.inr (Or.inr (Or.inr ⟨utxo, rfl, hright⟩))
    · rw [if_pos hhash]
      exact Or.inl ⟨_, rfl, rfl, prev, hprev, Ne.symm hhash⟩

theorem findScriptcode_cases (spent : CTxOut) (psbtIn : PartiallySignedInput) :
    (findScriptcode spent psbtIn = none ∧ ¬ScriptsGiven spent psbtIn) ∨
    ∃ c isWit, findScriptcode spent psbtIn = some (c, isP2sh spent.scriptPubKey, isWit) ∧
      ScriptsGiven spent psbtIn := by
  have hscript : (if isP2sh spent.scriptPubKey = true then psbtIn.redeemScript
      else spent.scriptPubKey) = spendScript spent psbtIn.redeemScript := rfl
  unfold findScriptcode ScriptsGiven
  simp only [hscript, List.length_eq_zero_iff]
  split_ifs with hmissing hwsh hnone
  · exact Or.inl ⟨rfl, fun h => h.1 hmissing.1 hmissing.2⟩
  · exact Or.inl ⟨rfl, fun h => h.2 hwsh hnone⟩
  · exact Or.inr ⟨_, _, rfl, fun hp h => hmissing ⟨hp, h⟩, fun _ => hnone⟩
  · exact Or.inr ⟨_, _, rfl, fun hp h => hmissing ⟨hp, h⟩, fun h => absurd h hwsh⟩

/-- A legacy preimage is made just when the numbers of the transaction fit. -/
theorem legacyPreimage_outcome (s : CTransaction) (scriptcode : Bytes) :
    Triple (· = s) (legacyPreimage iNum scriptcode)
      (fun _ s' => blanked s' = blanked s ∧ s.NumbersFit)
      (fun e s' => blanked s' = blanked s ∧ Unreported e ∧ ¬s.NumbersFit) := by
  unfold legacyPreimage
  refine .modify_bind (M := (· = setScriptSig iNum scriptcode s)) (by rintro s rfl; rfl) ?_
  refine .get_bind fun blankTx hset => ?_
  subst hset
  have hfit : (setScriptSig iNum scriptcode s).NumbersFit ↔ s.NumbersFit :=
    numbersFit_congr (blanked_setScriptSig iNum scriptcode s)
  cases hser : (setScriptSig iNum scriptcode s).serializeWithoutWitness with
  | ok serTx =>
    refine .ofExcept_bind (fun serTx' _ => ?_) (by rintro e s' ⟨⟩)
    refine .modify_bind (M := fun s' => blanked s' = blanked s) ?_ (.pure ?_)
    · rintro s' rfl
      rw [blanked_setScriptSig, blanked_setScriptSig]
    · intro s' hs'
      exact ⟨hs', hfit.1 (CTransaction.exists_serializeWithoutWitness_eq_ok.1 ⟨serTx, hser⟩)⟩
  | error e =>
    refine .ofExcept_bind (by rintro serTx' ⟨⟩) ?_
    rintro e' s' ⟨⟩ rfl
    refine ⟨blanked_setScriptSig _ _ _, ?_, fun h => ?_⟩
    · by_contra hno
      exact serializeWithoutWitness_unreported _ ⟨e, hser, hno⟩
    · obtain ⟨b, hb⟩ := CTransaction.exists_serializeWithoutWitness_eq_ok.2 (hfit.2 h)
      rw [hser] at hb
      cases hb

/-- A witness preimage is made just when the numbers of the transaction and the amount fit. -/
theorem exists_witnessPreimage_eq_ok (scriptcode : Bytes) (nValue : ℤ) (hmem : txin ∈ tx.vin) :
    (∃ b, witnessPreimage R tx txin scriptcode nValue = .ok b) ↔ tx.NumbersFit ∧ SignedFits 8 nValue := by
  have hparts : (∃ b, witnessPreimage R tx txin scriptcode nValue = .ok b) ↔
      (∃ b, tx.vin.mapM (fun inputs => inputs.prevout.serialize) = .ok b) ∧
      (∃ b, tx.vin.mapM (fun inputs => pack 4 inputs.nSequence) = .ok b) ∧
      (∃ b, tx.vout.mapM CTxOut.serialize = .ok b) ∧ (∃ b, packSigned 4 tx.nVersion = .ok b) ∧
      (∃ b, txin.prevout.serialize = .ok b) ∧ (∃ b, packSigned 8 nValue = .ok b) ∧
      (∃ b, pack 4 txin.nSequence = .ok b) ∧ ∃ b, pack 4 tx.nLockTime = .ok b := by
    unfold witnessPreimage
    simp only [exists_bind_eq_ok, pure_eq_ok, Except.ok.injEq, exists_eq', and_true, exists_and_right]
  have hfour : (2 : ℕ) ^ 32 = 256 ^ 4 := by norm_num
  rw [hparts]
  simp only [exists_mapM_eq_ok, COutPoint.exists_serialize_eq_ok, exists_pack_eq_ok,
    CTxOut.exists_serialize_eq_ok, exists_packSigned_eq_ok]
  constructor
  · rintro ⟨hn, hseq, hvout, hversion, -, hvalue, -, hlock⟩
    exact ⟨⟨hversion, fun txin h => ⟨hn txin h, hfour ▸ hseq txin h⟩, hvout, hfour ▸ hlock⟩, hvalue⟩
  · rintro ⟨⟨hversion, hvin, hvout, hlock⟩, hvalue⟩
    refine ⟨fun txin h => (hvin txin h).1, fun txin h => hfour ▸ (hvin txin h).2, hvout, hversion,
      (hvin txin hmem).1, hvalue, hfour ▸ (hvin txin hmem).2, hfour ▸ hlock⟩

theorem witnessPreimage_unreported (scriptcode : Bytes) (nValue : ℤ) :
    ¬Raising (fun e => ¬Unreported e) (witnessPreimage R tx txin scriptcode nValue) := by
  unfold witnessPreimage
  refine not_raising_bind (not_raising_mapM fun _ _ => outPoint_unreported _) fun _ _ => ?_
  refine not_raising_bind (not_raising_mapM fun _ _ => pack_unreported _ _) fun _ _ => ?_
  refine not_raising_bind (not_raising_mapM fun _ _ => txOut_unreported _) fun _ _ => ?_
  refine not_raising_bind (packSigned_unreported _ _) fun _ _ => ?_
  refine not_raising_bind (outPoint_unreported _) fun _ _ => ?_
  refine not_raising_bind (packSigned_unreported _ _) fun _ _ => ?_
  refine not_raising_bind (pack_unreported _ _) fun _ _ => ?_
  exact not_raising_bind (pack_unreported _ _) fun _ _ => not_raising_ok

/-- An input is hashed or skipped, refused for its previous transaction, or breaks off. -/
theorem inputPreimage_outcome (iNum : ℕ) (psbtIn : PartiallySignedInput) (hmem : txin ∈ s.vin) : Triple (· = s) (inputPreimage R iNum txin psbtIn)
    (fun _ s' => blanked s' = blanked s ∧ ¬WrongPrev txin psbtIn ∧ ¬HashBreaks s txin psbtIn)
    (fun e s' => blanked s' = blanked s ∧ (e.isHWWError = true ∧ WrongPrev txin psbtIn ∨
      Unreported e ∧ ¬WrongPrev txin psbtIn ∧ HashBreaks s txin psbtIn)) := by
  unfold inputPreimage
  obtain ⟨e, he, hhww, hwrong⟩ | ⟨e, he, hun, hright, hbreaks⟩ | ⟨hnone, hright, hno⟩ |
    ⟨spent, hspent, hright⟩ := findUtxo_cases s iNum txin psbtIn
  · rw [he]
    exact .bind (M := fun _ _ => False) (.throw fun s' hs' => ⟨hs' ▸ rfl, Or.inl ⟨hhww, hwrong⟩⟩)
      fun _ s' h => h.elim
  · rw [he]
    exact .bind (M := fun _ _ => False)
      (.throw fun s' hs' => ⟨hs' ▸ rfl, Or.inr ⟨hun, hright, hbreaks⟩⟩) fun _ s' h => h.elim
  · rw [hnone]
    exact fun s' hs' => ⟨hs' ▸ rfl, hright, hno⟩
  · have hspends := spends_of_findUtxo hspent
    have hiff := hashBreaks_iff_of_spends s hspends
    rw [hspent]
    refine Triple.bind (M := fun r s' => s' = s ∧ r = some spent) (fun s' hs' => ⟨hs', rfl⟩) fun r => ?_
    refine .assume ?_
    rintro rfl
    dsimp only
    obtain ⟨hfind, hscripts⟩ | ⟨c, isWit, hfind, hscripts⟩ := findScriptcode_cases spent psbtIn
    · rw [hfind]
      exact fun s' hs' => ⟨hs' ▸ rfl, hright, fun hb => hscripts (hiff.1 hb).1⟩
    · obtain ⟨hwit, hc⟩ := findScriptcode_eq_some hfind
      rw [hfind]
      dsimp only
      cases isWit with
      | false =>
        have hno : ¬∃ v prog, WitnessProgram (spendScript spent psbtIn.redeemScript) v prog := by
          rw [← isWitness_fst_iff, ← hwit]
          exact Bool.false_ne_true
        have hcode : c = spendScript spent psbtIn.redeemScript := by
          rw [hc, if_neg]
          rw [isP2wsh_iff]
          rintro ⟨prog, hprog, -⟩
          exact hno ⟨0, prog, hprog⟩
        have hkind : (isP2sh spent.scriptPubKey || isP2pkh c || isP2pk c) = true ↔
            LegacyHashed spent psbtIn := by
          rw [hcode, LegacyHashed, Bool.or_eq_true, Bool.or_eq_true, or_assoc]
        simp only [Bool.not_false, if_true]
        split_ifs with hlegacy
        · refine .bind ((legacyPreimage_outcome s c).mono (fun _ hs => hs) (fun _ _ h => h) ?_)
            fun message => .pure ?_
          · rintro e s' ⟨hs', hun, hfits⟩
            exact ⟨hs', Or.inr ⟨hun, hright, hiff.2 ⟨hscripts, Or.inr ⟨Or.inr (hkind.1 hlegacy), hfits⟩⟩⟩⟩
          · rintro s' ⟨hs', hfits⟩
            refine ⟨hs', hright, fun hb => ?_⟩
            rcases (hiff.1 hb).2 with ⟨hprog, -⟩ | ⟨-, hno'⟩
            · exact hno hprog
            · exact hno' hfits
        · refine .pure fun s' hs' => ⟨hs' ▸ rfl, hright, fun hb => ?_⟩
          rcases (hiff.1 hb).2 with ⟨hprog, -⟩ | ⟨hprog | h, -⟩
          · exact hno hprog
          · exact hno hprog
          · exact hlegacy (hkind.2 h)
      | true =>
        have hprog := isWitness_fst_iff.1 hwit.symm
        simp only [Bool.not_true, Bool.false_eq_true, if_false]
        cases hutxo : psbtIn.witnessUtxo with
        | none =>
          refine .throw fun s' hs' => ⟨hs' ▸ rfl, Or.inr ⟨rfl, hright, hiff.2 ⟨hscripts, Or.inl ⟨hprog, ?_⟩⟩⟩⟩
          intro utxo h
          rw [hutxo] at h
          cases h
        | some utxo =>
          have hbreaks : HashBreaks s txin psbtIn ↔ ¬(s.NumbersFit ∧ SignedFits 8 utxo.nValue) := by
            rw [hiff, and_iff_right hscripts, hutxo]
            simp only [Option.some.injEq, forall_eq', not_and_or, hprog, true_and, true_or]
            exact or_comm
          have hok := exists_witnessPreimage_eq_ok (R := R) c utxo.nValue hmem
          refine .get_bind fun blankTx htx => ?_
          subst htx
          refine .ofExcept_bind (fun message hm => .pure fun s' hs' => ⟨hs' ▸ rfl, hright, ?_⟩) ?_
          · rw [hbreaks, not_not]
            exact hok.1 ⟨message, hm⟩
          · intro e s' he hs'
            refine ⟨hs' ▸ rfl, Or.inr ⟨?_, hright, hbreaks.2 fun h => ?_⟩⟩
            · by_contra hno
              exact witnessPreimage_unreported _ _ ⟨e, he, hno⟩
            · obtain ⟨b, hb⟩ := hok.2 h
              rw [he] at hb
              cases hb

end Input

/-! ### All inputs -/

/-- `Hashable`, for the inputs that are still to come. -/
def HashableFrom (tx : CTransaction) (l : List (CTxIn × PartiallySignedInput)) : Prop :=
  ∀ (k : ℕ) (x : CTxIn × PartiallySignedInput), l[k]? = some x → HashBreaks tx x.1 x.2 →
    ∃ j < k, ∃ y : CTxIn × PartiallySignedInput, l[j]? = some y ∧ WrongPrev y.1 y.2

theorem hashableFrom_nil (tx : CTransaction) : HashableFrom tx [] := by
  intro k x h
  cases h

theorem hashableFrom_cons {tx : CTransaction} {x : CTxIn × PartiallySignedInput}
    {l : List (CTxIn × PartiallySignedInput)} : HashableFrom tx (x :: l) ↔
      ¬HashBreaks tx x.1 x.2 ∧ (WrongPrev x.1 x.2 ∨ HashableFrom tx l) := by
  constructor
  · intro h
    refine ⟨fun hb => ?_, ?_⟩
    · obtain ⟨j, hj, -⟩ := h 0 x rfl hb
      exact absurd hj (Nat.not_lt_zero j)
    · by_cases hw : WrongPrev x.1 x.2
      · exact Or.inl hw
      · refine Or.inr fun k y hy hb => ?_
        obtain ⟨j, hj, z, hz, hwrong⟩ := h (k + 1) y hy hb
        cases j with
        | zero =>
          cases hz
          exact absurd hwrong hw
        | succ j => exact ⟨j, Nat.lt_of_succ_lt_succ hj, z, hz, hwrong⟩
  · rintro ⟨hno, h⟩ k y hy hb
    cases k with
    | zero =>
      cases hy
      exact absurd hb hno
    | succ k =>
      rcases h with hw | h
      · exact ⟨0, Nat.succ_pos k, x, rfl, hw⟩
      · obtain ⟨j, hj, z, hz, hwrong⟩ := h k y hy hb
        exact ⟨j + 1, Nat.succ_lt_succ hj, z, hz, hwrong⟩

/-- The pass over the inputs raises no `HWWError` only where an input breaks off. -/
theorem sighashTuples_outcome {R : Runtime} (tx : CTransaction) (masterFp : Bytes) (i : ℕ)
    (inputs : List PartiallySignedInput) :
    Triple (fun s => blanked s = blanked tx) (sighashTuples R masterFp i inputs)
      (fun _ _ => HashableFrom tx ((tx.vin.drop i).zip inputs))
      (fun e _ => e.isHWWError = true ↔ HashableFrom tx ((tx.vin.drop i).zip inputs)) := by
  induction inputs generalizing i with
  | nil =>
    rw [List.zip_nil_right]
    exact .pure fun s hs => hashableFrom_nil tx
  | cons psbtIn rest ih =>
    rw [sighashTuples]
    refine .get_bind fun s hs => ?_
    have hprevout := vin_congr hs i
    cases hvin : s.vin[i]? with
    | none =>
      rw [hvin] at hprevout
      have hnone : tx.vin[i]? = none := Option.map_eq_none_iff.1 hprevout.symm
      rw [List.drop_eq_nil_of_le (List.getElem?_eq_none_iff.1 hnone), List.zip_nil_left]
      exact .pure fun s hs => hashableFrom_nil tx
    | some txin =>
      rw [hvin] at hprevout
      obtain ⟨txin', hvin', hsame⟩ := Option.map_eq_some_iff.1 hprevout.symm
      obtain ⟨hlt, rfl⟩ := List.getElem?_eq_some_iff.1 hvin'
      rw [List.drop_eq_getElem_cons hlt, List.zip_cons_cons, hashableFrom_cons]
      have hbreaks : HashBreaks s txin psbtIn ↔ HashBreaks tx tx.vin[i] psbtIn :=
        ⟨HashBreaks.congr hsame.symm hs, HashBreaks.congr hsame hs.symm⟩
      have hwrong : WrongPrev txin psbtIn ↔ WrongPrev tx.vin[i] psbtIn :=
        ⟨WrongPrev.congr hsame.symm, WrongPrev.congr hsame⟩
      have hinput := inputPreimage_outcome (R := R) i psbtIn (List.mem_of_getElem? hvin)
      rw [hbreaks, hwrong] at hinput
      refine .bind (hinput.mono (fun _ h => h) (fun _ _ h => h) ?_) fun preimage => ?_
      · rintro e s' ⟨-, ⟨hhww, hw⟩ | ⟨hun, hright, hb⟩⟩
        · exact iff_of_true hhww ⟨hw.not_hashBreaks, Or.inl hw⟩
        · refine iff_of_false ?_ fun h => h.1 hb
          rw [hun]
          exact Bool.false_ne_true
      · refine Triple.assume fun h => ?_
        obtain ⟨hright, hno⟩ := h
        rw [and_iff_right hno, or_iff_right hright]
        refine Triple.bind ((ih (i + 1)).mono (fun _ hs' => hs'.trans hs) (fun _ _ h => h)
          fun _ _ h => h) fun more => ?_
        exact .pure fun _ h => h

end DigitalbitboxClient

end Hwi
