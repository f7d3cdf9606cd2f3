import Hwi.Proofs.DbbCall
import Hwi.Proofs.Downgrade
import Hwi.Proofs.Sighash

/-! The hashes the Digital Bitbox is asked to sign: when each is the hash that
consensus has a signature for that input commit to. -/

namespace Hwi

open Procedure

namespace DigitalbitboxClient

/-! ### The transaction with blanked scriptSigs -/

section Blank

variable {tx : CTransaction} {i : ℕ}

theorem vin_setScriptSig (hblank : ∀ txin ∈ tx.vin, txin.scriptSig = []) (scriptSig : Bytes) :
    (setScriptSig i scriptSig tx).vin = tx.vin.mapIdx fun j txin =>
      { txin with scriptSig := if j = i then scriptSig else [] } := by
  apply List.ext_getElem?
  intro j
  rw [setScriptSig, List.getElem?_modify, List.getElem?_mapIdx]
  cases hj : tx.vin[j]? with
  | none => rfl
  | some txin =>
    have hempty := hblank txin (List.mem_of_getElem? hj)
    by_cases hij : i = j
    · simp [hij]
    · simp [hij, Ne.symm hij, ← hempty]

theorem setScriptSig_reset (hblank : ∀ txin ∈ tx.vin, txin.scriptSig = []) (scriptSig : Bytes) :
    setScriptSig i [] (setScriptSig i scriptSig tx) = tx := by
  have hvin : (setScriptSig i [] (setScriptSig i scriptSig tx)).vin = tx.vin := by
    apply List.ext_getElem?
    intro j
    simp only [setScriptSig, List.getElem?_modify]
    cases hj : tx.vin[j]? with
    | none => rfl
    | some txin =>
      have hempty := hblank txin (List.mem_of_getElem? hj)
      by_cases hij : i = j
      · simp [hij, ← hempty]
      · simp [hij]
  calc setScriptSig i [] (setScriptSig i scriptSig tx)
      = { tx with vin := (setScriptSig i [] (setScriptSig i scriptSig tx)).vin } := rfl
    _ = tx := by rw [hvin]

/-- The preimage of an input that spends no witness program is its legacy
message, and the transaction is left as it was. -/
theorem legacyPreimage_spec (hblank : ∀ txin ∈ tx.vin, txin.scriptSig = []) (scriptcode : Bytes) :
    Triple (· = tx) (legacyPreimage i scriptcode)
      (fun message tx' => tx' = tx ∧ legacyMessage tx i scriptcode = .ok message) fun _ _ => True := by
  unfold legacyPreimage
  refine .modify_bind (M := (· = setScriptSig i scriptcode tx)) (by rintro s rfl; rfl) ?_
  refine .get_bind fun blankTx hset => .ofExcept_bind (fun serTx hser => ?_) fun _ _ _ _ => trivial
  refine .modify_bind (M := (· = tx)) ?_ (.pure ?_)
  · rintro s rfl
    rw [hset]
    exact setScriptSig_reset hblank scriptcode
  · rintro s rfl
    refine ⟨rfl, ?_⟩
    have htx : blankTx = { s with vin := (setScriptSig i scriptcode s).vin } := hset
    rw [htx, vin_setScriptSig hblank] at hser
    rw [legacyMessage, hser]
    rfl

end Blank

/-! ### One input -/

section Input

variable {R : Runtime} {tx : CTransaction} {iNum : ℕ} {txin : CTxIn} {psbtIn : PartiallySignedInput}
  {spent : CTxOut}

theorem spends_of_findUtxo (h : findUtxo iNum txin psbtIn = .ok (some spent)) :
    Spends txin psbtIn spent := by
  unfold findUtxo at h
  unfold Spends
  cases hprev : psbtIn.nonWitnessUtxo with
  | none =>
    rw [hprev] at h
    exact Except.ok.inj h
  | some prev =>
    rw [hprev] at h
    dsimp only at h
    rw [ite_error_eq_ok, not_not] at h
    obtain ⟨hhash, h⟩ := h
    cases hout : prev.vout[txin.prevout.n]? with
    | none =>
      rw [hout] at h
      cases h
    | some out =>
      rw [hout] at h
      cases h
      exact ⟨hhash.symm, hout⟩

/-- The script code is the witness script for P2WSH, the spending script otherwise. -/
theorem findScriptcode_eq_some {c : Bytes} {p2sh isWit : Bool}
    (h : findScriptcode spent psbtIn = some (c, p2sh, isWit)) :
    isWit = (isWitness (spendScript spent psbtIn.redeemScript)).1 ∧
      c = if isP2wsh (spendScript spent psbtIn.redeemScript) then psbtIn.witnessScript
        else spendScript spent psbtIn.redeemScript := by
  have hscript : (if isP2sh spent.scriptPubKey = true then psbtIn.redeemScript
      else spent.scriptPubKey) = spendScript spent psbtIn.redeemScript := rfl
  simp only [findScriptcode, hscript] at h
  split_ifs at h with hmissing hwsh hnone
  · cases h
    exact ⟨rfl, (if_pos hwsh).symm⟩
  · cases h
    exact ⟨rfl, (if_neg hwsh).symm⟩

/-- The script code as it is hashed. -/
def hashedCode (c : Bytes) : Bytes := if isP2wpkh c then p2pkhScript (isWitness c).2.2 else c

theorem hashedCode_p2wpkh {c prog : Bytes} (h : WitnessProgram c 0 prog) (hlen : prog.length = 20) :
    hashedCode c = p2pkhScript prog := by
  rw [hashedCode, if_pos (isP2wpkh_iff.2 ⟨prog, h, hlen⟩), isWitness_eq_true_iff.2 h]

/-- A script of the form of P2WPKH is not hashed as it is. -/
theorem hashedCode_eq_self_iff {c : Bytes} :
    hashedCode c = c ↔ ∀ p, WitnessProgram c 0 p → p.length ≠ 20 := by
  constructor
  · intro heq p hp hlen
    rw [hashedCode_p2wpkh hp hlen, hp.script_eq] at heq
    have hlength := congrArg List.length heq
    simp only [p2pkhScript, List.length_append, List.length_cons, List.length_nil] at hlength
    omega
  · intro h
    rw [hashedCode, if_neg]
    rw [isP2wpkh_iff]
    rintro ⟨p, hp, hlen⟩
    exact h p hp hlen

theorem witnessPreimage_eq_ok {c message : Bytes} {nValue : ℤ}
    (h : witnessPreimage R tx txin c nValue = .ok message) :
    bip143Message R tx txin (hashedCode c) nValue = .ok message := by
  simp only [witnessPreimage, bind_eq_ok] at h
  obtain ⟨prevouts, hp, sequences, hs, outputs, hout, nVersion, hv, outpoint, ho, value, hval,
    nSequence, hq, nLockTime, hl, h⟩ := h
  cases h
  simp only [bip143Message, hv, hp, hs, ho, hval, hq, hout, hl, ok_bind, pure_eq_ok, List.append_assoc]
  rfl

/-- The message of an input that spends a witness program. -/
theorem witness_message {v : ℕ} {prog c message : Bytes} {utxo : CTxOut}
    (hprog : WitnessProgram (spendScript spent psbtIn.redeemScript) v prog)
    (hc : c = if isP2wsh (spendScript spent psbtIn.redeemScript) then psbtIn.witnessScript
      else spendScript spent psbtIn.redeemScript)
    (hutxo : psbtIn.witnessUtxo = some utxo)
    (h : bip143Message R tx txin (hashedCode c) utxo.nValue = .ok message) :
    SighashAllMessage R tx iNum txin spent psbtIn.redeemScript psbtIn.witnessScript message ↔
      HashedRight spent psbtIn := by
  have hcode20 {p : Bytes} (hp : WitnessProgram (spendScript spent psbtIn.redeemScript) 0 p)
      (hlen : p.length = 20) : hashedCode c = p2pkhScript p := by
    rw [if_neg] at hc
    · rw [hc]
      exact hashedCode_p2wpkh hp hlen
    · rw [isP2wsh_iff]
      rintro ⟨q, hq, hlen'⟩
      obtain ⟨-, rfl⟩ := hp.unique hq
      omega
  have hcode32 {p : Bytes} (hp : WitnessProgram (spendScript spent psbtIn.redeemScript) 0 p)
      (hlen : p.length = 32) : c = psbtIn.witnessScript := by
    rw [hc, if_pos (isP2wsh_iff.2 ⟨p, hp, hlen⟩)]
  constructor
  · intro hmessage
    right
    cases hmessage with
    | legacy hno => exact absurd hprog (hno v prog)
    | @p2wpkh p _ hp hlen hm =>
      rw [hcode20 hp hlen] at h
      obtain ⟨-, hvalue⟩ := bip143Message_inj h hm
      exact ⟨p, utxo, hp, hutxo, hvalue, Or.inl hlen⟩
    | @p2wsh p _ hp hlen hm =>
      obtain ⟨hcode, hvalue⟩ := bip143Message_inj h hm
      rw [hcode32 hp hlen] at hcode
      exact ⟨p, utxo, hp, hutxo, hvalue, Or.inr ⟨hlen, hashedCode_eq_self_iff.1 hcode⟩⟩
  · intro hright
    rcases hright with hno | ⟨p, utxo', hp, hutxo', hvalue, hcase⟩
    · exact absurd hprog (hno v prog)
    · rw [hutxo] at hutxo'
      cases hutxo'
      rw [hvalue] at h
      rcases hcase with hlen | ⟨hlen, hform⟩
      · rw [hcode20 hp hlen] at h
        exact .p2wpkh hp hlen h
      · rw [hcode32 hp hlen, hashedCode_eq_self_iff.2 hform] at h
        exact .p2wsh hp hlen h

/-- The preimage of an input. -/
theorem inputPreimage_spec (hblank : ∀ txin ∈ tx.vin, txin.scriptSig = []) :
    Triple (· = tx) (inputPreimage R iNum txin psbtIn)
      (fun r tx' => tx' = tx ∧ ∀ message, r = some message → Message R tx iNum txin psbtIn message)
      fun _ _ => True := by
  have hskip : Triple (· = tx) (pure none : Blanked (Option Bytes))
      (fun r tx' => tx' = tx ∧ ∀ message, r = some message → Message R tx iNum txin psbtIn message)
      fun _ _ => True := .pure fun s hs => ⟨hs, by rintro message ⟨⟩⟩
  unfold inputPreimage
  refine .ofExcept_bind (fun r hr => ?_) fun _ _ _ _ => trivial
  cases r with
  | none => exact hskip
  | some spent =>
    have hspends := spends_of_findUtxo hr
    dsimp only
    cases hfind : findScriptcode spent psbtIn with
    | none => exact hskip
    | some code =>
      obtain ⟨c, p2sh, isWit⟩ := code
      obtain ⟨hwit, hc⟩ := findScriptcode_eq_some hfind
      dsimp only
      cases isWit with
      | false =>
        have hno : ∀ v prog, ¬WitnessProgram (spendScript spent psbtIn.redeemScript) v prog :=
          fun v prog hp => by
            rw [isWitness_fst_iff.2 ⟨v, prog, hp⟩] at hwit
            cases hwit
        have hwsh : ¬isP2wsh (spendScript spent psbtIn.redeemScript) = true := by
          rw [isP2wsh_iff]
          rintro ⟨prog, hp, -⟩
          exact hno 0 prog hp
        rw [if_neg hwsh] at hc
        simp only [Bool.not_false, if_true]
        split_ifs
        · refine .bind (legacyPreimage_spec hblank c) fun message => .pure ?_
          rintro s ⟨rfl, hmessage⟩
          refine ⟨rfl, ?_⟩
          rintro m ⟨⟩
          rw [hc] at hmessage
          exact ⟨spent, hspends, fun _ => Or.inl hno, fun _ => .legacy hno hmessage⟩
        · exact hskip
      | true =>
        obtain ⟨v, prog, hprog⟩ := isWitness_fst_iff.1 hwit.symm
        simp only [Bool.not_true, Bool.false_eq_true, if_false]
        cases hutxo : psbtIn.witnessUtxo with
        | none => exact .throw fun _ _ => trivial
        | some utxo =>
          refine .get_bind fun blankTx htx => .ofExcept_bind (fun message hm => .pure ?_)
            fun _ _ _ _ => trivial
          rintro s rfl
          subst htx
          refine ⟨rfl, ?_⟩
          rintro m ⟨⟩
          exact ⟨spent, hspends, witness_message hprog hc hutxo (witnessPreimage_eq_ok hm)⟩

end Input

/-! ### The run -/

section Run

variable {R : Runtime} {psbt : PSBT} {tx : CTransaction} {masterFp : Bytes}

theorem mem_ownTuples {sighash : Bytes} {iNum : ℕ} {psbtIn : PartiallySignedInput} {tup : SighashTuple}
    (h : tup ∈ ownTuples masterFp sighash iNum psbtIn) : ∃ origin,
      psbtIn.hdKeypaths.get? tup.pubkey = some origin ∧ origin.fingerprint = masterFp ∧
      tup.keypath = origin.getDerivationPath ∧ tup.sighash = hexlify sighash ∧ tup.iNum = iNum := by
  obtain ⟨⟨pubkey, origin⟩, hmem, hown⟩ := List.mem_filterMap.1 h
  dsimp only at hown
  split_ifs at hown with hfp
  cases hown
  exact ⟨origin, Dict.get?_eq_some_iff.2 hmem, hfp.symm, rfl, rfl, rfl⟩

/-- The tuples of the inputs from index `i` on. -/
theorem sighashTuples_spec (masterFp : Bytes) (hblank : ∀ txin ∈ tx.vin, txin.scriptSig = [])
    (inputs : List PartiallySignedInput) (i : ℕ) (hin : ∀ k, inputs[k]? = psbt.inputs[i + k]?) :
    Triple (· = tx) (sighashTuples R masterFp i inputs)
      (fun tups tx' => tx' = tx ∧ ∀ tup ∈ tups, HashOf R psbt tx masterFp tup) fun _ _ => True := by
  have hnone : Triple (· = tx) (pure [] : Blanked (List SighashTuple))
      (fun tups tx' => tx' = tx ∧ ∀ tup ∈ tups, HashOf R psbt tx masterFp tup) fun _ _ => True :=
    .pure fun s hs => ⟨hs, fun tup h => absurd h List.not_mem_nil⟩
  induction inputs generalizing i with
  | nil => exact hnone
  | cons psbtIn rest ih =>
    rw [sighashTuples]
    refine .get_bind fun blankTx htx => ?_
    subst htx
    cases hvin : blankTx.vin[i]? with
    | none => exact hnone
    | some txin =>
      have hinput : Triple (· = blankTx) (inputPreimage R i txin psbtIn)
          (fun r tx' => tx' = blankTx ∧ ((inputPreimage R i txin psbtIn).run blankTx = .ok r blankTx ∧
            ∀ message, r = some message → Message R blankTx i txin psbtIn message)) fun _ _ => True := by
        refine (inputPreimage_spec hblank).with_run.mono (fun _ hs => hs) ?_ fun _ _ h => h.1
        rintro r s ⟨⟨rfl, hmessage⟩, hrun⟩
        exact ⟨rfl, hrun, hmessage⟩
      refine .bind hinput fun preimage => ?_
      have hrest := ih (i + 1) fun k => by
        have hk := hin (k + 1)
        rwa [List.getElem?_cons_succ, Nat.add_comm k 1, ← Nat.add_assoc] at hk
      refine .assume fun ⟨hrun, hmessage⟩ => .bind hrest fun more => .assume fun hmore => .pure fun s hs => ?_
      refine ⟨hs, fun tup htup => ?_⟩
      -- the tuples of this input come first
      rcases List.mem_append.1 htup with hown | htup
      · cases preimage with
        | none => exact absurd hown List.not_mem_nil
        | some message =>
          obtain ⟨origin, hkey, hfp, hpath, hhash, rfl⟩ := mem_ownTuples hown
          exact ⟨txin, psbtIn, origin, message, hvin, (hin 0).symm, hkey, hfp, hpath, hrun, hhash,
            hmessage message rfl⟩
      · exact hmore tup htup

theorem mem_batches {tups batch : List SighashTuple} {tup : SighashTuple} (hb : batch ∈ batches tups)
    (h : tup ∈ batch) : tup ∈ tups := by
  obtain ⟨k, -, rfl⟩ := List.mem_map.1 hb
  exact List.mem_of_mem_drop (List.mem_of_mem_take h)

variable {c : Dbb.Client}

/-- Work on the transaction keeps what does not look at it. -/
theorem onBlankTx_spec {α : Type} {P : Dbb.State → Prop} {x : Blanked α} {good : α → Prop}
    (hP : ∀ s tx, P s → P { s with psbt := { s.psbt with tx } })
    (hx : Triple (· = tx) x (fun a tx' => tx' = tx ∧ good a) fun _ _ => True) :
    Triple P (Dbb.onBlankTx tx x) (fun a s => P s ∧ good a) fun _ => P := by
  intro s hs
  have hrun := hx tx rfl
  have hkeep (tx : CTransaction) :
      P (if s.psbt.version = 0 then { s with psbt := { s.psbt with tx } } else s) := by
    split_ifs
    · exact hP s tx hs
    · exact hs
  simp only [EStateM.run, Dbb.onBlankTx] at hrun ⊢
  cases h : x tx with
  | ok a tx' =>
    rw [h] at hrun
    exact ⟨hkeep tx', hrun.2⟩
  | error e tx' => exact hkeep tx'

/-- A message is one of those that may be sent. -/
theorem Sends.exchanged {command : Dbb.Command} {s : Dbb.State} (hs : Sends R c psbt s)
    (h : Sends R c psbt { psbt, sent := [command] }) : Sends R c psbt (Dbb.exchanged c command s) := by
  intro command' hmem
  rcases List.mem_append.1 hmem with hmem | hmem
  · exact hs command' hmem
  · exact h command' hmem

/-- The question for the fingerprint is no message to sign. -/
theorem keeps_getMasterFingerprint : Keeps (Sends R c psbt) (Dbb.getMasterFingerprint c) := by
  refine Keeps.bind (Dbb.keeps_digitalbitboxException ?_) fun xpub => ?_
  · have hask : Keeps (Sends R c psbt) (Dbb.request c (Dbb.xpubCommand "m/0h".toList)) := by
      refine Dbb.keeps_request fun s hs => hs.exchanged ?_
      intro command hmem
      exact Or.inl (List.mem_singleton.1 hmem)
    unfold Dbb.getPubkeyAtPathBody
    split_ifs
    · exact (keeps_throw _).bind fun _ => hask.bind fun reply => Dbb.keeps_run _
    · exact hask.bind fun reply => Dbb.keeps_run _
  · cases xpub with
    | none => exact keeps_throw _
    | some xpub => exact keeps_pure _

/-- A batch is sent twice and adds signatures, which are no messages. -/
theorem keeps_signBatch {tups : List SighashTuple} {s' : Dbb.State}
    (htx : psbt.getUnsignedTx R = .ok tx)
    (hfp : (Dbb.getMasterFingerprint c).run { psbt } = .ok masterFp s')
    (h : ∀ tup ∈ tups, HashOf R psbt tx masterFp tup) :
    Keeps (Sends R c psbt) (Dbb.signBatch c tups) := by
  have hrequest : Keeps (Sends R c psbt) (Dbb.request c (.text (signCommand tups))) := by
    refine Dbb.keeps_request fun s hs => hs.exchanged ?_
    intro command hmem
    exact Or.inr ⟨tx, masterFp, s', tups, htx, hfp, List.mem_singleton.1 hmem, h⟩
  refine hrequest.bind fun _ => hrequest.bind fun reply => ?_
  refine (Dbb.keeps_run _).bind fun sigs => keeps_forM fun e _ => ?_
  exact keeps_modify fun s hs => hs

end Run

/-- The parser and the upgrade to a transaction leave every scriptSig empty. -/
theorem blank_of_deserialize {R : Runtime} {psbt : PSBT} {s : Str}
    (h : PSBT.deserialize R {} s = .ok psbt) : Blank R psbt := by
  intro tx htx txin hmem
  by_cases hv : psbt.version = 0
  · rw [PSBT.getUnsignedTx, if_pos hv] at htx
    cases htx
    exact PSBT.tx_blank_of_deserialize h txin hmem
  · have hbip := PSBT.getUnsignedTx_bip370 hv (PSBT.outpointChecked_of_deserialize h hv) htx
    obtain ⟨i, -, hin⟩ := exists_of_forall₂_right hbip.vin hmem
    exact hin.scriptSig

/-- Every hash that is sent is, for its input and its key, the hash consensus has
a SIGHASH_ALL signature commit to, exactly when the input is hashed right. -/
theorem signTx_messages {R : Runtime} {psbt : PSBT} (hblank : Blank R psbt) (c : Dbb.Client)
    (registeredDescriptors : Bool) :
    Sends R c psbt ((Dbb.signTx R c registeredDescriptors).after { psbt }) := by
  have hstart : Sends R c psbt { psbt } := fun message h => absurd h List.not_mem_nil
  have hblankTx : Triple (· = { psbt }) (Dbb.signBlankTx R c) (fun _ => Sends R c psbt)
      fun _ => Sends R c psbt := by
    refine .get_bind fun s hs => ?_
    subst hs
    refine .bind (Dbb.run_spec.mono (fun _ hs => hs) (fun _ _ h => h) fun e s h => h.1 ▸ hstart) fun tx => ?_
    refine .assume fun htx => ?_
    -- what the question for the fingerprint returns is what it returns at the start
    have hfp := (keeps_getMasterFingerprint (c := c)).mono
      (fun (s : Dbb.State) (hs : s = { psbt }) => hs ▸ hstart) (fun _ _ h => h) fun _ _ h => h
    refine .bind (hfp.with_run.mono (fun _ hs => hs) (fun _ _ h => h) fun _ _ h => h.1) fun masterFp => ?_
    intro s hs
    have htups := sighashTuples_spec (R := R) masterFp (hblank tx htx) psbt.inputs 0
      fun k => by rw [Nat.zero_add]
    have hrest : Triple (Sends R c psbt)
        (do
          let tups ← Dbb.onBlankTx tx (sighashTuples R masterFp 0 psbt.inputs)
          forM (batches tups) (Dbb.signBatch c))
        (fun _ => Sends R c psbt) fun _ => Sends R c psbt := by
      refine .bind (onBlankTx_spec (fun _ _ hs => hs) htups) fun tups => .assume fun hgood => ?_
      exact keeps_forM fun batch hbatch =>
        keeps_signBatch htx hs.2 fun tup htup => hgood tup (mem_batches hbatch htup)
    exact hrest s hs.1
  rw [Dbb.signTx, Dbb.digitalbitboxException_after]
  refine Triple.after (P := (· = { psbt })) ?_ rfl
  unfold Dbb.signTxBody
  split_ifs
  · exact .bind (M := fun _ _ => False) (.throw fun s hs => hs ▸ hstart) fun _ s hs => hs.elim
  · exact hblankTx

/-! ### A PSBT with one input and one key of the device -/

def sampleInput (scriptPubKey : Bytes) : PartiallySignedInput :=
  { version := 2, prevTxid := List.replicate 32 7, prevOut := some 1
    witnessUtxo := some { nValue := 5, scriptPubKey }
    hdKeypaths := Dict.set ∅ (2 :: List.replicate 32 9) ⟨[1, 2, 3, 4], [0]⟩ }

def sample (scriptPubKey : Bytes) : PSBT :=
  { version := 2, explicitVersion := true, txVersion := some 2, inputs := [sampleInput scriptPubKey] }

def p2wpkhSample : Bytes := [0x00, 0x14] ++ List.replicate 20 8

def p2trSample : Bytes := [0x51, 0x20] ++ List.replicate 32 8

/-- A key of which the parent has the fingerprint `01020304`. -/
def fingerprintXpub : Str :=
  ("xpub67tvkXQTSXPP3ATYFQDNeoZhUKGxgj2JEpnyNL1tn9roDgysa1YR59VRkb8U3dssRhHqZURvp7wb52BdEtGKGiPPKbKg" ++
    "zbYAViNBXKuwM61").toList

/-- A device with this fingerprint that gives no signature. -/
def sampleDevice : Dbb.Client where
  chain := .main
  password := []
  stretchBackupKey s := s
  localtime := []
  reply sent :=
    if sent.getLast? = some (Dbb.xpubCommand "m/0h".toList) then [("xpub".toList, .str fingerprintXpub)]
    else [("sign".toList, .list [])]

def p2wpkhText : Str :=
  ("cHNidP8BAgQCAAAAAQQBAQEFAQAB+wQCAAAAAAEBHwUAAAAAAAAAFgAUCAgICAgICAgICAgICAgICAgICAgiBgIJCQkJCQkJCQkJ" ++
    "CQkJCQkJCQkJCQkJCQkJCQkJCQkJCQgBAgMEAAAAAAEOIAcHBwcHBwcHBwcHBwcHBwcHBwcHBwcHBwcHBwcHBwcHAQ8EAQAAAAA=").toList

def p2trText : Str :=
  ("cHNidP8BAgQCAAAAAQQBAQEFAQAB+wQCAAAAAAEBKwUAAAAAAAAAIlEgCAgICAgICAgICAgICAgICAgICAgICAgICAgICAgICAgi" ++
    "BgIJCQkJCQkJCQkJCQkJCQkJCQkJCQkJCQkJCQkJCQkJCQgBAgMEAAAAAAEOIAcHBwcHBwcHBwcHBwcHBwcHBwcHBwcHBwcHBwcH" ++
    "BwcHAQ8EAQAAAAA=").toList

theorem signTx_p2wpkhSample : Sends Runtime.zeros sampleDevice (sample p2wpkhSample)
    ((Dbb.signTx Runtime.zeros sampleDevice false).after { psbt := sample p2wpkhSample }) :=
  signTx_messages (blank_of_deserialize (s := p2wpkhText) (by decide +kernel)) sampleDevice false

def sampleTxIn : CTxIn :=
  { prevout := ⟨ofLE (List.replicate 32 7), 1⟩, nSequence := 0xffffffff }

def sampleTuple : SighashTuple where
  sighash := hexlify (List.replicate 32 0)
  keypath := "m/0".toList
  iNum := 0
  pubkey := 2 :: List.replicate 32 9

/-- A hash is sent, twice, for an input that spends a version 1 program, for
which there is no message. -/
theorem signTx_p2trSample : PSBT.deserialize Runtime.zeros {} p2trText = .ok (sample p2trSample) ∧
    ((Dbb.signTx Runtime.zeros sampleDevice false).after { psbt := sample p2trSample }).sent =
      [Dbb.xpubCommand "m/0h".toList, .text (signCommand [sampleTuple]), .text (signCommand [sampleTuple])] ∧
    (∃ tx, (sample p2trSample).getUnsignedTx Runtime.zeros = .ok tx ∧ tx.vin = [sampleTxIn]) ∧
    Spends sampleTxIn (sampleInput p2trSample) { nValue := 5, scriptPubKey := p2trSample } ∧
    WitnessProgram p2trSample 1 (List.replicate 32 8) ∧
    ∀ tx message, ¬SighashAllMessage Runtime.zeros tx 0 sampleTxIn
      { nValue := 5, scriptPubKey := p2trSample } [] [] message := by
  have hprog : WitnessProgram p2trSample 1 (List.replicate 32 8) := ⟨rfl, by decide, by decide, by decide⟩
  refine ⟨by decide +kernel, by decide +kernel, ?_, rfl, hprog, ?_⟩
  · exact ⟨{ nVersion := 2, vin := [sampleTxIn], sha256 := some 0, hash := some (List.replicate 32 0) },
      by decide +kernel, rfl⟩
  · intro tx message h
    cases h with
    | legacy hno => exact hno 1 _ hprog
    | p2wpkh hp => exact absurd (hp.unique hprog).1 (by decide)
    | p2wsh hp => exact absurd (hp.unique hprog).1 (by decide)

end DigitalbitboxClient

end Hwi
