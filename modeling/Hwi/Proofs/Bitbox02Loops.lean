import Hwi.Proofs.Bitbox02Config
import Hwi.Proofs.Bitbox02Sign
import Hwi.Proofs.UnsignedTx

/-! What the loops of `sign_tx` of the BitBox02 collect of the inputs and the outputs, and when
they end the call with a `BadArgumentError`. -/

namespace Hwi

namespace Bitbox02Client

open Bitbox02 Procedure

variable {R : Runtime} {chain : Chain} {device : Device} {masterFp : Bytes}
  {registered : List RegisteredDescriptor} {policyScriptConfig : Option BTCScriptConfigWithKeypath}
  {psbt : PSBT} {psbtIn : PartiallySignedInput} {psbtOut : PartiallySignedOutput} {s : Session}

/-! ### Chosen keys -/

theorem addTapKeypaths_ok {items : List (Bytes × OrderedSet Bytes × KeyOriginInfo)}
    (h : ∀ e ∈ items, e.2.1.elems = []) (keypaths : Dict Bytes KeyOriginInfo) :
    addTapKeypaths items keypaths = .ok (items.foldl (fun d e => d.set e.1 e.2.2) keypaths) := by
  induction items generalizing keypaths with
  | nil => rfl
  | cons e items ih =>
    rw [List.forall_mem_cons] at h
    rw [addTapKeypaths, if_neg (by simp [h.1]), ih h.2]
    rfl

theorem addTapKeypaths_error {items : List (Bytes × OrderedSet Bytes × KeyOriginInfo)}
    (h : ∃ e ∈ items, e.2.1.elems ≠ []) (keypaths : Dict Bytes KeyOriginInfo) :
    ∃ msg, addTapKeypaths items keypaths = .error (.badArgumentError msg) := by
  induction items generalizing keypaths with
  | nil => simp at h
  | cons e items ih =>
    rw [addTapKeypaths]
    split_ifs with hleaves
    · exact ⟨_, rfl⟩
    · refine ih ?_ _
      rcases List.exists_mem_cons_iff .. |>.1 h with he | hrest
      · exact absurd (List.length_pos_iff.2 he) hleaves
      · exact hrest

section Origins

variable {hdKeypaths : Dict Bytes KeyOriginInfo} {tapInternalKey : Bytes}
  {tapBip32Paths : Dict Bytes (OrderedSet Bytes × KeyOriginInfo)}

theorem keyOriginInfos_ok (h : ¬ScriptPath tapInternalKey tapBip32Paths) :
    keyOriginInfos hdKeypaths tapInternalKey tapBip32Paths =
      .ok (origins hdKeypaths tapInternalKey tapBip32Paths) := by
  unfold keyOriginInfos origins
  by_cases hkey : tapInternalKey = []
  · simp [hkey]
  · rw [if_pos (List.length_pos_iff.2 hkey), if_neg hkey]
    refine addTapKeypaths_ok (fun e he => ?_) hdKeypaths
    by_contra hleaves
    exact h ⟨hkey, e, he, hleaves⟩

theorem keyOriginInfos_error (h : ScriptPath tapInternalKey tapBip32Paths) :
    ∃ msg, keyOriginInfos hdKeypaths tapInternalKey tapBip32Paths =
      .error (.badArgumentError msg) := by
  unfold keyOriginInfos
  rw [if_pos (List.length_pos_iff.2 h.1)]
  exact addTapKeypaths_error h.2 hdKeypaths

end Origins

theorem findOurKey_eq_some {keypaths : Dict Bytes KeyOriginInfo} {pubkey : Bytes} {keypath : List ℤ} :
    findOurKey masterFp keypaths = some (pubkey, keypath) ↔ Chosen masterFp keypaths pubkey keypath := by
  unfold findOurKey
  rw [Option.map_eq_some_iff]
  constructor
  · rintro ⟨⟨pubkey', origin⟩, hfind, heq⟩
    cases heq
    obtain ⟨hfp, before, after, hitems, hbefore⟩ := List.find?_eq_some_iff_append.1 hfind
    refine ⟨before, origin, after, hitems, fun e he => ?_, by simpa using hfp, rfl⟩
    simpa using hbefore e he
  · rintro ⟨before, origin, after, hitems, hbefore, hfp, rfl⟩
    refine ⟨(pubkey, origin), List.find?_eq_some_iff_append.2 ⟨by simpa using hfp, before, after,
      hitems, fun e he => ?_⟩, rfl⟩
    simpa using hbefore e he

theorem Chosen.unique {keypaths : Dict Bytes KeyOriginInfo} {pubkey pubkey' : Bytes}
    {keypath keypath' : List ℤ} (h : Chosen masterFp keypaths pubkey keypath)
    (h' : Chosen masterFp keypaths pubkey' keypath') : pubkey = pubkey' ∧ keypath = keypath' := by
  rw [← findOurKey_eq_some] at h h'
  rw [h] at h'
  cases h'
  exact ⟨rfl, rfl⟩

theorem findOurKey_eq_none {keypaths : Dict Bytes KeyOriginInfo} : findOurKey masterFp keypaths = none ↔
    ∀ pubkey keypath, ¬Chosen masterFp keypaths pubkey keypath := by
  simp only [← findOurKey_eq_some]
  cases findOurKey masterFp keypaths with
  | none => simp
  | some found => exact iff_of_false (by simp) fun h => h found.1 found.2 rfl

/-! ### Inputs -/

theorem findUtxo_eq_ok {i n : ℕ} {utxo : CTxOut} (hn : psbtIn.prevOut = some n) :
    findUtxo i psbtIn n = .ok utxo ↔ Spends psbtIn utxo := by
  unfold findUtxo
  constructor
  · intro h
    split at h
    · rename_i tx htx
      split at h
      · cases h
      · rename_i sha256 hsha256
        split_ifs at h with hhash
        split at h
        · cases h
        · rename_i utxo' hutxo
          cases h
          exact .nonWitness htx hsha256 (not_not.1 hhash) hn hutxo
    · rename_i htx
      split at h
      · cases h
      · rename_i utxo' hutxo
        cases h
        exact .witness htx hutxo
  · intro h
    cases h with
    | nonWitness htx hsha256 hhash hn' hutxo =>
      rw [hn] at hn'
      cases hn'
      simp only [htx, hsha256, if_neg (not_not.2 hhash), hutxo]
    | witness htx hutxo => simp only [htx, hutxo]

theorem raising_findUtxo {i n : ℕ} : Raising Refusal (findUtxo i psbtIn n) ↔ SpendsRefused psbtIn := by
  unfold findUtxo
  constructor
  · intro h
    split at h
    · rename_i tx htx
      split at h
      · exact absurd (raising_error.1 h) not_refusal_assertionError
      · rename_i sha256 hsha256
        split_ifs at h with hhash
        · exact .wrongHash htx hsha256 hhash
        · split at h
          · exact absurd (raising_error.1 h) not_refusal_indexError
          · exact absurd h not_raising_ok
    · rename_i htx
      split at h
      · rename_i hutxo
        exact .missing htx hutxo
      · exact absurd h not_raising_ok
  · intro h
    cases h with
    | wrongHash htx hsha256 hhash =>
      simp only [htx, hsha256, if_pos hhash]
      exact raising_error.2 (.badArgument _)
    | missing htx hutxo =>
      simp only [htx, hutxo]
      exact raising_error.2 (.badArgument _)

theorem findInputKey_eq_ok {i : ℕ} {pubkey : Bytes} {keypath : List ℤ} :
    findInputKey i masterFp psbtIn = .ok (pubkey, keypath) ↔
      ¬ScriptPath psbtIn.tapInternalKey psbtIn.tapBip32Paths ∧
        InputKey masterFp psbtIn pubkey keypath ∧ pubkey ≠ [] := by
  by_cases hleaves : ScriptPath psbtIn.tapInternalKey psbtIn.tapBip32Paths
  · obtain ⟨msg, hmsg⟩ := @keyOriginInfos_error psbtIn.hdKeypaths _ _ hleaves
    unfold findInputKey
    rw [hmsg, error_bind]
    exact iff_of_false (by simp) fun h => h.1 hleaves
  · unfold findInputKey InputKey
    rw [keyOriginInfos_ok hleaves, ok_bind, ← findOurKey_eq_some]
    cases findOurKey masterFp _ with
    | none => simp
    | some found =>
      obtain ⟨pubkey', keypath'⟩ := found
      dsimp only
      split_ifs with hempty
      · refine iff_of_false (by simp) ?_
        rintro ⟨-, heq, hne⟩
        cases heq
        exact hne hempty
      · constructor
        · intro h
          cases h
          exact ⟨hleaves, rfl, hempty⟩
        · rintro ⟨-, heq, -⟩
          cases heq
          rfl

theorem raising_findInputKey {i : ℕ} : Raising Refusal (findInputKey i masterFp psbtIn) ↔
    ScriptPath psbtIn.tapInternalKey psbtIn.tapBip32Paths ∨
      ¬ScriptPath psbtIn.tapInternalKey psbtIn.tapBip32Paths ∧
        ∀ pubkey keypath, InputKey masterFp psbtIn pubkey keypath → pubkey = [] := by
  by_cases hleaves : ScriptPath psbtIn.tapInternalKey psbtIn.tapBip32Paths
  · obtain ⟨msg, hmsg⟩ := @keyOriginInfos_error psbtIn.hdKeypaths _ _ hleaves
    unfold findInputKey
    rw [hmsg, error_bind, raising_error]
    exact iff_of_true (.badArgument msg) (Or.inl hleaves)
  · rw [or_iff_right hleaves, and_iff_right hleaves]
    unfold findInputKey InputKey
    rw [keyOriginInfos_ok hleaves, ok_bind]
    simp only [← findOurKey_eq_some]
    cases findOurKey masterFp _ with
    | none =>
      rw [throw_eq_error, raising_error]
      exact iff_of_true (.badArgument _) (by simp)
    | some found =>
      obtain ⟨pubkey', keypath'⟩ := found
      dsimp only
      split_ifs with hempty
      · rw [throw_eq_error, raising_error]
        refine iff_of_true (.badArgument _) fun pubkey keypath heq => ?_
        cases heq
        exact hempty
      · exact iff_of_false not_raising_ok fun h => hempty (h _ _ rfl)

/-- What is looked up for an input that the loop gets to the account check of. -/
structure LooksUp (masterFp : Bytes) (psbtIn : PartiallySignedInput) (found : FoundInput) : Prop where
  given : Given psbtIn
  sighash : SighashAll psbtIn
  utxo : Spends psbtIn found.utxo
  leaves : ¬ScriptPath psbtIn.tapInternalKey psbtIn.tapBip32Paths
  key : InputKey masterFp psbtIn found.foundPubkey found.keypath
  pubkey : found.foundPubkey ≠ []
  account : found.keypath[2]? = some found.account

theorem sighashAll_iff : SighashAll psbtIn ↔ ¬(psbtIn.sighash.getD 0 ≠ 0 ∧ psbtIn.sighash ≠ some 1) := by
  unfold SighashAll
  cases psbtIn.sighash with
  | none => simp
  | some sighash =>
    simp only [reduceCtorEq, Option.some.injEq, Option.getD_some, false_or, ne_eq]
    tauto

/-- What the lookup of an input says, in the order in which it is done. -/
theorem findInput_of_given {i prevOut sequence : ℕ} (hprevOut : psbtIn.prevOut = some prevOut)
    (hsequence : psbtIn.sequence = some sequence) (hsighash : SighashAll psbtIn) :
    findInput i masterFp psbtIn = (do
      let utxo ← findUtxo i psbtIn prevOut
      let (foundPubkey, keypath) ← findInputKey i masterFp psbtIn
      let account ← accountOf keypath
      return { prevOut, sequence, utxo, foundPubkey, keypath, account }) := by
  unfold findInput
  rw [hprevOut, hsequence]
  exact if_neg (sighashAll_iff.1 hsighash)

theorem accountOf_eq_ok {keypath : List ℤ} {account : ℤ} :
    accountOf keypath = .ok account ↔ keypath[2]? = some account := by
  unfold accountOf
  cases keypath[2]? <;> simp

theorem not_raising_accountOf (keypath : List ℤ) : ¬Raising Refusal (accountOf keypath) := by
  unfold accountOf
  cases keypath[2]? with
  | none => exact fun h => not_refusal_indexError (raising_error.1 h)
  | some account => exact not_raising_ok

theorem LooksUp.findInput {found : FoundInput} (h : LooksUp masterFp psbtIn found) (i : ℕ) :
    ∃ found', findInput i masterFp psbtIn = .ok found' ∧ found'.utxo = found.utxo ∧
      found'.keypath = found.keypath ∧ found'.account = found.account := by
  obtain ⟨prevOut, hprevOut⟩ := Option.ne_none_iff_exists'.1 h.given.1
  obtain ⟨sequence, hsequence⟩ := Option.ne_none_iff_exists'.1 h.given.2
  rw [findInput_of_given hprevOut hsequence h.sighash, (findUtxo_eq_ok hprevOut).2 h.utxo, ok_bind,
    findInputKey_eq_ok.2 ⟨h.leaves, h.key, h.pubkey⟩, ok_bind]
  dsimp only
  rw [accountOf_eq_ok.2 h.account]
  exact ⟨_, rfl, rfl, rfl, rfl⟩

theorem looksUp_of_findInput {i : ℕ} {found : FoundInput}
    (h : findInput i masterFp psbtIn = .ok found) : LooksUp masterFp psbtIn found := by
  have hgiven : ∃ prevOut sequence, psbtIn.prevOut = some prevOut ∧ psbtIn.sequence = some sequence := by
    unfold findInput at h
    split at h
    · rename_i hprevOut hsequence
      exact ⟨_, _, hprevOut, hsequence⟩
    · cases h
  obtain ⟨prevOut, sequence, hprevOut, hsequence⟩ := hgiven
  have hsighash : SighashAll psbtIn := by
    rw [sighashAll_iff]
    intro hother
    unfold findInput at h
    simp only [hprevOut, hsequence, if_pos hother] at h
    cases h
  rw [findInput_of_given hprevOut hsequence hsighash] at h
  obtain ⟨utxo, hutxo, h⟩ := bind_eq_ok.1 h
  obtain ⟨⟨pubkey, keypath⟩, hkey, h⟩ := bind_eq_ok.1 h
  obtain ⟨account, haccount, h⟩ := bind_eq_ok.1 h
  cases h
  obtain ⟨hleaves, hkey, hpubkey⟩ := findInputKey_eq_ok.1 hkey
  exact ⟨by simp [Given, hprevOut, hsequence], hsighash, (findUtxo_eq_ok hprevOut).1 hutxo, hleaves, hkey,
    hpubkey, accountOf_eq_ok.1 haccount⟩

/-- An input that is refused before its account is looked at. -/
inductive LookupRefused (masterFp : Bytes) (psbtIn : PartiallySignedInput) : Prop
  | sighash (hgiven : Given psbtIn) (hsighash : ¬SighashAll psbtIn)
  | utxo (hgiven : Given psbtIn) (hsighash : SighashAll psbtIn) (hutxo : SpendsRefused psbtIn)
  | leaves {utxo : CTxOut} (hgiven : Given psbtIn) (hsighash : SighashAll psbtIn)
      (hutxo : Spends psbtIn utxo) (hleaves : ScriptPath psbtIn.tapInternalKey psbtIn.tapBip32Paths)
  | key {utxo : CTxOut} (hgiven : Given psbtIn) (hsighash : SighashAll psbtIn)
      (hutxo : Spends psbtIn utxo) (hleaves : ¬ScriptPath psbtIn.tapInternalKey psbtIn.tapBip32Paths)
      (hkey : ∀ pubkey keypath, InputKey masterFp psbtIn pubkey keypath → pubkey = [])

theorem raising_findInput {i : ℕ} :
    Raising Refusal (findInput i masterFp psbtIn) ↔ LookupRefused masterFp psbtIn := by
  by_cases hgiven : ∃ prevOut sequence, psbtIn.prevOut = some prevOut ∧ psbtIn.sequence = some sequence
  · obtain ⟨prevOut, sequence, hprevOut, hsequence⟩ := hgiven
    have hgiven : Given psbtIn := by simp [Given, hprevOut, hsequence]
    by_cases hsighash : SighashAll psbtIn
    · rw [findInput_of_given hprevOut hsequence hsighash]
      have hrest : ∀ utxo, Raising Refusal (do
          let (foundPubkey, keypath) ← findInputKey i masterFp psbtIn
          let account ← accountOf keypath
          return ({ prevOut, sequence, utxo, foundPubkey, keypath, account } : FoundInput)) ↔
          Raising Refusal (findInputKey i masterFp psbtIn) := fun utxo =>
        raising_bind_left fun key _ => not_raising_bind (not_raising_accountOf _) fun _ _ =>
          not_raising_ok
      simp only [raising_bind (x := findUtxo i psbtIn prevOut), raising_findUtxo,
        findUtxo_eq_ok hprevOut, hrest, raising_findInputKey]
      constructor
      · rintro (hutxo | ⟨utxo, hutxo, hleaves | ⟨hleaves, hkey⟩⟩)
        · exact .utxo hgiven hsighash hutxo
        · exact .leaves hgiven hsighash hutxo hleaves
        · exact .key hgiven hsighash hutxo hleaves hkey
      · intro h
        cases h with
        | sighash _ hother => exact absurd hsighash hother
        | utxo _ _ hutxo => exact Or.inl hutxo
        | leaves _ _ hutxo hleaves => exact Or.inr ⟨_, hutxo, Or.inl hleaves⟩
        | key _ _ hutxo hleaves hkey => exact Or.inr ⟨_, hutxo, Or.inr ⟨hleaves, hkey⟩⟩
    · unfold findInput
      rw [hprevOut, hsequence]
      simp only [if_pos (not_not.1 (mt sighashAll_iff.2 hsighash)), raising_error]
      exact iff_of_true (.badArgument _) (.sighash hgiven hsighash)
  · have hnot : ¬Given psbtIn := fun h => hgiven <| by
      obtain ⟨prevOut, hprevOut⟩ := Option.ne_none_iff_exists'.1 h.1
      obtain ⟨sequence, hsequence⟩ := Option.ne_none_iff_exists'.1 h.2
      exact ⟨prevOut, sequence, hprevOut, hsequence⟩
    refine iff_of_false ?_ fun h => ?_
    · unfold findInput
      split
      · rename_i hprevOut hsequence
        exact absurd ⟨_, _, hprevOut, hsequence⟩ hgiven
      · exact fun h => not_refusal_assertionError (raising_error.1 h)
    · cases h with
      | sighash h => exact hnot h
      | utxo h => exact hnot h
      | leaves h => exact hnot h
      | key h => exact hnot h

/-! ### One pass of each loop -/

/-- What a session has gathered. -/
structure Gathers (psbt : PSBT) (seen : Seen) (s : Session) : Prop where
  psbt : s.psbt = psbt
  requests : s.requests = seen.requests
  account : s.bip44Account = seen.account
  nodup : s.scriptConfigs.Nodup
  configs : ∀ config, config ∈ s.scriptConfigs ↔ config ∈ seen.configs

theorem checkAccount_eq_ok {a : Option ℤ} {account : ℤ} {a' : Option ℤ} :
    checkAccount a account = .ok a' ↔ (∀ b, a = some b → b = account) ∧ a' = some account := by
  unfold checkAccount
  cases a with
  | none => simp [eq_comm]
  | some b =>
    dsimp only
    split_ifs with hne
    · exact iff_of_false (by simp) fun h => hne (h.1 b rfl)
    · obtain rfl := not_not.1 hne
      simp [eq_comm]

theorem raising_checkAccount {a : Option ℤ} {account : ℤ} :
    Raising Refusal (checkAccount a account) ↔ ∃ b, a = some b ∧ b ≠ account := by
  unfold checkAccount
  cases a with
  | none => exact iff_of_false not_raising_ok (by simp)
  | some b =>
    dsimp only
    split_ifs with hne
    · rw [raising_error]
      exact iff_of_true (.badArgument _) ⟨b, rfl, hne⟩
    · exact iff_of_false not_raising_ok (by simpa using hne)

/-- One more configuration. -/
theorem Gathers.add {seen : Seen} (hs : Gathers psbt seen s) {config : BTCScriptConfigWithKeypath}
    {requests : List Request} {s' : Session} {account : Option ℤ} (hpsbt : s'.psbt = s.psbt)
    (hrequests : s'.requests = requests) (haccount : s'.bip44Account = account)
    (hconfigs : s'.scriptConfigs = (addScriptConfig config s.scriptConfigs).2) :
    Gathers psbt { requests, account, configs := seen.configs ++ [config] } s' where
  psbt := hpsbt.trans hs.psbt
  requests := hrequests
  account := haccount
  nodup := hconfigs ▸ nodup_intern hs.nodup
  configs config' := by
    rw [hconfigs, addScriptConfig, mem_intern, hs.configs, List.mem_append, List.mem_singleton]

theorem inputPasses_iff {xpub : Dict Bytes KeyOriginInfo} {seen seen' : Seen} :
    InputPasses R chain device masterFp policyScriptConfig xpub psbtIn seen seen' ↔
      ∃ found, LooksUp masterFp psbtIn found ∧ (∀ a, seen.account = some a → a = found.account) ∧
        ∃ config requests, ConfigFound R chain device masterFp policyScriptConfig xpub
          found.utxo.scriptPubKey found.keypath psbtIn.redeemScript psbtIn.witnessScript seen.requests
          config requests ∧
        seen' = { requests, account := some found.account, configs := seen.configs ++ [config] } := by
  constructor
  · rintro @⟨utxo, pubkey, keypath, account, config, requests, hgiven, hsighash, hutxo, hleaves,
      hkey, hpubkey, haccount, hsame, hconfig⟩
    exact ⟨{ prevOut := 0, sequence := 0, utxo, foundPubkey := pubkey, keypath, account },
      ⟨hgiven, hsighash, hutxo, hleaves, hkey, hpubkey, haccount⟩, hsame, config, requests, hconfig, rfl⟩
  · rintro ⟨found, h, hsame, config, requests, hconfig, rfl⟩
    exact .mk h.given h.sighash h.utxo h.leaves h.key h.pubkey h.account hsame hconfig

theorem inputRefused_iff {xpub : Dict Bytes KeyOriginInfo} {seen : Seen} :
    InputRefused R chain device masterFp policyScriptConfig xpub psbtIn seen ↔
      LookupRefused masterFp psbtIn ∨ ∃ found, LooksUp masterFp psbtIn found ∧
        ((∃ a, seen.account = some a ∧ a ≠ found.account) ∨
          (∀ a, seen.account = some a → a = found.account) ∧
            ConfigRefused R chain device masterFp policyScriptConfig xpub found.utxo.scriptPubKey
              psbtIn.redeemScript psbtIn.witnessScript seen.requests) := by
  constructor
  · intro h
    cases h with
    | sighash hgiven hsighash => exact Or.inl (.sighash hgiven hsighash)
    | utxo hgiven hsighash hutxo => exact Or.inl (.utxo hgiven hsighash hutxo)
    | leaves hgiven hsighash hutxo hleaves => exact Or.inl (.leaves hgiven hsighash hutxo hleaves)
    | key hgiven hsighash hutxo hleaves hkey => exact Or.inl (.key hgiven hsighash hutxo hleaves hkey)
    | @account utxo pubkey keypath account a hgiven hsighash hutxo hleaves hkey hpubkey haccount
        hseen hne =>
      exact Or.inr ⟨{ prevOut := 0, sequence := 0, utxo, foundPubkey := pubkey, keypath, account },
        ⟨hgiven, hsighash, hutxo, hleaves, hkey, hpubkey, haccount⟩, Or.inl ⟨a, hseen, hne⟩⟩
    | @config utxo pubkey keypath account hgiven hsighash hutxo hleaves hkey hpubkey haccount hsame
        hconfig =>
      exact Or.inr ⟨{ prevOut := 0, sequence := 0, utxo, foundPubkey := pubkey, keypath, account },
        ⟨hgiven, hsighash, hutxo, hleaves, hkey, hpubkey, haccount⟩, Or.inr ⟨hsame, hconfig⟩⟩
  · rintro (h | ⟨found, h, ⟨a, hseen, hne⟩ | ⟨hsame, hconfig⟩⟩)
    · cases h with
      | sighash hgiven hsighash => exact .sighash hgiven hsighash
      | utxo hgiven hsighash hutxo => exact .utxo hgiven hsighash hutxo
      | leaves hgiven hsighash hutxo hleaves => exact .leaves hgiven hsighash hutxo hleaves
      | key hgiven hsighash hutxo hleaves hkey => exact .key hgiven hsighash hutxo hleaves hkey
    · exact .account h.given h.sighash h.utxo h.leaves h.key h.pubkey h.account hseen hne
    · exact .config h.given h.sighash h.utxo h.leaves h.key h.pubkey h.account hsame hconfig

/-- What is collected of an input whose account may be signed with. -/
theorem outcome_addInput {seen : Seen} {found : FoundInput} {account : Option ℤ}
    (hfp : ∀ requests fp, device requests .rootFingerprint = .ok fp → fp = masterFp)
    (hs : Gathers psbt seen s) :
    Outcome (fun e _ => Refusal e) (do
      let config ← scriptConfigFromUtxo R chain device policyScriptConfig s.psbt.xpub found.utxo
        found.keypath psbtIn.redeemScript psbtIn.witnessScript
      modify fun s =>
        let (scriptConfigIndex, scriptConfigs) := addScriptConfig config s.scriptConfigs
        { s with
          foundPubkeys := s.foundPubkeys ++ [found.foundPubkey]
          bip44Account := account
          scriptConfigs
          inputs := s.inputs ++ [inputEntry psbtIn found scriptConfigIndex] }) s
      (fun seen' => ∃ r : BTCScriptConfigWithKeypath × List Request,
        ConfigFound R chain device masterFp policyScriptConfig s.psbt.xpub found.utxo.scriptPubKey
          found.keypath psbtIn.redeemScript psbtIn.witnessScript s.requests r.1 r.2 ∧
        seen' = { requests := r.2, account, configs := seen.configs ++ [r.1] })
      (fun seen' _ s' => Gathers psbt seen' s')
      (ConfigRefused R chain device masterFp policyScriptConfig s.psbt.xpub found.utxo.scriptPubKey
          psbtIn.redeemScript psbtIn.witnessScript s.requests ∨
        ∃ r : BTCScriptConfigWithKeypath × List Request, ConfigFound R chain device masterFp
          policyScriptConfig s.psbt.xpub found.utxo.scriptPubKey found.keypath psbtIn.redeemScript
          psbtIn.witnessScript s.requests r.1 r.2 ∧ False) := by
  refine Outcome.bind (asking_scriptConfigFromUtxo hfp) ?_
  rintro ⟨_, requests⟩ config _ - ⟨rfl, rfl⟩
  exact Outcome.modify (hs.add rfl rfl rfl rfl)

theorem outcome_signInput {seen : Seen} {i : ℕ}
    (hfp : ∀ requests fp, device requests .rootFingerprint = .ok fp → fp = masterFp)
    (hs : Gathers psbt seen s) :
    Outcome (fun e _ => Refusal e) (signInput R chain device policyScriptConfig masterFp psbtIn i) s
      (InputPasses R chain device masterFp policyScriptConfig psbt.xpub psbtIn seen)
      (fun seen' _ s' => Gathers psbt seen' s')
      (InputRefused R chain device masterFp policyScriptConfig psbt.xpub psbtIn seen) := by
  refine Outcome.congr (Outcome.ofExcept_bind fun found hfound => Outcome.get_bind
    (Outcome.ofExcept_bind fun account _ => outcome_addInput hfp hs)) (fun seen' => ?_) ?_
  · rw [inputPasses_iff, ← hs.psbt, ← hs.requests, ← hs.account]
    constructor
    · rintro ⟨found, hfound, account, haccount, ⟨config, requests⟩, hconfig, rfl⟩
      obtain ⟨hsame, rfl⟩ := checkAccount_eq_ok.1 haccount
      exact ⟨found, looksUp_of_findInput hfound, hsame, config, requests, hconfig, rfl⟩
    · rintro ⟨found, h, hsame, config, requests, hconfig, rfl⟩
      obtain ⟨found', hfound, hutxo, hkeypath, haccount⟩ := h.findInput i
      rw [← hutxo, ← hkeypath] at hconfig
      rw [← haccount] at hsame ⊢
      exact ⟨found', hfound, _, checkAccount_eq_ok.2 ⟨hsame, rfl⟩, (config, requests), hconfig, rfl⟩
  · rw [inputRefused_iff, ← hs.psbt, ← hs.requests, ← hs.account, raising_findInput]
    simp only [raising_checkAccount, and_false, exists_false, or_false]
    refine or_congr_right ?_
    constructor
    · rintro ⟨found, hfound, hdiffer | ⟨account, haccount, hconfig⟩⟩
      · exact ⟨found, looksUp_of_findInput hfound, Or.inl hdiffer⟩
      · exact ⟨found, looksUp_of_findInput hfound,
          Or.inr ⟨(checkAccount_eq_ok.1 haccount).1, hconfig⟩⟩
    · rintro ⟨found, h, hrefused⟩
      obtain ⟨found', hfound, hutxo, -, haccount⟩ := h.findInput i
      rw [← hutxo, ← haccount] at hrefused
      rcases hrefused with hdiffer | ⟨hsame, hconfig⟩
      · exact ⟨found', hfound, Or.inl hdiffer⟩
      · exact ⟨found', hfound, Or.inr ⟨_, checkAccount_eq_ok.2 ⟨hsame, rfl⟩, hconfig⟩⟩

/-! ### Outputs -/

theorem isChange_iff {keypath : List ℤ} :
    IsChange keypath ↔ ∃ address start, keypath.reverse = address :: 1 :: start := by
  constructor
  · rintro ⟨start, address, rfl⟩
    exact ⟨address, start.reverse, by simp⟩
  · rintro ⟨address, start, h⟩
    refine ⟨start.reverse, address, ?_⟩
    rw [← List.reverse_reverse keypath, h]
    simp

theorem changeKeypath_of_none {keypaths : Dict Bytes KeyOriginInfo}
    (h : ∀ pubkey keypath, ¬Chosen masterFp keypaths pubkey keypath) :
    changeKeypath masterFp keypaths = .ok none := by
  unfold changeKeypath
  rw [findOurKey_eq_none.2 h]

theorem changeKeypath_of_chosen {keypaths : Dict Bytes KeyOriginInfo} {pubkey : Bytes}
    {keypath : List ℤ} (h : Chosen masterFp keypaths pubkey keypath) :
    (IsChange keypath ∧ changeKeypath masterFp keypaths = .ok (some keypath)) ∨
      (¬IsChange keypath ∧ keypath.length ≠ 1 ∧ changeKeypath masterFp keypaths = .ok none) ∨
      ¬IsChange keypath ∧ keypath.length = 1 ∧ changeKeypath masterFp keypaths = .error .indexError := by
  unfold changeKeypath
  rw [findOurKey_eq_some.2 h, isChange_iff, ← List.length_reverse]
  dsimp only
  rcases keypath.reverse with _ | ⟨address, _ | ⟨change, start⟩⟩
  · exact Or.inr (Or.inl ⟨by simp, by simp, rfl⟩)
  · exact Or.inr (Or.inr ⟨by simp, by simp, rfl⟩)
  · by_cases hchange : change = 1
    · subst hchange
      exact Or.inl ⟨⟨address, start, rfl⟩, by simp⟩
    · refine Or.inr (Or.inl ⟨?_, by simp, by simp [hchange]⟩)
      rintro ⟨address', start', heq⟩
      cases heq
      exact hchange rfl

/-- What is done with an output: it is change, it is not, or the path of its key is too short. -/
inductive OutputKind (masterFp : Bytes) (psbtOut : PartiallySignedOutput) :
    Except Exc (Option (List ℤ)) → Prop
  | change {pubkey : Bytes} {keypath : List ℤ} (hkey : OutputKey masterFp psbtOut pubkey keypath)
      (hchange : IsChange keypath) : OutputKind masterFp psbtOut (.ok (some keypath))
  | external (hkey : NotChange masterFp psbtOut) : OutputKind masterFp psbtOut (.ok none)
  | short {pubkey : Bytes} {keypath : List ℤ} (hkey : OutputKey masterFp psbtOut pubkey keypath)
      (hlen : keypath.length = 1) (hchange : ¬IsChange keypath) :
      OutputKind masterFp psbtOut (.error .indexError)

theorem outputKind_changeKeypath : OutputKind masterFp psbtOut (changeKeypath masterFp
    (origins psbtOut.hdKeypaths psbtOut.tapInternalKey psbtOut.tapBip32Paths)) := by
  by_cases hkey : ∃ pubkey keypath, OutputKey masterFp psbtOut pubkey keypath
  · obtain ⟨pubkey, keypath, hkey⟩ := hkey
    rcases changeKeypath_of_chosen hkey with ⟨hchange, heq⟩ | ⟨hchange, hlen, heq⟩ | ⟨hchange, hlen, heq⟩
    · rw [heq]
      exact .change hkey hchange
    · rw [heq]
      refine .external fun pubkey' keypath' hkey' => ?_
      rw [(hkey'.unique hkey).2]
      exact ⟨hlen, hchange⟩
    · rw [heq]
      exact .short hkey hlen hchange
  · push Not at hkey
    rw [changeKeypath_of_none hkey]
    exact .external fun pubkey keypath h => absurd h (hkey pubkey keypath)

theorem externalOutput_ok {i : ℕ} {txOut : CTxOut} (h : KnownScript txOut.scriptPubKey) :
    ∃ output, externalOutput i txOut = .ok output := by
  unfold externalOutput
  dsimp only
  split_ifs with h₁ h₂ h₃ h₄ h₅
  · exact ⟨_, rfl⟩
  · exact ⟨_, rfl⟩
  · exact ⟨_, rfl⟩
  · exact ⟨_, rfl⟩
  · exact ⟨_, rfl⟩
  · simp [KnownScript, h₁, h₂, h₃, h₄, h₅] at h

theorem externalOutput_error {i : ℕ} {txOut : CTxOut} (h : ¬KnownScript txOut.scriptPubKey) :
    ∃ msg, externalOutput i txOut = .error (.badArgumentError msg) := by
  simp only [KnownScript, not_or] at h
  unfold externalOutput
  dsimp only
  rw [if_neg h.1, if_neg h.2.1, if_neg h.2.2.1, if_neg h.2.2.2.1, if_neg h.2.2.2.2]
  exact ⟨_, rfl⟩

theorem getTxout_of_payable (h : Payable psbtOut) :
    ∃ txOut, psbtOut.getTxout = .ok txOut ∧ txOut.scriptPubKey = psbtOut.script := by
  obtain ⟨amount, hamount⟩ := Option.ne_none_iff_exists'.1 h.1
  unfold PartiallySignedOutput.getTxout
  rw [hamount]
  exact ⟨_, if_pos (by simpa using h.2), rfl⟩

theorem getTxout_of_not_payable (h : ¬Payable psbtOut) :
    psbtOut.getTxout = .error .assertionError := by
  unfold PartiallySignedOutput.getTxout
  cases hamount : psbtOut.amount with
  | none => rfl
  | some amount =>
    refine if_neg fun hscript => h ⟨by simp [hamount], ?_⟩
    simpa using hscript

theorem outcome_signChange {seen : Seen} {txOut : CTxOut} {keypath : List ℤ}
    (hfp : ∀ requests fp, device requests .rootFingerprint = .ok fp → fp = masterFp)
    (hs : Gathers psbt seen s) :
    Outcome (fun e _ => Refusal e) (do
        let s ← get
        let config ← scriptConfigFromUtxo R chain device policyScriptConfig s.psbt.xpub txOut keypath
          psbtOut.redeemScript psbtOut.witnessScript
        modify fun s =>
          let (scriptConfigIndex, scriptConfigs) := addScriptConfig config s.scriptConfigs
          { s with
            scriptConfigs
            outputs := s.outputs ++ [.internal keypath txOut.nValue scriptConfigIndex] }) s
      (fun seen' => ∃ r : BTCScriptConfigWithKeypath × List Request,
        ConfigFound R chain device masterFp policyScriptConfig psbt.xpub txOut.scriptPubKey keypath
          psbtOut.redeemScript psbtOut.witnessScript seen.requests r.1 r.2 ∧
        seen' = { seen with requests := r.2, configs := seen.configs ++ [r.1] })
      (fun seen' _ s' => Gathers psbt seen' s')
      (ConfigRefused R chain device masterFp policyScriptConfig psbt.xpub txOut.scriptPubKey
        psbtOut.redeemScript psbtOut.witnessScript seen.requests) := by
  obtain rfl := hs.psbt
  rw [← hs.requests]
  have hstep : ∀ (r : BTCScriptConfigWithKeypath × List Request) config s',
      config = r.1 ∧ s' = { s with requests := r.2 } → Outcome (fun e _ => Refusal e)
        (modify fun s =>
          let (scriptConfigIndex, scriptConfigs) := addScriptConfig config s.scriptConfigs
          { s with
            scriptConfigs
            outputs := s.outputs ++ [.internal keypath txOut.nValue scriptConfigIndex] }) s'
        (fun seen' => seen' = { seen with requests := r.2, configs := seen.configs ++ [r.1] })
        (fun seen' _ s' => Gathers s.psbt seen' s') False := by
    rintro ⟨_, requests⟩ config _ ⟨rfl, rfl⟩
    exact Outcome.modify (hs.add rfl rfl hs.account rfl)
  refine Outcome.get_bind (Outcome.congr (Outcome.bind (asking_scriptConfigFromUtxo hfp)
    fun r config s' _ h => hstep r config s' h) (fun seen' => Iff.rfl) ?_)
  simp

theorem outcome_signOutput {seen : Seen} {i : ℕ}
    (hfp : ∀ requests fp, device requests .rootFingerprint = .ok fp → fp = masterFp)
    (hs : Gathers psbt seen s) :
    Outcome (fun e _ => Refusal e) (signOutput R chain device policyScriptConfig masterFp psbtOut i) s
      (OutputPasses R chain device masterFp policyScriptConfig psbt.xpub psbtOut seen)
      (fun seen' _ s' => Gathers psbt seen' s')
      (OutputRefused R chain device masterFp policyScriptConfig psbt.xpub psbtOut seen) := by
  unfold signOutput
  by_cases hpayable : Payable psbtOut
  · obtain ⟨txOut, htxOut, hscript⟩ := getTxout_of_payable hpayable
    by_cases hleaves : ScriptPath psbtOut.tapInternalKey psbtOut.tapBip32Paths
    · obtain ⟨msg, hmsg⟩ := @keyOriginInfos_error psbtOut.hdKeypaths _ _ hleaves
      rw [findOutput, htxOut, ok_bind, hmsg, error_bind]
      refine (Outcome.error_bind _).congr (fun seen' => iff_of_false id fun h => ?_)
        (iff_of_true (.badArgument msg) (.leaves hpayable hleaves))
      cases h with
      | change _ hnot => exact hnot hleaves
      | external _ hnot => exact hnot hleaves
    · have hfind : findOutput masterFp psbtOut = (do
          let change ← changeKeypath masterFp
            (origins psbtOut.hdKeypaths psbtOut.tapInternalKey psbtOut.tapBip32Paths)
          return (txOut, change)) := by
        rw [findOutput, htxOut, ok_bind, keyOriginInfos_ok hleaves, ok_bind]
      rw [hfind]
      have hkind := @outputKind_changeKeypath masterFp psbtOut
      generalize changeKeypath masterFp _ = change at hkind
      cases hkind with
      | @change pubkey keypath hkey hchange =>
        refine Outcome.ok_bind ((outcome_signChange hfp hs).congr (fun seen' => ?_) ?_)
        · rw [hscript]
          constructor
          · rintro ⟨⟨config, requests⟩, hconfig, rfl⟩
            exact .change hpayable hleaves hkey hchange hconfig
          · intro h
            cases h with
            | change _ _ hkey' _ hconfig =>
              obtain ⟨-, rfl⟩ := hkey'.unique hkey
              exact ⟨(_, _), hconfig, rfl⟩
            | external _ _ hnot => exact absurd hchange (hnot _ _ hkey).2
        · rw [hscript]
          constructor
          · exact .config hpayable hleaves hkey hchange
          · intro h
            cases h with
            | leaves _ h => exact absurd h hleaves
            | config _ _ _ _ hconfig => exact hconfig
            | external _ _ hnot => exact absurd hchange (hnot _ _ hkey).2
      | external hkey =>
        have hnot : ∀ pubkey keypath, OutputKey masterFp psbtOut pubkey keypath → ¬IsChange keypath :=
          fun pubkey keypath h => (hkey pubkey keypath h).2
        refine Outcome.ok_bind ?_
        by_cases hknown : KnownScript psbtOut.script
        · obtain ⟨output, houtput⟩ := @externalOutput_ok i txOut (hscript ▸ hknown)
          dsimp only
          rw [houtput]
          refine Outcome.ok_bind ((Outcome.modify (r := seen) ?_).congr (fun seen' => ?_)
            (iff_of_false id fun h => ?_))
          · exact ⟨hs.psbt, hs.requests, hs.account, hs.nodup, hs.configs⟩
          · constructor
            · rintro rfl
              exact .external hpayable hleaves hkey hknown
            · intro h
              cases h with
              | change _ _ hkey' hchange => exact absurd hchange (hnot _ _ hkey')
              | external => rfl
          · cases h with
            | leaves _ h => exact hleaves h
            | config _ _ hkey' hchange => exact hnot _ _ hkey' hchange
            | external _ _ _ h => exact h hknown
        · obtain ⟨msg, hmsg⟩ := @externalOutput_error i txOut (hscript ▸ hknown)
          dsimp only
          rw [hmsg]
          refine (Outcome.error_bind _).congr (fun seen' => iff_of_false id fun h => ?_)
            (iff_of_true (.badArgument msg) (.external hpayable hleaves hkey hknown))
          cases h with
          | change _ _ hkey' hchange => exact hnot _ _ hkey' hchange
          | external _ _ _ h => exact hknown h
      | short hkey hlen hchange =>
        refine (Outcome.error_bind _).congr (fun seen' => iff_of_false id fun h => ?_)
          (iff_of_false not_refusal_indexError fun h => ?_)
        · cases h with
          | change _ _ hkey' h => exact hchange ((hkey'.unique hkey).2 ▸ h)
          | external _ _ h => exact (h _ _ hkey).1 hlen
        · cases h with
          | leaves _ h => exact hleaves h
          | config _ _ hkey' h => exact hchange ((hkey'.unique hkey).2 ▸ h)
          | external _ _ h => exact (h _ _ hkey).1 hlen
  · rw [findOutput, getTxout_of_not_payable hpayable, error_bind]
    refine (Outcome.error_bind _).congr (fun seen' => iff_of_false id fun h => ?_)
      (iff_of_false not_refusal_assertionError fun h => ?_)
    · cases h with
      | change h => exact hpayable h
      | external h => exact hpayable h
    · cases h with
      | leaves h => exact hpayable h
      | config h => exact hpayable h
      | external h => exact hpayable h

/-! ### The loops -/

theorem outcome_inputs {seen : Seen}
    (hfp : ∀ requests fp, device requests .rootFingerprint = .ok fp → fp = masterFp)
    (hs : Gathers psbt seen s) :
    Outcome (fun e _ => Refusal e) (forM psbt.inputs.zipIdx fun (psbtIn, inputIndex) =>
        signInput R chain device policyScriptConfig masterFp psbtIn inputIndex) s
      (Steps (InputPasses R chain device masterFp policyScriptConfig psbt.xpub) psbt.inputs seen)
      (fun seen' _ s' => Gathers psbt seen' s')
      (FirstStop (InputPasses R chain device masterFp policyScriptConfig psbt.xpub)
        (InputRefused R chain device masterFp policyScriptConfig psbt.xpub) psbt.inputs seen) := by
  exact Outcome.loop_zipIdx (J := Gathers psbt) (fun _ _ _ _ hs => outcome_signInput hfp hs) hs

theorem outcome_outputs {seen : Seen}
    (hfp : ∀ requests fp, device requests .rootFingerprint = .ok fp → fp = masterFp)
    (hs : Gathers psbt seen s) :
    Outcome (fun e _ => Refusal e) (forM psbt.outputs.zipIdx fun (psbtOut, outputIndex) =>
        signOutput R chain device policyScriptConfig masterFp psbtOut outputIndex) s
      (Steps (OutputPasses R chain device masterFp policyScriptConfig psbt.xpub) psbt.outputs seen)
      (fun seen' _ s' => Gathers psbt seen' s')
      (FirstStop (OutputPasses R chain device masterFp policyScriptConfig psbt.xpub)
        (OutputRefused R chain device masterFp policyScriptConfig psbt.xpub) psbt.outputs seen) := by
  exact Outcome.loop_zipIdx (J := Gathers psbt) (fun _ _ _ _ hs => outcome_signOutput hfp hs) hs

/-- The loop over the inputs leaves an account if there are any. -/
theorem account_eq_none_iff {xpub : Dict Bytes KeyOriginInfo} {ins : List PartiallySignedInput}
    {seen seen' : Seen}
    (h : Steps (InputPasses R chain device masterFp policyScriptConfig xpub) ins seen seen') :
    seen'.account = none ↔ ins = [] ∧ seen.account = none := by
  induction h with
  | nil => simp
  | cons hstep _ ih =>
    cases hstep
    rw [ih]
    simp

theorem account_of_outputs {xpub : Dict Bytes KeyOriginInfo} {outs : List PartiallySignedOutput}
    {seen seen' : Seen}
    (h : Steps (OutputPasses R chain device masterFp policyScriptConfig xpub) outs seen seen') :
    seen'.account = seen.account := by
  induction h with
  | nil => rfl
  | cons hstep _ ih =>
    rw [ih]
    cases hstep with
    | change => rfl
    | external => rfl

end Bitbox02Client

end Hwi
