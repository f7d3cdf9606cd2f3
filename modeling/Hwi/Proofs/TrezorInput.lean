import Hwi.Format.TrezorRequest
import Hwi.Proofs.Multisig
import Hwi.Proofs.Trezor

/-! Which inputs a signing call gets past, which of them it ignores, and which end it
with an exception that is not reported. -/

namespace Hwi

open Trezor

namespace TrezorClient

variable {R : Runtime} {chain : Chain} {external : Bool} {masterFp : Bytes}
  {xpub hdKeypaths : Dict Bytes KeyOriginInfo}

/-! ### Extended keys -/

theorem deserialize_xpubText (xpub : Bytes) :
    ExtendedKey.deserialize (xpubText R xpub) = ExtendedKey.fromBytes xpub := by
  have hlen : ((R.hash256 xpub).take 4).length = 4 := by
    rw [List.length_take, R.hash256_length]
    rfl
  unfold ExtendedKey.deserialize xpubText
  rw [Base58.decode_encode_any, ok_bind, List.length_append, hlen, Nat.add_sub_cancel,
    List.take_left]

/-- Bytes that are no extended key are refused, but for those that end too early. -/
theorem raising_fromBytes {data : Bytes} :
    Raising (fun e => ¬Rejected e) (ExtendedKey.fromBytes data) ↔ XpubCut data := by
  unfold ExtendedKey.fromBytes
  change Raising _ (if data.take 4 ∉ ExtendedKey.versions then _ else _) ↔ _
  by_cases hversion : data.take 4 ∈ ExtendedKey.versions
  · rw [if_neg (not_not.2 hversion)]
    by_cases hlen : data.length < 13
    · refine iff_of_true ?_ ⟨hversion, hlen⟩
      cases hdepth : data[4]? with
      | none => exact raising_error.2 (by simp [Rejected, Exc.isHWWError, Exc.isValueError])
      | some depth =>
        have hcut : ((data.drop 9).take 4).reverse.length ≠ 4 := by
          rw [List.length_reverse, List.length_take, List.length_drop]
          omega
        dsimp only
        rw [pure_eq_ok, ok_bind, unpack, if_neg hcut]
        exact raising_error.2 (by simp [Rejected, Exc.isHWWError, Exc.isValueError])
    · refine iff_of_false ?_ fun h => hlen h.length
      have hchild : ((data.drop 9).take 4).reverse.length = 4 := by
        rw [List.length_reverse, List.length_take, List.length_drop]
        omega
      rw [List.getElem?_eq_getElem (by omega)]
      dsimp only
      rw [pure_eq_ok, ok_bind, unpack, if_pos hchild, ok_bind]
      split_ifs
      · rw [raising_bind_pure]
        cases Curve.pointMul Curve.G (Base58.toInt (data.drop 46)) with
        | none => exact fun h => raising_error.1 h (Or.inr rfl)
        | some P => exact not_raising_ok
      · exact not_raising_ok
  · rw [if_pos hversion]
    exact iff_of_false (fun h => raising_error.1 h (Or.inl rfl)) fun h => hversion h.version

/-! ### The xpubs of a key -/

section

variable {derivation : KeyOriginInfo} {pub : HDNodePathType}

theorem findNode_isOk_iff {xpubs : List (Bytes × KeyOriginInfo)} :
    (∃ node, findNode R derivation pub xpubs = .ok node) ↔ XpubsRead derivation xpubs := by
  induction xpubs with
  | nil => exact iff_of_true ⟨pub, rfl⟩ upTo_nil
  | cons entry xpubs ih =>
    obtain ⟨xpub, origin⟩ := entry
    rw [findNode_cons, deserialize_xpubText, exists_bind_eq_ok, XpubsRead, upTo_cons, ← XpubsRead,
      ← ih, ← ExtendedKey.fromBytes_isOk_iff]
    by_cases hstart : StartsAt derivation origin
    · simp [hstart]
    · simp [hstart]

theorem raising_findNode {xpubs : List (Bytes × KeyOriginInfo)} :
    Raising (fun e => ¬Rejected e) (findNode R derivation pub xpubs) ↔ XpubsCut derivation xpubs := by
  induction xpubs with
  | nil => exact iff_of_false not_raising_ok not_firstBad_nil
  | cons entry xpubs ih =>
    obtain ⟨xpub, origin⟩ := entry
    rw [findNode_cons, deserialize_xpubText, raising_bind, raising_fromBytes, XpubsCut, firstBad_cons,
      ← XpubsCut, ← ih, ← ExtendedKey.fromBytes_isOk_iff]
    by_cases hstart : StartsAt derivation origin
    · simp [hstart, not_raising_ok]
    · simp [hstart]

end

theorem keyNode_isOk_iff {key : Bytes} :
    (∃ node, keyNode R xpub hdKeypaths key = .ok node) ↔ KeyRead xpub hdKeypaths key := by
  unfold keyNode KeyRead
  cases hder : hdKeypaths.get? key with
  | none => simp
  | some derivation => simp [findNode_isOk_iff]

theorem raising_keyNode {key : Bytes} :
    Raising (fun e => ¬Rejected e) (keyNode R xpub hdKeypaths key) ↔ KeyCut xpub hdKeypaths key := by
  unfold keyNode KeyCut
  cases hder : hdKeypaths.get? key with
  | none => simp [not_raising_ok]
  | some derivation => simp [raising_findNode]

/-! ### Multisig scripts -/

section

variable {script : Bytes}

/-- What the driver makes of a script: it is too short or no multisig script, it is
cut off, or the xpubs of its keys are looked up. -/
theorem parseMultisig_driver_cases (R : Runtime) (xpub hdKeypaths : Dict Bytes KeyOriginInfo)
    (script : Bytes) :
    (parseMultisig R script xpub hdKeypaths = .ok none ∧ ¬TakenForMultisig script ∧
      (37 ≤ script.length → ¬MultisigCut script)) ∨
    (parseMultisig R script xpub hdKeypaths = .error .indexError ∧ 37 ≤ script.length ∧
      MultisigCut script) ∨
    ∃ m keys, 37 ≤ script.length ∧ MultisigShaped script keys ∧
      parseMultisig R script xpub hdKeypaths = (do
        let pubkeys ← keys.mapM (keyNode R xpub hdKeypaths)
        return some { m, signatures := List.replicate keys.length [], pubkeys }) := by
  by_cases hlen : script.length < 37
  · refine Or.inl ⟨?_, fun h => absurd h.1 (not_le.2 hlen), fun h => absurd h (not_le.2 hlen)⟩
    rw [parseMultisig, if_pos hlen]
    rfl
  have hne : script ≠ [] := by
    rintro rfl
    exact hlen (by decide)
  rw [not_lt] at hlen
  rcases parseMultisig_cases hne with hcut | ⟨keys, hkeys⟩ | hnone
  · refine Or.inr (Or.inl ⟨?_, hlen, hcut⟩)
    rw [parseMultisig, if_neg (not_lt.2 hlen), hcut.parse]
    rfl
  · obtain ⟨m, hm⟩ := hkeys.parse
    refine Or.inr (Or.inr ⟨m, keys, hlen, hkeys, ?_⟩)
    rw [parseMultisig, if_neg (not_lt.2 hlen), hm]
    rfl
  · refine Or.inl ⟨parseMultisig_none hnone, ?_, fun _ hcut => ?_⟩
    · rintro ⟨-, keys, hkeys⟩
      obtain ⟨m, hm⟩ := hkeys.parse
      rw [hm] at hnone
      cases hnone
    · rw [hcut.parse] at hnone
      cases hnone

theorem parseMultisig_isOk_iff :
    (∃ found, parseMultisig R script xpub hdKeypaths = .ok found) ↔
      ScriptRead xpub hdKeypaths script := by
  rcases parseMultisig_driver_cases R xpub hdKeypaths script with
    ⟨hparse, hnot, hwhole⟩ | ⟨hparse, hlen, hcut⟩ | ⟨m, keys, hlen, hkeys, hparse⟩
  · exact iff_of_true ⟨none, hparse⟩
      ⟨hwhole, fun hlen keys hkeys => absurd ⟨hlen, keys, hkeys⟩ hnot⟩
  · refine iff_of_false ?_ fun h => h.whole hlen hcut
    rintro ⟨found, hfound⟩
    rw [hparse] at hfound
    cases hfound
  · rw [hparse, exists_bind_eq_ok]
    simp only [pure_eq_ok, Except.ok.injEq, exists_eq', and_true]
    rw [exists_mapM_eq_ok]
    simp only [keyNode_isOk_iff]
    constructor
    · intro h
      refine ⟨fun _ hcut => hcut.not_shaped hkeys, fun _ keys' hkeys' => ?_⟩
      rw [hkeys'.unique hkeys]
      exact h
    · intro h
      exact h.keys hlen keys hkeys

theorem raising_parseMultisig :
    Raising (fun e => ¬Rejected e) (parseMultisig R script xpub hdKeypaths) ↔
      ScriptCut xpub hdKeypaths script := by
  rcases parseMultisig_driver_cases R xpub hdKeypaths script with
    ⟨hparse, hnot, hwhole⟩ | ⟨hparse, hlen, hcut⟩ | ⟨m, keys, hlen, hkeys, hparse⟩
  · rw [hparse]
    refine iff_of_false not_raising_ok fun h => ?_
    cases h with
    | script hlen hcut => exact hwhole hlen hcut
    | key hlen hkeys _ => exact hnot ⟨hlen, _, hkeys⟩
  · rw [hparse]
    refine iff_of_true (raising_error.2 ?_) (.script hlen hcut)
    simp [Rejected, Exc.isHWWError, Exc.isValueError]
  · rw [hparse, raising_bind_pure,
      raising_mapM (fun _ _ => keyNode_isOk_iff) (fun _ _ => raising_keyNode)]
    constructor
    · intro h
      exact .key hlen hkeys h
    · intro h
      cases h with
      | script _ hcut => exact absurd hkeys hcut.not_shaped
      | key _ hkeys' h =>
        rw [hkeys.unique hkeys']
        exact h

theorem parseMultisig_isSome {found : Option MultisigRedeemScriptType}
    (h : parseMultisig R script xpub hdKeypaths = .ok found) :
    found.isSome = true ↔ TakenForMultisig script := by
  rcases parseMultisig_driver_cases R xpub hdKeypaths script with
    ⟨hparse, hnot, -⟩ | ⟨hparse, -⟩ | ⟨m, keys, hlen, hkeys, hparse⟩
  · rw [hparse] at h
    cases h
    exact iff_of_false Bool.false_ne_true hnot
  · rw [hparse] at h
    cases h
  · rw [hparse] at h
    obtain ⟨pubkeys, -, h⟩ := bind_eq_ok.1 h
    cases h
    exact iff_of_true rfl ⟨hlen, keys, hkeys⟩

end

/-! ### The check of the scripts -/

section

variable {psbtIn : PartiallySignedInput} {spent : CTxOut}

theorem noProgram_iff {script : Bytes} : NoProgram script ↔ (isWitness script).1 = false := by
  rw [← Bool.not_eq_true, isWitness_fst_iff, NoProgram]
  push Not
  rfl

theorem isWitness_of_isP2wsh {script : Bytes} (h : isP2wsh script = true) :
    (isWitness script).1 = true := by
  rw [isP2wsh, decide_eq_true_iff] at h
  exact h.1

/-- Which scripts are ignored, by what the driver asks about them. -/
theorem ignoredScript_iff : IgnoredScript psbtIn spent ↔
    (TakenForMultisig (scriptCode psbtIn spent) ∧
      (isWitness (spendScript spent psbtIn.redeemScript)).1 = false ∧
        isP2sh spent.scriptPubKey = false) ∨
    (¬TakenForMultisig (scriptCode psbtIn spent) ∧
      ((isWitness (spendScript spent psbtIn.redeemScript)).1 = false ∧
          isP2pkh (scriptCode psbtIn spent) = false ∨
        isP2wsh (spendScript spent psbtIn.redeemScript) = true)) := by
  have hplain : (isWitness (spendScript spent psbtIn.redeemScript)).1 = false →
      scriptCode psbtIn spent = spendScript spent psbtIn.redeemScript := by
    intro hwit
    refine if_neg fun hwsh => ?_
    rw [isWitness_of_isP2wsh hwsh] at hwit
    cases hwit
  have hwsh : isP2wsh (spendScript spent psbtIn.redeemScript) = true →
      scriptCode psbtIn spent = psbtIn.witnessScript := fun h => if_pos h
  have hnative : isP2sh spent.scriptPubKey = false →
      spendScript spent psbtIn.redeemScript = spent.scriptPubKey := by
    intro h
    rw [spendScript, if_neg (by rw [h]; exact Bool.false_ne_true)]
  constructor
  · intro h
    cases h with
    | bareMultisig hprogram hp2sh hmultisig =>
      rw [noProgram_iff, ← hnative hp2sh] at hprogram
      rw [← hnative hp2sh, ← hplain hprogram] at hmultisig
      exact Or.inl ⟨hmultisig, hprogram, hp2sh⟩
    | unknown hprogram hp2pkh hmultisig =>
      rw [noProgram_iff] at hprogram
      rw [← hplain hprogram] at hp2pkh hmultisig
      exact Or.inr ⟨hmultisig, Or.inl ⟨hprogram, hp2pkh⟩⟩
    | unknownWitness hp2wsh hmultisig =>
      rw [← hwsh hp2wsh] at hmultisig
      exact Or.inr ⟨hmultisig, Or.inr hp2wsh⟩
  · rintro (⟨hmultisig, hprogram, hp2sh⟩ | ⟨hmultisig, ⟨hprogram, hp2pkh⟩ | hp2wsh⟩)
    · rw [hplain hprogram, hnative hp2sh] at hmultisig
      rw [← noProgram_iff, hnative hp2sh] at hprogram
      exact .bareMultisig hprogram hp2sh hmultisig
    · rw [hplain hprogram] at hp2pkh hmultisig
      exact .unknown (noProgram_iff.2 hprogram) hp2pkh hmultisig
    · rw [hwsh hp2wsh] at hmultisig
      exact .unknownWitness hp2wsh hmultisig

/-- A script that can be read is signed, or it is one to ignore: the input is left
to others, or rejected. -/
theorem checkScript_cases {found : Option MultisigRedeemScriptType} (tx : TxInputType)
    (hfound : parseMultisig R (scriptCode psbtIn spent) xpub psbtIn.hdKeypaths = .ok found) :
    (IgnoredScript psbtIn spent ∧ external = false ∧ Raising Rejected
      (checkScript R external xpub psbtIn.hdKeypaths spent (spendOf psbtIn spent) tx)) ∨
    (IgnoredScript psbtIn spent ∧ external = true ∧ ∃ tx',
      checkScript R external xpub psbtIn.hdKeypaths spent (spendOf psbtIn spent) tx = .ok (tx', true)) ∨
    (¬IgnoredScript psbtIn spent ∧ ∃ tx',
      checkScript R external xpub psbtIn.hdKeypaths spent (spendOf psbtIn spent) tx =
        .ok (tx', false)) := by
  have hmultisig := parseMultisig_isSome hfound
  rw [ignoredScript_iff, ← hmultisig]
  unfold checkScript
  simp only [spendOf, hfound, ok_bind]
  cases found with
  | none =>
    simp only [Option.isSome_none, Bool.false_eq_true, false_and, not_false_eq_true, true_and, false_or]
    rcases Bool.eq_false_or_eq_true (isWitness (spendScript spent psbtIn.redeemScript)).1 with
      hwit | hwit
    · rcases Bool.eq_false_or_eq_true (isP2wsh (spendScript spent psbtIn.redeemScript)) with
        hwsh | hwsh
      · cases external <;> simp [hwit, hwsh, raising_error, Rejected, Exc.isHWWError]
      · simp [hwit, hwsh]
    · have hwsh : isP2wsh (spendScript spent psbtIn.redeemScript) = false := by
        rw [← Bool.not_eq_true]
        intro h
        rw [isWitness_of_isP2wsh h] at hwit
        cases hwit
      rcases Bool.eq_false_or_eq_true (isP2pkh (scriptCode psbtIn spent)) with hpkh | hpkh
      · simp [hwit, hwsh, hpkh]
      · cases external <;> simp [hwit, hwsh, hpkh, raising_error, Rejected, Exc.isHWWError]
  | some multisig =>
    rcases Bool.eq_false_or_eq_true (isWitness (spendScript spent psbtIn.redeemScript)).1 with
      hwit | hwit
    · simp [hwit]
    · rcases Bool.eq_false_or_eq_true (isP2sh spent.scriptPubKey) with hp2sh | hp2sh
      · simp [hwit, hp2sh]
      · cases external <;> simp [hwit, hp2sh, raising_error, Rejected, Exc.isHWWError]

/-! ### The search for a key -/

theorem spendType_taproot {p2sh : Bool} {script : Bytes} :
    spendType p2sh (isWitness script).1 (isWitness script).2.1 = .SPENDTAPROOT ↔
      ∃ prog, WitnessProgram script 1 prog := by
  rcases hwit : isWitness script with ⟨wit, v, prog⟩
  cases wit with
  | false =>
    refine iff_of_false (by simp [spendType]) ?_
    rintro ⟨q, hq⟩
    exact not_witnessProgram_of_isWitness (congrArg Prod.fst hwit) 1 q hq
  | true =>
    have hw := isWitness_eq_true_iff.1 hwit
    constructor
    · intro h
      rcases v with _ | _ | v
      · cases p2sh <;> simp [spendType] at h
      · exact ⟨prog, hw⟩
      · simp [spendType] at h
    · rintro ⟨q, hq⟩
      obtain ⟨rfl, rfl⟩ := hw.unique hq
      simp [spendType]

/-- The input is sent as a Taproot input if it is signed as one. -/
theorem checkScript_taproot {tx tx' : TxInputType} {ignored : Bool}
    (htype : tx.scriptType = (spendOf psbtIn spent).scriptType)
    (h : checkScript R external xpub psbtIn.hdKeypaths spent (spendOf psbtIn spent) tx =
      .ok (tx', ignored)) :
    tx'.scriptType = .SPENDTAPROOT ↔ SignsTaproot psbtIn spent := by
  unfold SignsTaproot
  rcases checkScript_scriptType h with heq | ⟨heq, hwit⟩
  · rw [heq, htype]
    exact spendType_taproot
  · rw [heq]
    refine iff_of_false (by simp) ?_
    rintro ⟨prog, hw⟩
    exact not_witnessProgram_of_isWitness hwit 1 prog hw

theorem searchSchnorr_cases (masterFp tapInternalKey : Bytes) (k : KeySearch) :
    ∀ items : List (Bytes × OrderedSet Bytes × KeyOriginInfo),
      (∃ e ∈ items, (e.1 = tapInternalKey ∧ e.2.2.fingerprint = masterFp) ∧
        (searchSchnorr masterFp tapInternalKey items k).found = some e.2.2.path) ∨
      (∀ e ∈ items, ¬(e.1 = tapInternalKey ∧ e.2.2.fingerprint = masterFp)) ∧
        searchSchnorr masterFp tapInternalKey items k = k
  | [] => Or.inr ⟨by simp, rfl⟩
  | (key, leafHashes, origin) :: rest => by
    unfold searchSchnorr
    split_ifs with hkey
    · exact Or.inl ⟨_, List.mem_cons_self, hkey, rfl⟩
    · rcases searchSchnorr_cases masterFp tapInternalKey k rest with ⟨e, he, hown⟩ | ⟨hnone, hk⟩
      · exact Or.inl ⟨e, List.mem_cons_of_mem _ he, hown⟩
      · exact Or.inr ⟨List.forall_mem_cons.2 ⟨hkey, hnone⟩, hk⟩

theorem searchEcdsa_pathLastOurs (masterFp : Bytes) (partialSigs : Dict Bytes Bytes) :
    ∀ (items : List (Bytes × KeyOriginInfo)) (k : KeySearch),
      (searchEcdsa masterFp partialSigs items k).pathLastOurs = none ↔
        k.pathLastOurs = none ∧ ∀ e ∈ items, e.2.fingerprint ≠ masterFp
  | [], k => by simp [searchEcdsa]
  | (key, keypath) :: rest, k => by
    unfold searchEcdsa
    rw [searchEcdsa_pathLastOurs masterFp partialSigs rest]
    split_ifs with hfp hsig
    · simp [hfp]
    · simp [hfp]
    · simp [hfp]

/-- What the search for a key comes to. -/
theorem searchKey_cases {T : InputScriptType} (hT : T = .SPENDTAPROOT ↔ SignsTaproot psbtIn spent) :
    (¬NoKeyLeft masterFp psbtIn spent ∧ OwnKey masterFp psbtIn spent ∧
      ∃ path, (searchKey masterFp psbtIn T).found = some path) ∨
    (NoKeyLeft masterFp psbtIn spent ∧ (searchKey masterFp psbtIn T).found = none ∧
      ((OwnKey masterFp psbtIn spent ∧ (searchKey masterFp psbtIn T).foundInSigs = true ∧
          ∃ path, (searchKey masterFp psbtIn T).pathLastOurs = some path) ∨
        (¬OwnKey masterFp psbtIn spent ∧ (searchKey masterFp psbtIn T).pathLastOurs = none ∧
          ((searchKey masterFp psbtIn T).foundInSigs = true ↔
            SignsTaproot psbtIn spent ∧ psbtIn.tapKeySig ≠ [])))) := by
  by_cases htap : SignsTaproot psbtIn spent
  · have hleft : NoKeyLeft masterFp psbtIn spent ↔ ¬OwnInternalKey masterFp psbtIn :=
      ⟨fun h => h.taproot htap, fun h => ⟨fun _ => h, fun hnot => absurd htap hnot⟩⟩
    have hown : OwnKey masterFp psbtIn spent ↔ OwnInternalKey masterFp psbtIn :=
      ⟨fun h => h.taproot htap, fun h => ⟨fun _ => h, fun hnot => absurd htap hnot⟩⟩
    rw [searchKey, if_pos (hT.2 htap), hleft, hown]
    rcases searchSchnorr_cases masterFp psbtIn.tapInternalKey
      { foundInSigs := psbtIn.tapKeySig.length > 0 } psbtIn.tapBip32Paths.items with
      ⟨e, he, hkey, hfound⟩ | ⟨hnone, hk⟩
    · have hinternal : OwnInternalKey masterFp psbtIn := ⟨e, he, hkey⟩
      exact Or.inl ⟨not_not.2 hinternal, hinternal, _, hfound⟩
    · have hinternal : ¬OwnInternalKey masterFp psbtIn := fun ⟨e, he, hkey⟩ => hnone e he hkey
      rw [hk]
      refine Or.inr ⟨hinternal, rfl, Or.inr ⟨hinternal, rfl, ?_⟩⟩
      simp [htap, List.length_pos_iff]
  · have hleft : NoKeyLeft masterFp psbtIn spent ↔ unsignedKeys masterFp psbtIn = [] :=
      ⟨fun h => h.ecdsa htap, fun h => ⟨fun hsign => absurd hsign htap, fun _ => h⟩⟩
    have hown : OwnKey masterFp psbtIn spent ↔
        ∃ e ∈ psbtIn.hdKeypaths.items, e.2.fingerprint = masterFp :=
      ⟨fun h => h.ecdsa htap, fun h => ⟨fun hsign => absurd hsign htap, fun _ => h⟩⟩
    have hlast := searchEcdsa_pathLastOurs masterFp psbtIn.partialSigs psbtIn.hdKeypaths.items {}
    obtain ⟨-, -, hsigs⟩ := searchEcdsa_eq masterFp psbtIn.partialSigs psbtIn.hdKeypaths.items {}
    have hne : T ≠ .SPENDTAPROOT := fun h => htap (hT.1 h)
    rw [hleft, hown, (searchKey_ecdsa masterFp psbtIn hne).1, searchKey, if_neg hne, hsigs]
    cases hkeys : unsignedKeys masterFp psbtIn with
    | cons e rest =>
      have hmem : e ∈ unsignedKeys masterFp psbtIn := hkeys ▸ List.mem_cons_self
      rw [unsignedKeys, List.mem_filter, Bool.and_eq_true, decide_eq_true_iff] at hmem
      exact Or.inl ⟨List.cons_ne_nil _ _, ⟨e, hmem.1, hmem.2.1⟩, _, rfl⟩
    | nil =>
      refine Or.inr ⟨rfl, rfl, ?_⟩
      by_cases hkey : ∃ e ∈ psbtIn.hdKeypaths.items, e.2.fingerprint = masterFp
      · refine Or.inl ⟨hkey, ?_, Option.ne_none_iff_exists'.1 fun hnone => ?_⟩
        · obtain ⟨e, he, hfp⟩ := hkey
          -- a key of the device that is not among the unsigned ones has signed
          have hsigned := (List.filter_eq_nil_iff.1 hkeys) e he
          rw [Bool.false_or, List.any_eq_true]
          refine ⟨e, he, ?_⟩
          simpa [hfp] using hsigned
        · obtain ⟨e, he, hfp⟩ := hkey
          exact (hlast.1 hnone).2 e he hfp
      · push Not at hkey
        refine Or.inr ⟨by push Not; exact hkey, hlast.2 ⟨rfl, hkey⟩, ?_⟩
        refine iff_of_false (fun h => ?_) fun h => htap h.1
        rw [Bool.false_or, List.any_eq_true] at h
        obtain ⟨e, he, hown⟩ := h
        rw [Bool.and_eq_true, decide_eq_true_iff] at hown
        exact hkey e he hown.1

/-- An input of which the scripts are signed is streamed with the path of a key that is
left, or ignored where another key has signed or others can, or else rejected. -/
theorem prepareKey_cases {inputNum : ℕ} {tx : TxInputType}
    (htap : tx.scriptType = .SPENDTAPROOT ↔ SignsTaproot psbtIn spent) :
    (∃ st, prepareKey chain external masterFp inputNum psbtIn tx = .ok st ∧
      (st.ignored = true ↔ NoKeyLeft masterFp psbtIn spent) ∧
      (OwnKey masterFp psbtIn spent ∨ external = true ∧ ¬OwnKey masterFp psbtIn spent ∧
        (SignsTaproot psbtIn spent → psbtIn.tapKeySig = []))) ∨
    (Raising Rejected (prepareKey chain external masterFp inputNum psbtIn tx) ∧ external = false ∧
      ¬OwnKey masterFp psbtIn spent ∧ (SignsTaproot psbtIn spent → psbtIn.tapKeySig = [])) ∨
    (prepareKey chain external masterFp inputNum psbtIn tx = .error .assertionError ∧
      ¬OwnKey masterFp psbtIn spent ∧ SignsTaproot psbtIn spent ∧ psbtIn.tapKeySig ≠ []) := by
  unfold prepareKey
  rcases @searchKey_cases masterFp _ _ _ htap with
    ⟨hleft, hown, path, hfound⟩ | ⟨hleft, hfound, ⟨hown, hsigs, path, hpath⟩ | ⟨hown, hpath, hsigs⟩⟩
  · simp only [hfound]
    exact Or.inl ⟨_, rfl, iff_of_false Bool.false_ne_true hleft, Or.inl hown⟩
  · simp only [hfound, hsigs, hpath]
    exact Or.inl ⟨_, rfl, iff_of_true rfl hleft, Or.inl hown⟩
  · simp only [hfound, hpath]
    by_cases hsigned : SignsTaproot psbtIn spent ∧ psbtIn.tapKeySig ≠ []
    · rw [hsigs.2 hsigned]
      exact Or.inr (Or.inr ⟨rfl, hown, hsigned⟩)
    · have hnot : (searchKey masterFp psbtIn tx.scriptType).foundInSigs = false := by
        rw [← Bool.not_eq_true, hsigs]
        exact hsigned
      have hempty : SignsTaproot psbtIn spent → psbtIn.tapKeySig = [] := by
        intro h
        by_contra hne
        exact hsigned ⟨h, hne⟩
      rw [hnot]
      cases external with
      | true => exact Or.inl ⟨_, rfl, iff_of_true rfl hleft, Or.inr ⟨rfl, hown, hempty⟩⟩
      | false => exact Or.inr (Or.inl ⟨raising_error.2 (Or.inl rfl), rfl, hown, hempty⟩)

/-! ### One input -/

theorem IgnoredScript.not_signsTaproot (h : IgnoredScript psbtIn spent) : ¬SignsTaproot psbtIn spent := by
  rintro ⟨prog, hw⟩
  have hwit := isWitness_eq_true_iff.2 hw
  rcases ignoredScript_iff.1 h with ⟨-, hnot, -⟩ | ⟨-, ⟨hnot, -⟩ | hwsh⟩
  · rw [hwit] at hnot
    cases hnot
  · rw [hwit] at hnot
    cases hnot
  · simp [isP2wsh, hwit] at hwsh

theorem Streams.unique {spent' : CTxOut} (h : Streams psbtIn spent) (h' : Streams psbtIn spent') :
    spent = spent' := Option.some.inj (h.spent.symm.trans h'.spent)

theorem Streams.scriptsThere (h : Streams psbtIn spent) : ScriptsThere psbtIn spent := by
  obtain ⟨spent', hspent', hthere⟩ := h.streamable
  obtain rfl := Option.some.inj (h.spent.symm.trans hspent')
  exact hthere

/-- An input that spends an output is ignored for its script, or because no key is left. -/
theorem Streams.signatureIgnored_iff (h : Streams psbtIn spent) :
    SignatureIgnored masterFp psbtIn ↔
      IgnoredScript psbtIn spent ∨ NoKeyLeft masterFp psbtIn spent := by
  constructor
  · rintro ⟨-, spent', hspent', hignored⟩
    rwa [Option.some.inj (h.spent.symm.trans hspent')]
  · exact fun hignored => ⟨h.streamable, spent, h.spent, hignored⟩

/-- What is made of an input whose output and scripts are there. -/
def streamInput (R : Runtime) (chain : Chain) (external : Bool) (masterFp : Bytes)
    (xpub : Dict Bytes KeyOriginInfo) (inputNum : ℕ) (psbtIn : PartiallySignedInput) (spent : CTxOut)
    (tx : TxInputType) : Except Exc Streamed := do
  let (tx', ignored) ← checkScript R external xpub psbtIn.hdKeypaths spent (spendOf psbtIn spent) tx
  if ignored then return ignoreInput chain inputNum tx'
  else prepareKey chain external masterFp inputNum psbtIn tx'

theorem streamInput_verdict (hstreams : Streams psbtIn spent) {inputNum : ℕ} {tx : TxInputType}
    (htype : tx.scriptType = (spendOf psbtIn spent).scriptType) :
    Verdict Rejected (streamInput R chain external masterFp xpub inputNum psbtIn spent tx)
      (fun st => st.ignored = true ↔ SignatureIgnored masterFp psbtIn)
      (ScriptRead xpub psbtIn.hdKeypaths (scriptCode psbtIn spent) ∧
        Handled external masterFp psbtIn spent)
      (ScriptCut xpub psbtIn.hdKeypaths (scriptCode psbtIn spent) ∨
        ScriptRead xpub psbtIn.hdKeypaths (scriptCode psbtIn spent) ∧ SignsTaproot psbtIn spent ∧
          ¬OwnInternalKey masterFp psbtIn ∧ psbtIn.tapKeySig ≠ []) := by
  have hignored := @Streams.signatureIgnored_iff masterFp _ _ hstreams
  cases hparse : parseMultisig R (scriptCode psbtIn spent) xpub psbtIn.hdKeypaths with
  | error e =>
    have hread : ¬ScriptRead xpub psbtIn.hdKeypaths (scriptCode psbtIn spent) := by
      rw [← parseMultisig_isOk_iff (R := R), hparse]
      rintro ⟨_, h⟩
      cases h
    have hcut := @raising_parseMultisig R xpub psbtIn.hdKeypaths (scriptCode psbtIn spent)
    rw [hparse, raising_error] at hcut
    have herror : streamInput R chain external masterFp xpub inputNum psbtIn spent tx = .error e := by
      unfold streamInput checkScript
      simp only [spendOf, hparse, error_bind]
    by_cases he : Rejected e
    · refine .raised (herror ▸ raising_error.2 he) (fun h => hread h.1) ?_
      rintro (h | h)
      · exact hcut.2 h he
      · exact hread h.1
    · exact .fault (herror ▸ raising_error.2 he) (fun h => hread h.1) (Or.inl (hcut.1 he))
  | ok found =>
    have hread := parseMultisig_isOk_iff.1 ⟨found, hparse⟩
    have hcut : ¬ScriptCut xpub psbtIn.hdKeypaths (scriptCode psbtIn spent) := by
      rw [← raising_parseMultisig (R := R), hparse]
      exact not_raising_ok
    simp only [hread, hcut, true_and, false_or]
    unfold streamInput
    rcases @checkScript_cases _ external _ _ _ _ tx hparse with
      ⟨hscript, rfl, hcheck⟩ | ⟨hscript, rfl, tx', hcheck⟩ | ⟨hscript, tx', hcheck⟩
    · refine .raised (raising_bind.2 (Or.inl hcheck)) (fun h => ?_)
        fun h => hscript.not_signsTaproot h.1
      cases h with
      | own hnot _ => exact hnot hscript
      | ignored hexternal _ => cases hexternal
      | foreign hexternal _ _ => cases hexternal
    · rw [hcheck]
      exact .ok rfl (iff_of_true rfl (hignored.2 (Or.inl hscript))) (.ignored rfl hscript)
        fun h => hscript.not_signsTaproot h.1
    · rw [hcheck]
      simp only [hscript, false_or] at hignored
      rw [hignored]
      have hown : SignsTaproot psbtIn spent →
          (OwnKey masterFp psbtIn spent ↔ OwnInternalKey masterFp psbtIn) := fun h =>
        ⟨fun hown => hown.taproot h, fun hown => ⟨fun _ => hown, fun hnot => absurd h hnot⟩⟩
      rcases @prepareKey_cases chain external masterFp _ _ inputNum _
        (checkScript_taproot htype hcheck) with
        ⟨st, hst, hleft, hkey⟩ | ⟨hraise, rfl, hkey, hsig⟩ | ⟨hraise, hkey, htap, hsig⟩
      · refine .ok hst hleft ?_ ?_
        · rcases hkey with hkey | ⟨hexternal, hkey, hsig⟩
          · exact .own hscript hkey
          · exact .foreign hexternal hkey hsig
        · rintro ⟨htap, hno, hne⟩
          rcases hkey with hkey | ⟨-, -, hsig⟩
          · exact hno ((hown htap).1 hkey)
          · exact hne (hsig htap)
      · refine .raised hraise (fun h => ?_) fun h => h.2.2 (hsig h.1)
        cases h with
        | own _ hkey' => exact hkey hkey'
        | ignored hexternal _ => cases hexternal
        | foreign hexternal _ _ => cases hexternal
      · refine .fault ?_ (fun h => ?_) ⟨htap, fun hno => hkey ((hown htap).2 hno), hsig⟩
        · simp only [ok_bind, Bool.false_eq_true, if_false, hraise]
          exact raising_error.2 (by simp [Rejected, Exc.isHWWError, Exc.isValueError])
        · cases h with
          | own _ hkey' => exact hkey hkey'
          | ignored _ hscript' => exact hscript hscript'
          | foreign _ _ hempty => exact hsig (hempty htap)

theorem findUtxo_verdict {inputNum n : ℕ} (hout : psbtIn.prevOut = some n)
    (hseq : psbtIn.sequence ≠ none) :
    Verdict Rejected (findUtxo inputNum psbtIn n) (fun utxo => spentOutput psbtIn = utxo)
      (Located psbtIn) (∃ prev, psbtIn.nonWitnessUtxo = some prev ∧
        prev.hash = some psbtIn.prevTxid ∧ prev.vout.length ≤ n) := by
  have hset : psbtIn.prevOut ≠ none := by
    rw [hout]
    exact Option.some_ne_none n
  unfold findUtxo
  cases hnon : psbtIn.nonWitnessUtxo with
  | none =>
    refine .ok rfl ?_ ⟨hset, hseq, ?_, ?_⟩ (by simp)
    · rw [spentOutput, hnon]
    · simp [hnon]
    · simp [hnon]
  | some prev =>
    simp only [Option.some.injEq, exists_eq_left']
    by_cases hhash : some psbtIn.prevTxid = prev.hash
    · rw [if_neg (not_not.2 hhash)]
      cases hv : prev.vout[n]? with
      | none =>
        refine .fault (raising_error.2 ?_) (fun h => ?_) ⟨hhash.symm, List.getElem?_eq_none_iff.1 hv⟩
        · simp [Rejected, Exc.isHWWError, Exc.isValueError]
        · have hindex := h.index prev n hnon hout
          have hlen := List.getElem?_eq_none_iff.1 hv
          omega
      | some out =>
        have hlt := (List.getElem?_eq_some_iff.1 hv).1
        refine .ok rfl ?_ ⟨hset, hseq, ?_, ?_⟩ fun h => absurd h.2 (not_le.2 hlt)
        · rw [spentOutput, hnon, hout, ← hv]
          rfl
        · intro prev' hprev
          rw [← Option.some.inj (hnon.symm.trans hprev)]
          exact hhash.symm
        · intro prev' n' hprev hout'
          rw [← Option.some.inj (hnon.symm.trans hprev), ← Option.some.inj (hout.symm.trans hout')]
          exact hlt
    · rw [if_pos hhash]
      refine .raised (raising_error.2 (Or.inl rfl)) (fun h => ?_) fun h => hhash h.1.symm
      exact hhash (h.hash prev hnon).symm

theorem prepareInput_eq {inputNum n sequence : ℕ} (hout : psbtIn.prevOut = some n)
    (hseq : psbtIn.sequence = some sequence) :
    prepareInput R chain external masterFp xpub inputNum psbtIn = (do
      match ← findUtxo inputNum psbtIn n with
      | none => return none
      | some utxo =>
        match findSpend psbtIn utxo with
        | none => return none
        | some spend => do
          let (txinputtype, ignored) ← checkScript R external xpub psbtIn.hdKeypaths utxo spend {
            prevHash := psbtIn.prevTxid.reverse, prevIndex := n, sequence,
            scriptType := spend.scriptType, amount := some utxo.nValue }
          if ignored then return some (ignoreInput chain inputNum txinputtype)
          else
            let streamed ← prepareKey chain external masterFp inputNum psbtIn txinputtype
            return some streamed) := by
  unfold prepareInput
  rewrite [hout, hseq]
  rfl

/-- An input that spends an output with its scripts is streamed. -/
theorem prepareInput_of_streams {inputNum n sequence : ℕ} (hout : psbtIn.prevOut = some n)
    (hseq : psbtIn.sequence = some sequence) (hstreams : Streams psbtIn spent)
    (hutxo : findUtxo inputNum psbtIn n = .ok (some spent)) :
    ∃ tx : TxInputType, tx.scriptType = (spendOf psbtIn spent).scriptType ∧
      prepareInput R chain external masterFp xpub inputNum psbtIn = (do
        let st ← streamInput R chain external masterFp xpub inputNum psbtIn spent tx
        return some st) := by
  refine ⟨{
    prevHash := psbtIn.prevTxid.reverse, prevIndex := n, sequence,
    scriptType := (spendOf psbtIn spent).scriptType, amount := some spent.nValue }, rfl, ?_⟩
  rw [prepareInput_eq hout hseq, hutxo]
  simp only [ok_bind, findSpend_of_there hstreams.scriptsThere, streamInput]
  generalize checkScript R external xpub psbtIn.hdKeypaths spent (spendOf psbtIn spent) _ = checked
  cases checked with
  | error e => rfl
  | ok checked =>
    obtain ⟨tx', ignored⟩ := checked
    cases ignored <;> rfl

/-- An input that does not is skipped. -/
theorem prepareInput_of_not_streams {inputNum n sequence : ℕ} (hout : psbtIn.prevOut = some n)
    (hseq : psbtIn.sequence = some sequence) (hlocated : Located psbtIn)
    (hnot : ∀ spent, ¬Streams psbtIn spent)
    (hutxo : findUtxo inputNum psbtIn n = .ok (spentOutput psbtIn)) :
    prepareInput R chain external masterFp xpub inputNum psbtIn = .ok none := by
  rw [prepareInput_eq hout hseq, hutxo, ok_bind]
  cases hspent : spentOutput psbtIn with
  | none => rfl
  | some spent =>
    have hthere : ¬ScriptsThere psbtIn spent := fun hthere =>
      hnot spent ⟨hlocated, ⟨spent, hspent, hthere⟩, hspent⟩
    simp only [findSpend_of_not_there hthere]
    rfl

theorem Streams.inputPasses_iff (h : Streams psbtIn spent) :
    InputPasses external masterFp xpub psbtIn ↔
      ScriptRead xpub psbtIn.hdKeypaths (scriptCode psbtIn spent) ∧
        Handled external masterFp psbtIn spent := by
  constructor
  · exact fun hpass => ⟨hpass.script spent h, hpass.handled spent h⟩
  · rintro ⟨hread, hhandled⟩
    refine ⟨h.located, fun spent' h' => ?_, fun spent' h' => ?_⟩
    · rwa [← h.unique h']
    · rwa [← h.unique h']

theorem Located.not_index {prev : CTransaction} {n : ℕ} (h : Located psbtIn)
    (hprev : psbtIn.nonWitnessUtxo = some prev) (hout : psbtIn.prevOut = some n) :
    ¬prev.vout.length ≤ n := not_le.2 (h.index prev n hprev hout)

theorem Streams.inputFault_iff (h : Streams psbtIn spent) : InputFault masterFp xpub psbtIn ↔
    ScriptCut xpub psbtIn.hdKeypaths (scriptCode psbtIn spent) ∨
      ScriptRead xpub psbtIn.hdKeypaths (scriptCode psbtIn spent) ∧ SignsTaproot psbtIn spent ∧
        ¬OwnInternalKey masterFp psbtIn ∧ psbtIn.tapKeySig ≠ [] := by
  constructor
  · intro hfault
    cases hfault with
    | unset hunset => exact absurd hunset (not_or.2 ⟨h.located.prevOut, h.located.sequence⟩)
    | index _ hprev hout _ hindex => exact absurd hindex (h.located.not_index hprev hout)
    | script h' hcut =>
      rw [← h.unique h'] at hcut
      exact Or.inl hcut
    | signed h' hread htap hkey hsig =>
      rw [← h.unique h'] at hread htap
      exact Or.inr ⟨hread, htap, hkey, hsig⟩
  · rintro (hcut | ⟨hread, htap, hkey, hsig⟩)
    · exact .script h hcut
    · exact .signed h hread htap hkey hsig

/-- The loop over the inputs gets past an input, or ends with one of the two kinds of
exceptions. -/
theorem prepareInput_verdict (R : Runtime) (chain : Chain) (external : Bool) (masterFp : Bytes)
    (xpub : Dict Bytes KeyOriginInfo) (inputNum : ℕ) (psbtIn : PartiallySignedInput) :
    Verdict Rejected (prepareInput R chain external masterFp xpub inputNum psbtIn)
      (fun found => (∃ st, found = some st ∧ st.ignored = true) ↔ SignatureIgnored masterFp psbtIn)
      (InputPasses external masterFp xpub psbtIn) (InputFault masterFp xpub psbtIn) := by
  by_cases hunset : psbtIn.prevOut = none ∨ psbtIn.sequence = none
  · have herror : prepareInput R chain external masterFp xpub inputNum psbtIn =
        .error .assertionError := by
      unfold prepareInput
      rcases hunset with h | h
      · rw [h]
      · rw [h]
        cases psbtIn.prevOut <;> rfl
    refine .fault (herror ▸ raising_error.2 ?_) (fun hpass => ?_) (.unset hunset)
    · simp [Rejected, Exc.isHWWError, Exc.isValueError]
    · exact hunset.elim hpass.located.prevOut hpass.located.sequence
  obtain ⟨hout, hseq⟩ := not_or.1 hunset
  obtain ⟨n, hout⟩ := Option.ne_none_iff_exists'.1 hout
  have hfind := @findUtxo_verdict _ inputNum _ hout hseq
  obtain ⟨sequence, hsequence⟩ := Option.ne_none_iff_exists'.1 hseq
  cases hfind with
  | ok hutxo hspent hlocated _ =>
    rw [← hspent] at hutxo
    by_cases hstreams : ∃ spent, Streams psbtIn spent
    · obtain ⟨spent, hstreams⟩ := hstreams
      rw [hstreams.spent] at hutxo
      obtain ⟨tx, htype, heq⟩ := @prepareInput_of_streams R chain external masterFp xpub _ _ _ _ _
        hout hsequence hstreams hutxo
      have hverdict := @streamInput_verdict R chain external masterFp xpub _ _ hstreams inputNum _ htype
      rw [heq, hstreams.inputPasses_iff, hstreams.inputFault_iff]
      cases hverdict with
      | ok hst hignored hpass hfault =>
        rw [hst]
        refine .ok rfl ?_ hpass hfault
        rw [← hignored]
        simp
      | raised hraise hpass hfault => exact .raised (raising_bind_pure.2 hraise) hpass hfault
      | fault hraise hpass hfault => exact .fault (raising_bind_pure.2 hraise) hpass hfault
    · have hnot : ∀ spent, ¬Streams psbtIn spent := fun spent h => hstreams ⟨spent, h⟩
      have hskip := @prepareInput_of_not_streams R chain external masterFp xpub _ _ _ _
        hout hsequence hlocated hnot hutxo
      refine .ok hskip (iff_of_false (by simp) ?_)
        ⟨hlocated, fun spent h => absurd h (hnot spent), fun spent h => absurd h (hnot spent)⟩ ?_
      · rintro ⟨hstreamable, spent, hspent, -⟩
        exact hnot spent ⟨hlocated, hstreamable, hspent⟩
      · intro hfault
        cases hfault with
        | unset h => exact hunset h
        | index _ hprev hout' _ hindex => exact hlocated.not_index hprev hout' hindex
        | script h _ => exact hnot _ h
        | signed h _ _ _ _ => exact hnot _ h
  | raised hutxo hlocated hindex =>
    refine .raised ?_ (fun h => hlocated h.located) fun hfault => ?_
    · rw [prepareInput_eq hout hsequence]
      exact raising_bind.2 (Or.inl hutxo)
    · cases hfault with
      | unset h => exact hunset h
      | index _ hprev hout' hhash hle =>
        rw [← Option.some.inj (hout.symm.trans hout')] at hle
        exact hindex ⟨_, hprev, hhash, hle⟩
      | script h _ => exact hlocated h.located
      | signed h _ _ _ _ => exact hlocated h.located
  | fault hutxo hlocated hindex =>
    obtain ⟨prev, hprev, hhash, hle⟩ := hindex
    refine .fault ?_ (fun h => hlocated h.located) (.index hseq hprev hout hhash hle)
    rw [prepareInput_eq hout hsequence]
    exact raising_bind.2 (Or.inl hutxo)

end

/-! ### The loop over the inputs -/

theorem prepareInputs_isOk_iff {n : ℕ} {inputs : List PartiallySignedInput} :
    (∃ streamed, prepareInputs R chain external masterFp xpub n inputs = .ok streamed) ↔
      ∀ psbtIn ∈ inputs, InputPasses external masterFp xpub psbtIn := by
  induction inputs generalizing n with
  | nil => simp [prepareInputs]
  | cons psbtIn rest ih =>
    rw [prepareInputs, exists_bind_eq_ok, List.forall_mem_cons, ← ih (n := n + 1),
      ← (prepareInput_verdict R chain external masterFp xpub n psbtIn).isOk_iff]
    simp only [exists_bind_eq_ok, pure_eq_ok, Except.ok.injEq, exists_eq', and_true,
      exists_and_right]

theorem raising_prepareInputs {n : ℕ} {inputs : List PartiallySignedInput} :
    Raising (fun e => ¬Rejected e) (prepareInputs R chain external masterFp xpub n inputs) ↔
      FirstBad (InputPasses external masterFp xpub) (InputFault masterFp xpub) inputs := by
  induction inputs generalizing n with
  | nil => exact iff_of_false not_raising_ok not_firstBad_nil
  | cons psbtIn rest ih =>
    have hverdict := prepareInput_verdict R chain external masterFp xpub n psbtIn
    rw [prepareInputs, raising_bind, firstBad_cons, hverdict.raising_iff, ← ih (n := n + 1),
      ← hverdict.isOk_iff]
    simp only [raising_bind_pure, exists_and_right]

end TrezorClient

end Hwi
