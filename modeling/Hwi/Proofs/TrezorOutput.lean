import Hwi.Format.TrezorOutput
import Hwi.Proofs.Base58
import Hwi.Proofs.Bech32
import Hwi.Proofs.TrezorInput

/-! Of which outputs a signing request says which script they have. -/

namespace Hwi

open Trezor Procedure

namespace TrezorClient

variable {R : Runtime} {chain : Chain} {masterFp : Bytes} {xpub : Dict Bytes KeyOriginInfo}
  {psbtOut : PartiallySignedOutput}

/-! ### Addresses -/

theorem p2pkhVersion_eq (chain : Chain) : p2pkhVersion chain = [(addressPrefixes chain).p2pkh] := by
  cases chain <;> rfl

theorem p2shVersion_eq (chain : Chain) : p2shVersion chain = [(addressPrefixes chain).p2sh] := by
  cases chain <;> rfl

theorem bech32Hrp_eq (chain : Chain) : bech32Hrp chain = (addressPrefixes chain).hrp := by
  cases chain <;> rfl

theorem addressOf_p2pkh {script : Bytes} (h : isP2pkh script = true) :
    AddressOf R chain (Base58.toAddress R ((script.drop 3).take 20) (p2pkhVersion chain)) script := by
  obtain ⟨hlen, hscript⟩ := eq_p2pkhScript h
  rw [p2pkhVersion_eq]
  generalize (script.drop 3).take 20 = hash at hlen hscript ⊢
  rw [hscript]
  exact .p2pkh (Base58.decodeCheck_toAddress R) hlen

theorem addressOf_p2sh {script : Bytes} (h : isP2sh script = true) :
    AddressOf R chain (Base58.toAddress R ((script.drop 2).take 20) (p2shVersion chain)) script := by
  obtain ⟨hlen, hscript⟩ := eq_p2shScript h
  rw [p2shVersion_eq]
  generalize (script.drop 2).take 20 = hash at hlen hscript ⊢
  rw [hscript]
  exact .p2sh (Base58.decodeCheck_toAddress R) hlen

/-- There is an address for a program, but for one of version 0 with a length of
its own. -/
theorem addressOf_segwit (R : Runtime) (chain : Chain) {script prog : Bytes} {v : ℕ}
    (h : WitnessProgram script v prog) :
    if v = 0 ∧ prog.length ≠ 20 ∧ prog.length ≠ 32 then
      Bech32.encode (bech32Hrp chain) v prog = none
    else ∃ addr, Bech32.encode (bech32Hrp chain) v prog = some addr ∧
      AddressOf R chain addr script := by
  have hhrp : (∀ c ∈ bech32Hrp chain, Bech32.Plain c) ∧ bech32Hrp chain ≠ [] ∧
      (bech32Hrp chain).length ≤ 10 := by
    cases chain <;> simp [bech32Hrp, Bech32.Plain]
  have hspec := Bech32.encode_spec hhrp.1 hhrp.2.1 hhrp.2.2 h.version_le h.two_le h.le_forty
  split_ifs at hspec ⊢
  · exact hspec
  · obtain ⟨addr, hencode, hdecode⟩ := hspec
    rw [bech32Hrp_eq] at hdecode
    exact ⟨addr, hencode, .segwit hdecode h⟩

/-! ### What the output is paid to -/

/-- What the request says of an output at first. -/
inductive PaidAs (R : Runtime) (chain : Chain) (script : Bytes) (txoutput : TxOutputType) : Prop
  | address {addr : Str} (haddress : txoutput.address = some addr)
      (hdata : txoutput.opReturnData = none) (hof : AddressOf R chain addr script)
      (hhead : script.head? ≠ some 0x6a)
      (hprog : ∀ prog, WitnessProgram script 0 prog → prog.length = 20 ∨ prog.length = 32)
  | nothing {prog : Bytes} (haddress : txoutput.address = none)
      (hdata : txoutput.opReturnData = none) (hscript : WitnessProgram script 0 prog)
      (hlen : prog.length ≠ 20 ∧ prog.length ≠ 32)
  | opReturn (haddress : txoutput.address = none)
      (hdata : txoutput.opReturnData = some (script.drop 2)) (hhead : script.head? = some 0x6a)
      (hprog : ∀ v prog, ¬WitnessProgram script v prog)

theorem head?_of_witnessProgram {script prog : Bytes} {v : ℕ} (h : WitnessProgram script v prog) :
    script.head? ≠ some 0x6a := fun hop => absurd (h.head_le hop) (by decide)

theorem head?_of_isP2pkh {script : Bytes} (h : isP2pkh script = true) :
    script.head? ≠ some 0x6a := by
  rw [(eq_p2pkhScript h).2]
  simp [p2pkhScript]

theorem head?_of_isP2sh {script : Bytes} (h : isP2sh script = true) : script.head? ≠ some 0x6a := by
  rw [(eq_p2shScript h).2]
  simp [p2shScript]

variable (R chain) in
/-- A script is paid to, or it is unknown and rejected. -/
theorem payTo_spec {out : CTxOut} (hne : out.scriptPubKey ≠ []) :
    (¬UnknownScript out.scriptPubKey ∧ ∃ txoutput, payTo R chain out = .ok txoutput ∧
        txoutput.addressN = [] ∧ PaidAs R chain out.scriptPubKey txoutput) ∨
      UnknownScript out.scriptPubKey ∧
        payTo R chain out = .error (.badArgumentError "Output is not an address") := by
  unfold payTo
  rcases hwit : isWitness out.scriptPubKey with ⟨wit, v, prog⟩
  cases wit with
  | true =>
    have hw := isWitness_eq_true_iff.1 hwit
    refine Or.inl ⟨fun h => h.witness v prog hw, _, rfl, rfl, ?_⟩
    have haddress := addressOf_segwit R chain hw
    split_ifs at haddress with hlen
    · obtain ⟨rfl, hlen⟩ := hlen
      exact .nothing haddress rfl hw hlen
    · obtain ⟨addr, haddr, hof⟩ := haddress
      refine .address haddr rfl hof (head?_of_witnessProgram hw) fun q hq => ?_
      obtain ⟨rfl, rfl⟩ := hw.unique hq
      by_contra hno
      rw [not_or] at hno
      exact hlen ⟨rfl, hno⟩
  | false =>
    have hnot := not_witnessProgram_of_isWitness (congrArg Prod.fst hwit)
    have hprog : ∀ q, WitnessProgram out.scriptPubKey 0 q → q.length = 20 ∨ q.length = 32 :=
      fun q hq => absurd hq (hnot 0 q)
    simp only [Bool.false_eq_true, if_false]
    split_ifs with hp2pkh hp2sh
    · refine Or.inl ⟨fun h => ?_, _, rfl, rfl, ?_⟩
      · rw [h.p2pkh] at hp2pkh
        cases hp2pkh
      · exact .address rfl rfl (addressOf_p2pkh hp2pkh) (head?_of_isP2pkh hp2pkh) hprog
    · refine Or.inl ⟨fun h => ?_, _, rfl, rfl, ?_⟩
      · rw [h.p2sh] at hp2sh
        cases hp2sh
      · exact .address rfl rfl (addressOf_p2sh hp2sh) (head?_of_isP2sh hp2sh) hprog
    · rw [Bool.not_eq_true] at hp2pkh hp2sh
      cases hscript : out.scriptPubKey with
      | nil => exact absurd hscript hne
      | cons op rest =>
        rw [hscript] at hnot hp2pkh hp2sh
        by_cases hop : op = 0x6a
        · subst hop
          exact Or.inl ⟨fun h => h.opReturn rfl, _, rfl, rfl, .opReturn rfl rfl rfl hnot⟩
        · have hreturn : isOpreturn (op :: rest) = .ok false := by
            change Except.ok (decide (op = 0x6a)) = Except.ok false
            rw [decide_eq_false hop]
          rw [hreturn]
          exact Or.inr ⟨⟨hnot, hp2pkh, hp2sh, fun h => hop (Option.some.inj h)⟩, rfl⟩

/-! ### The path that replaces an output -/

/-- What decides whether a request determines a script. -/
def said (txoutput : TxOutputType) : Option Str × List ℤ × Option Bytes :=
  (txoutput.address, txoutput.addressN, txoutput.opReturnData)

theorem changePath_of_hasKeyPath {out : CTxOut} {redeemScript : Bytes} (path : List ℤ)
    (txoutput : TxOutputType) (h : HasKeyPath out.scriptPubKey redeemScript) :
    said (changePath out redeemScript path txoutput).1 = (none, path, txoutput.opReturnData) := by
  unfold changePath
  rcases h with hp2pkh | ⟨prog, hw⟩ | ⟨hp2sh, v, prog, hw, hlen⟩
  · simp only [hp2pkh, if_true]
    rfl
  · simp only [isWitness_eq_true_iff.2 hw, if_true]
    split_ifs <;> rfl
  · have hne : redeemScript ≠ [] := by
      rw [hw.script_eq]
      exact List.cons_ne_nil _ _
    have hmem : prog.length ∈ [20, 32] := by simpa using hlen
    simp only [hp2sh, isWitness_eq_true_iff.2 hw, hne, hmem, ne_eq, not_false_eq_true, and_self,
      if_true]
    split_ifs <;> rfl

theorem changePath_of_not_hasKeyPath {out : CTxOut} {redeemScript : Bytes} (path : List ℤ)
    (txoutput : TxOutputType) (h : ¬HasKeyPath out.scriptPubKey redeemScript)
    (hver : ∀ v prog, WitnessProgram out.scriptPubKey v prog → v = 0) :
    said (changePath out redeemScript path txoutput).1 = said txoutput := by
  unfold changePath
  have hp2pkh : ¬isP2pkh out.scriptPubKey = true := fun hp => h (Or.inl hp)
  have hwit : ¬(isWitness out.scriptPubKey).1 = true := by
    intro hwit
    obtain ⟨v, prog, hw⟩ := isWitness_fst_iff.1 hwit
    obtain rfl := hver v prog hw
    exact h (Or.inr (Or.inl ⟨prog, hw⟩))
  rw [Bool.not_eq_true] at hp2pkh hwit
  simp only [hp2pkh, hwit, Bool.false_eq_true, if_false]
  split_ifs with hp2sh hredeem
  · exfalso
    refine h (Or.inr (Or.inr ⟨hp2sh.1, _, _, isWitness_eq_true_iff.1 (Prod.ext hredeem.1 rfl), ?_⟩))
    simpa using hredeem.2
  · rfl
  · rfl

/-- The last key of the device counts. -/
theorem addChangePaths_of_hasKeyPath {out : CTxOut} {redeemScript : Bytes}
    (h : HasKeyPath out.scriptPubKey redeemScript) :
    ∀ (items : List (Bytes × KeyOriginInfo)) (r : TxOutputType × Bool),
      said (addChangePaths masterFp out redeemScript items r).1 =
        match (items.filter fun e => e.2.fingerprint = masterFp).getLast? with
        | none => said r.1
        | some e => (none, e.2.path, r.1.opReturnData)
  | [], r => rfl
  | (key, keypath) :: rest, r => by
    unfold addChangePaths
    rw [addChangePaths_of_hasKeyPath h rest]
    by_cases hfp : keypath.fingerprint = masterFp
    · have hsaid := changePath_of_hasKeyPath keypath.path r.1 h
      have hdata : (changePath out redeemScript keypath.path r.1).1.opReturnData =
          r.1.opReturnData := congrArg (fun s => s.2.2) hsaid
      rw [if_neg (not_not.2 hfp), List.filter_cons_of_pos (by simpa using hfp), List.getLast?_cons]
      cases (rest.filter fun e => e.2.fingerprint = masterFp).getLast? with
      | none => exact hsaid
      | some e =>
        simp only [hdata]
        rfl
    · rw [if_pos hfp, List.filter_cons_of_neg (by simpa using hfp)]

theorem addChangePaths_of_not_hasKeyPath {out : CTxOut} {redeemScript : Bytes}
    (h : ¬HasKeyPath out.scriptPubKey redeemScript)
    (hver : ∀ v prog, WitnessProgram out.scriptPubKey v prog → v = 0) :
    ∀ (items : List (Bytes × KeyOriginInfo)) (r : TxOutputType × Bool),
      said (addChangePaths masterFp out redeemScript items r).1 = said r.1
  | [], r => rfl
  | (key, keypath) :: rest, r => by
    unfold addChangePaths
    rw [addChangePaths_of_not_hasKeyPath h hver rest]
    split_ifs
    · rfl
    · exact changePath_of_not_hasKeyPath keypath.path r.1 h hver

theorem addTaprootPath_eq {tapInternalKey : Bytes} :
    ∀ (items : List (Bytes × OrderedSet Bytes × KeyOriginInfo)) (txoutput : TxOutputType),
      said (addTaprootPath masterFp tapInternalKey items txoutput) =
        match items.find? fun e => e.1 = tapInternalKey ∧ e.2.2.fingerprint = masterFp with
        | none => said txoutput
        | some e => (none, e.2.2.path, txoutput.opReturnData)
  | [], txoutput => rfl
  | (key, leafHashes, origin) :: rest, txoutput => by
    unfold addTaprootPath
    rw [List.find?_cons]
    split_ifs with hkey
    · simp only [hkey, and_self, decide_true]
      rfl
    · simp only [hkey, decide_false]
      exact addTaprootPath_eq rest txoutput

theorem replacedBy_iff {path : List ℤ} : ReplacedBy masterFp psbtOut path ↔
    (HasKeyPath psbtOut.script psbtOut.redeemScript ∧
        lastOwnPath masterFp psbtOut.hdKeypaths = some path) ∨
      (∃ prog, WitnessProgram psbtOut.script 1 prog) ∧ internalKeyPath masterFp psbtOut = some path := by
  constructor
  · intro h
    cases h with
    | key hscript hpath => exact Or.inl ⟨hscript, hpath⟩
    | taproot hscript hpath => exact Or.inr ⟨⟨_, hscript⟩, hpath⟩
  · rintro (⟨hscript, hpath⟩ | ⟨⟨prog, hscript⟩, hpath⟩)
    · exact .key hscript hpath
    · exact .taproot hscript hpath

theorem ReplacedBy.head?_ne {path : List ℤ} (h : ReplacedBy masterFp psbtOut path) :
    psbtOut.script.head? ≠ some 0x6a := by
  cases h with
  | key hscript hpath =>
    rcases hscript with hp2pkh | ⟨prog, hw⟩ | ⟨hp2sh, -⟩
    · exact head?_of_isP2pkh hp2pkh
    · exact head?_of_witnessProgram hw
    · exact head?_of_isP2sh hp2sh
  | taproot hscript hpath => exact head?_of_witnessProgram hscript

theorem HasKeyPath.not_taproot {script redeemScript prog : Bytes} (h : HasKeyPath script redeemScript) :
    ¬WitnessProgram script 1 prog := by
  intro hw
  rcases h with hp2pkh | ⟨q, hq⟩ | ⟨hp2sh, -⟩
  · exact not_witnessProgram_of_isP2pkh hp2pkh hw
  · exact Nat.one_ne_zero (hw.unique hq).1
  · exact not_witnessProgram_of_isP2sh hp2sh hw

theorem ReplacedBy.unique {path path' : List ℤ} (h : ReplacedBy masterFp psbtOut path)
    (h' : ReplacedBy masterFp psbtOut path') : path = path' := by
  rcases replacedBy_iff.1 h with ⟨hkey, hpath⟩ | ⟨⟨prog, htap⟩, hpath⟩
  · rcases replacedBy_iff.1 h' with ⟨_, hpath'⟩ | ⟨⟨prog, htap⟩, _⟩
    · exact Option.some.inj (hpath.symm.trans hpath')
    · exact absurd htap hkey.not_taproot
  · rcases replacedBy_iff.1 h' with ⟨hkey, _⟩ | ⟨_, hpath'⟩
    · exact absurd htap hkey.not_taproot
    · exact Option.some.inj (hpath.symm.trans hpath')

variable (masterFp) in
/-- An output is replaced by a path, or what is said of it stays. -/
theorem addChange_spec {out : CTxOut} (hout : out.scriptPubKey = psbtOut.script)
    (txoutput : TxOutputType) :
    (∃ path, ReplacedBy masterFp psbtOut path ∧
        said (addChange masterFp out psbtOut txoutput).1 = (none, path, txoutput.opReturnData)) ∨
      (∀ path, ¬ReplacedBy masterFp psbtOut path) ∧
        said (addChange masterFp out psbtOut txoutput).1 = said txoutput := by
  unfold addChange
  rcases hwit : isWitness out.scriptPubKey with ⟨wit, v, prog⟩
  have hprog : ∀ w q, WitnessProgram out.scriptPubKey w q → wit = true ∧ w = v := by
    intro w q hw
    rw [isWitness_eq_true_iff.2 hw] at hwit
    exact ⟨(congrArg Prod.fst hwit).symm, congrArg (fun r => r.2.1) hwit⟩
  have hkey : HasKeyPath out.scriptPubKey psbtOut.redeemScript → wit = true → v = 0 := by
    rintro hpath rfl
    have hw := isWitness_eq_true_iff.1 hwit
    rcases hpath with hp2pkh | ⟨q, hq⟩ | ⟨hp2sh, -⟩
    · exact absurd hw (not_witnessProgram_of_isP2pkh hp2pkh)
    · exact (hprog 0 q hq).2.symm
    · exact absurd hw (not_witnessProgram_of_isP2sh hp2sh)
  simp only [replacedBy_iff, ← hout]
  split_ifs with hv0 hv1
  · -- keys of `hd_keypaths`
    have hver : ∀ w q, WitnessProgram out.scriptPubKey w q → w = 0 := by
      intro w q hw
      obtain ⟨rfl, rfl⟩ := hprog w q hw
      simpa using hv0
    have htap : ¬∃ q, WitnessProgram out.scriptPubKey 1 q := fun ⟨q, hw⟩ =>
      absurd (hver 1 q hw) Nat.one_ne_zero
    by_cases hpath : HasKeyPath out.scriptPubKey psbtOut.redeemScript
    · rw [addChangePaths_of_hasKeyPath hpath]
      simp only [hpath, htap, true_and, false_and, or_false, lastOwnPath]
      cases (psbtOut.hdKeypaths.items.filter fun e => e.2.fingerprint = masterFp).getLast? with
      | none => exact Or.inr ⟨fun path h => (by cases h), rfl⟩
      | some e => exact Or.inl ⟨e.2.path, rfl, rfl⟩
    · rw [addChangePaths_of_not_hasKeyPath hpath hver]
      simp only [hpath, htap, false_and, or_self]
      exact Or.inr ⟨fun path h => h, trivial⟩
  · -- the internal key
    rw [Bool.not_eq_true, Bool.or_eq_false_iff, Bool.not_eq_false'] at hv0
    have hpath : ¬HasKeyPath out.scriptPubKey psbtOut.redeemScript := by
      intro hpath
      rw [hkey hpath hv0.1] at hv1
      cases hv1
    have htap : ∃ q, WitnessProgram out.scriptPubKey 1 q := by
      refine ⟨prog, isWitness_eq_true_iff.1 ?_⟩
      rw [hwit, hv0.1, hv1]
    rw [addTaprootPath_eq]
    simp only [hpath, htap, true_and, false_and, false_or, internalKeyPath]
    cases (psbtOut.tapBip32Paths.items.find? fun e =>
        e.1 = psbtOut.tapInternalKey ∧ e.2.2.fingerprint = masterFp) with
    | none => exact Or.inr ⟨fun path h => (by cases h), rfl⟩
    | some e => exact Or.inl ⟨e.2.2.path, rfl, rfl⟩
  · rw [Bool.not_eq_true, Bool.or_eq_false_iff, Bool.not_eq_false'] at hv0
    have hpath : ¬HasKeyPath out.scriptPubKey psbtOut.redeemScript := by
      intro hpath
      rw [hkey hpath hv0.1] at hv0
      exact absurd hv0.2 (by decide)
    have htap : ¬∃ q, WitnessProgram out.scriptPubKey 1 q := fun ⟨q, hw⟩ =>
      hv1 (hprog 1 q hw).2.symm
    simp only [hpath, htap, false_and, or_self]
    exact Or.inr ⟨fun path h => h, trivial⟩

/-! ### What the request determines -/

theorem determines_iff {script : Bytes} {txoutput : TxOutputType} {address : Option Str}
    {addressN : List ℤ} {data : Option Bytes} (h : said txoutput = (address, addressN, data)) :
    Determines R chain script txoutput ↔
      (∀ addr, address = some addr → AddressOf R chain addr script) ∧
        (∀ d, data = some d → script = 0x6a :: pushData d) ∧
        (address = none → data = none → addressN ≠ []) := by
  obtain ⟨rfl, rfl, rfl⟩ : txoutput.address = address ∧ txoutput.addressN = addressN ∧
      txoutput.opReturnData = data := by simpa [said] using h
  exact ⟨fun h => ⟨h.address, h.opReturn, h.present⟩, fun h => ⟨h.1, h.2.1, h.2.2⟩⟩

theorem pushData_of_le {data : Bytes} (h : data.length ≤ 75) :
    pushData data = UInt8.ofNat data.length :: data := by
  rw [pushData, if_pos (by omega)]

theorem length_pushData {data : Bytes} (h : 75 < data.length) :
    data.length + 2 ≤ (pushData data).length := by
  unfold pushData
  rw [if_neg (by omega)]
  split_ifs
  · simp
  · simp [toLE_length]
  · simp [toLE_length]

/-- The data of OP_RETURN are pushed back as they stand after a direct push. -/
theorem opReturn_iff {script : Bytes} :
    script = 0x6a :: pushData (script.drop 2) ↔
      ∃ data, script = 0x6a :: UInt8.ofNat data.length :: data ∧ data.length ≤ 75 := by
  constructor
  · intro h
    have hlen := congrArg List.length h
    rw [List.length_cons] at hlen
    by_cases hdata : (script.drop 2).length ≤ 75
    · rw [pushData_of_le hdata] at h
      exact ⟨script.drop 2, h, hdata⟩
    · have hlong := length_pushData (not_le.1 hdata)
      rw [List.length_drop] at hlong hdata
      omega
  · rintro ⟨data, rfl, hdata⟩
    rw [List.drop_succ_cons, List.drop_succ_cons, List.drop_zero, pushData_of_le hdata]

/-- The output as `prepareOutput` takes it apart. -/
theorem prepareOutput_eq : prepareOutput R chain masterFp xpub psbtOut = do
    let out ← psbtOut.getTxout
    let txoutput ← payTo R chain out
    let multisig ← parseMultisig R (outputScript psbtOut) xpub psbtOut.hdKeypaths
    let (txoutput, wit) := addChange masterFp out psbtOut txoutput
    return match multisig with
      | none => txoutput
      | some multisig => { txoutput with
          multisig := some multisig
          scriptType := if !wit then .PAYTOMULTISIG else txoutput.scriptType } := by
  unfold prepareOutput outputScript
  cases psbtOut.getTxout with
  | error e => rfl
  | ok out =>
    rw [ok_bind, ok_bind]
    cases payTo R chain out with
    | error e => rfl
    | ok txoutput =>
      rw [ok_bind, ok_bind]
      simp only
      generalize (if psbtOut.witnessScript ≠ [] then psbtOut.witnessScript
        else psbtOut.redeemScript) = script
      by_cases hscript : script = []
      · -- an empty script is too short for a multisig script
        rw [if_neg (not_not.2 hscript), hscript]
        rfl
      · rw [if_pos hscript]
        cases parseMultisig R script xpub psbtOut.hdKeypaths with
        | error e => rfl
        | ok found => cases found <;> rfl

/-- What is said of an output that is paid to determines its script. -/
theorem paidAs_determines_iff {txoutput tx' : TxOutputType}
    (hpaid : PaidAs R chain psbtOut.script txoutput) (hpath : txoutput.addressN = [])
    (hsaid : (∃ path, ReplacedBy masterFp psbtOut path ∧
        said tx' = (none, path, txoutput.opReturnData)) ∨
      (∀ path, ¬ReplacedBy masterFp psbtOut path) ∧ said tx' = said txoutput) :
    Determines R chain psbtOut.script tx' ↔ Representable masterFp psbtOut := by
  rcases hsaid with ⟨path, hrep, hsaid⟩ | ⟨hnot, hsaid⟩
  · have hdata : txoutput.opReturnData = none := by
      cases hpaid with
      | address _ hdata _ _ _ => exact hdata
      | nothing _ hdata _ _ => exact hdata
      | opReturn _ _ hhead _ => exact absurd hhead hrep.head?_ne
    rw [determines_iff hsaid, hdata]
    constructor
    · intro h
      refine ⟨fun hhead => absurd hhead hrep.head?_ne, fun path' hrep' => ?_,
        fun _ _ => Or.inr (Or.inr ⟨path, hrep⟩)⟩
      rw [hrep'.unique hrep]
      exact h.2.2 rfl rfl
    · intro h
      exact ⟨fun _ haddr => (by cases haddr), fun _ hd => (by cases hd), fun _ _ => h.path path hrep⟩
  · rw [determines_iff hsaid, hpath]
    cases hpaid with
    | @address addr haddress hdata hof hhead hprog =>
      rw [haddress, hdata]
      refine iff_of_true ⟨?_, fun _ hd => (by cases hd), fun haddr => (by cases haddr)⟩
        ⟨fun h => absurd h hhead, fun path hrep => absurd hrep (hnot path), fun prog hw => ?_⟩
      · rintro _ ⟨⟩
        exact hof
      · rcases hprog prog hw with h20 | h32
        · exact Or.inl h20
        · exact Or.inr (Or.inl h32)
    | @nothing prog haddress hdata hscript hlen =>
      rw [haddress, hdata]
      refine iff_of_false (fun h => h.2.2 rfl rfl rfl) fun h => ?_
      rcases h.program prog hscript with h20 | h32 | ⟨path, hrep⟩
      · exact hlen.1 h20
      · exact hlen.2 h32
      · exact hnot path hrep
    | opReturn haddress hdata hhead hprog =>
      rw [haddress, hdata]
      constructor
      · intro h
        exact ⟨fun _ => opReturn_iff.1 (h.2.1 _ rfl), fun path hrep => absurd hrep (hnot path),
          fun prog hw => absurd hw (hprog 0 prog)⟩
      · intro h
        refine ⟨fun _ haddr => (by cases haddr), ?_, fun _ hd => (by cases hd)⟩
        rintro _ ⟨⟩
        exact opReturn_iff.2 (h.opReturn hhead)

theorem getTxout_spec (psbtOut : PartiallySignedOutput) :
    (psbtOut.amount ≠ none ∧ psbtOut.script ≠ [] ∧
        ∃ out, psbtOut.getTxout = .ok out ∧ out.scriptPubKey = psbtOut.script) ∨
      (psbtOut.amount = none ∨ psbtOut.script = []) ∧ psbtOut.getTxout = .error .assertionError := by
  unfold PartiallySignedOutput.getTxout
  cases psbtOut.amount with
  | none => exact Or.inr ⟨Or.inl rfl, rfl⟩
  | some amount =>
    simp only
    split_ifs with hscript
    · rw [ne_eq, List.length_eq_zero_iff] at hscript
      exact Or.inl ⟨Option.some_ne_none amount, hscript, _, rfl, rfl⟩
    · rw [ne_eq, not_not, List.length_eq_zero_iff] at hscript
      exact Or.inr ⟨Or.inr hscript, rfl⟩

variable (R chain masterFp xpub psbtOut) in
/-- The loop over the outputs gets past an output, or ends with one of the two kinds of
exceptions. -/
theorem prepareOutput_verdict : Verdict Rejected (prepareOutput R chain masterFp xpub psbtOut)
    (fun txoutput => Determines R chain psbtOut.script txoutput ↔ Representable masterFp psbtOut)
    (OutputPasses xpub psbtOut) (OutputFault xpub psbtOut) := by
  rw [prepareOutput_eq]
  rcases getTxout_spec psbtOut with ⟨hamount, hne, out, hout, hscript⟩ | ⟨hnone, herror⟩
  · have hset : ¬(psbtOut.amount = none ∨ psbtOut.script = []) := not_or.2 ⟨hamount, hne⟩
    rw [hout, ok_bind]
    rw [← hscript] at hne
    rcases payTo_spec R chain hne with
      ⟨hknown, txoutput, hpay, hpath, hpaid⟩ | ⟨hunknown, hpay⟩
    · rw [hscript] at hknown hpaid hne
      rw [hpay, ok_bind]
      cases hparse : parseMultisig R (outputScript psbtOut) xpub psbtOut.hdKeypaths with
      | error e =>
        have hread : ¬ScriptRead xpub psbtOut.hdKeypaths (outputScript psbtOut) := by
          rw [← parseMultisig_isOk_iff (R := R), hparse]
          rintro ⟨_, h⟩
          cases h
        have hcut := @raising_parseMultisig R xpub psbtOut.hdKeypaths (outputScript psbtOut)
        rw [hparse, raising_error] at hcut
        by_cases he : Rejected e
        · refine .raised (raising_error.2 he) (fun h => hread h.read) fun h => ?_
          cases h with
          | unset h => exact hset h
          | script _ h => exact hcut.2 h he
        · exact .fault (raising_error.2 he) (fun h => hread h.read) (.script hknown (hcut.1 he))
      | ok multisig =>
        have hread := parseMultisig_isOk_iff.1 ⟨multisig, hparse⟩
        refine .ok rfl ?_ ⟨hamount, hne, hknown, hread⟩ fun h => ?_
        · refine paidAs_determines_iff hpaid hpath ?_
          have hchange := addChange_spec masterFp hscript txoutput
          -- the multisig says nothing of the script
          cases multisig <;> exact hchange
        · cases h with
          | unset h => exact hset h
          | script _ hcut =>
            rw [← raising_parseMultisig (R := R), hparse] at hcut
            exact not_raising_ok hcut
    · rw [hpay]
      rw [hscript] at hunknown
      refine .raised (raising_error.2 (Or.inl rfl)) (fun h => h.known hunknown) fun h => ?_
      cases h with
      | unset h => exact hset h
      | script hknown _ => exact hknown hunknown
  · rw [herror]
    refine .fault (raising_error.2 ?_) (fun h => hnone.elim h.amount h.script) (.unset hnone)
    simp [Rejected, Exc.isHWWError, Exc.isValueError]

end TrezorClient

end Hwi
