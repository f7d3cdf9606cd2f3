import Hwi.Lib.Result
import Hwi.Proofs.Ledger

/-! The multisig wallets a signing call registers. -/

namespace Hwi

open LedgerBitcoin Procedure

namespace LedgerClient

variable {R : Runtime} {chain : Chain} {device : Device}

/-! ### The key expressions of a script -/

theorem keyExpression_eq_ok {origin : KeyOriginInfo} {pubkey expr : Str}
    (h : keyExpression origin pubkey = .ok expr) :
    expr = ['['] ++ origin.toString '\'' ++ [']'] ++ pubkey := by
  unfold keyExpression at h
  cases hhex : unhexlify pubkey with
  | ok b =>
    rw [hhex] at h
    exact (Except.ok.inj h).symm
  | error e =>
    rw [hhex] at h
    cases hkey : ExtendedKey.deserialize pubkey with
    | ok key =>
      rw [hkey] at h
      exact (Except.ok.inj h).symm
    | error e' =>
      rw [hkey] at h
      cases h

theorem isParent_iff {xpubOrigin pkOrigin : KeyOriginInfo} :
    isParent xpubOrigin pkOrigin = true ↔
      xpubOrigin.fingerprint = pkOrigin.fingerprint ∧ xpubOrigin.path <+: pkOrigin.path := by
  rw [isParent, decide_eq_true_iff, List.prefix_iff_eq_take]

/-- The first parent of a key decides its key expression. -/
theorem exists_of_findXpub {pkOrigin : KeyOriginInfo} {expr : Str} :
    ∀ {xpubs : List (Bytes × KeyOriginInfo)}, findXpub R pkOrigin xpubs = .ok (some expr) →
      ∃ xpubBytes xpubOrigin xpub xpubStr, (xpubBytes, xpubOrigin) ∈ xpubs ∧
        isParent xpubOrigin pkOrigin = true ∧ ExtendedKey.fromBytes xpubBytes = .ok xpub ∧
        xpub.toString R = .ok xpubStr ∧
        expr = ['['] ++ xpubOrigin.toString '\'' ++ [']'] ++ xpubStr
  | [], h => by cases h
  | (xpubBytes, xpubOrigin) :: rest, h => by
    unfold findXpub at h
    obtain ⟨xpub, hkey, h⟩ := bind_eq_ok.1 h
    by_cases hparent : isParent xpubOrigin pkOrigin = true
    · rw [if_pos hparent] at h
      obtain ⟨xpubStr, hstr, h⟩ := bind_eq_ok.1 h
      obtain ⟨expr', hexpr, h⟩ := bind_eq_ok.1 h
      obtain rfl : expr' = expr := Option.some.inj (Except.ok.inj h)
      exact ⟨xpubBytes, xpubOrigin, xpub, xpubStr, List.mem_cons_self, hparent, hkey, hstr,
        keyExpression_eq_ok hexpr⟩
    · rw [if_neg hparent] at h
      obtain ⟨b, origin, key, str, hmem, hrest⟩ := exists_of_findXpub h
      exact ⟨b, origin, key, str, List.mem_cons_of_mem _ hmem, hrest⟩

/-- A key adds its own expression, or none where the input has no origin for it. -/
theorem findKeyExpr_eq_ok {psbt : PSBT} {psbtIn : PartiallySignedInput} {pub : Bytes}
    {keyExpr : List Str} (h : findKeyExpr R psbt.xpub psbtIn.hdKeypaths pub = .ok (keyExpr, true)) :
    if (psbtIn.hdKeypaths.get? pub).isSome then
      ∃ expr, keyExpr = [expr] ∧ ExpressesKey R psbt psbtIn pub expr
    else keyExpr = [] := by
  unfold findKeyExpr at h
  cases hpub : psbtIn.hdKeypaths.get? pub with
  | none =>
    rw [hpub] at h
    cases h
    rfl
  | some pkOrigin =>
    rw [hpub] at h
    obtain ⟨found, hfound, h⟩ := bind_eq_ok.1 h
    rw [if_pos Option.isSome_some]
    cases found with
    | none => cases h
    | some expr =>
      cases h
      obtain ⟨xpubBytes, xpubOrigin, xpub, xpubStr, hmem, hparent, hkey, hstr, hexpr⟩ :=
        exists_of_findXpub hfound
      obtain ⟨hfp, hpath⟩ := isParent_iff.1 hparent
      exact ⟨expr, rfl, pkOrigin, xpubBytes, xpubOrigin, xpub, xpubStr, hpub,
        Dict.get?_eq_some_iff.2 hmem, hfp, hpath, hkey, hstr, hexpr⟩

/-- The loop collects an expression for each key of the script that the input
has an origin for, in their order. -/
theorem forall₂_findKeyExprs {psbt : PSBT} {psbtIn : PartiallySignedInput} :
    ∀ {msPubkeys : List Bytes} {keyExprs : List Str},
      findKeyExprs R psbt.xpub psbtIn.hdKeypaths msPubkeys = .ok (keyExprs, true) →
      List.Forall₂ (ExpressesKey R psbt psbtIn)
        (msPubkeys.filter fun pubkey => (psbtIn.hdKeypaths.get? pubkey).isSome) keyExprs
  | [], keyExprs, h => by
    cases h
    exact .nil
  | pub :: rest, keyExprs, h => by
    unfold findKeyExprs at h
    obtain ⟨⟨keyExpr, found⟩, hkey, h⟩ := bind_eq_ok.1 h
    obtain ⟨⟨more, ok⟩, hrest, h⟩ := bind_eq_ok.1 h
    simp only [pure_eq_ok, Except.ok.injEq, Prod.mk.injEq, Bool.and_eq_true] at h
    obtain ⟨rfl, rfl, rfl⟩ := h
    have hmore := forall₂_findKeyExprs hrest
    have hone := findKeyExpr_eq_ok hkey
    by_cases hpub : (psbtIn.hdKeypaths.get? pub).isSome = true
    · rw [if_pos hpub] at hone
      obtain ⟨expr, rfl, hexpr⟩ := hone
      rw [List.filter_cons, if_pos hpub]
      exact .cons hexpr hmore
    · rw [if_neg hpub] at hone
      subst hone
      rw [List.filter_cons, if_neg hpub]
      exact hmore

/-- The wallet made of the collected expressions is that of the script if and
only if no key of the script was passed over. -/
theorem matchesMultisig_iff {psbt : PSBT} {psbtIn : PartiallySignedInput} {m : ℕ}
    {pubkeys : List Bytes} {keyExprs : List Str} {name : Str} {scriptAddrtype : AddressType}
    {wallet : MultisigWallet}
    (hfind : findKeyExprs R psbt.xpub psbtIn.hdKeypaths pubkeys = .ok (keyExprs, true))
    (hnew : MultisigWallet.new name scriptAddrtype m keyExprs = .ok wallet) :
    MatchesMultisig R psbt psbtIn m pubkeys wallet ↔
      ∀ pubkey ∈ pubkeys, (psbtIn.hdKeypaths.get? pubkey).isSome := by
  have hexprs := forall₂_findKeyExprs hfind
  obtain ⟨hm, hkeys⟩ := MultisigWallet.new_eq_ok hnew
  rw [← List.filter_eq_self]
  constructor
  · intro h
    have hlen := h.keysInfo.length_eq
    rw [hkeys, ← hexprs.length_eq] at hlen
    exact (List.filter_sublist (p := fun pubkey =>
      (psbtIn.hdKeypaths.get? pubkey).isSome)).eq_of_length hlen.symm
  · intro h
    rw [h] at hexprs
    exact ⟨hm, hkeys ▸ hexprs⟩

/-! ### The registrations of a run -/

/-- The input of the caller's PSBT a registration is made for, and what its
wallet is if no key of the script is passed over. -/
structure Registered (R : Runtime) (psbt : PSBT) (e : ℕ × MultisigWallet) : Prop where
  exists_input : ∃ psbtIn spent m pubkeys, psbt.inputs[e.1]? = some psbtIn ∧
    spentOutput psbtIn = some spent ∧
    parseMultisig (scriptCode psbtIn spent) = .ok (some (m, pubkeys)) ∧
    (MatchesMultisig R psbt psbtIn m pubkeys e.2 ↔
      ∀ pubkey ∈ pubkeys, (psbtIn.hdKeypaths.get? pubkey).isSome)

/-- The invariant of a call: the xpubs of the copy and the registrations made. -/
structure RegistersOnly (R : Runtime) (psbt : PSBT) (s : Session) : Prop where
  xpub_eq : s.psbt2.xpub = psbt.xpub
  registered : ∀ e ∈ registrations s.exchanges, Registered R psbt e

variable {psbt : PSBT}

/-- A request that registers nothing. -/
theorem RegistersOnly.allows {request : Request} (h : ∀ reply, registrations [(request, reply)] = []) :
    Allows (RegistersOnly R psbt) request := by
  intro s reply hs
  refine ⟨hs.xpub_eq, fun e he => hs.registered e ?_⟩
  rwa [registrations_concat, h, List.append_nil] at he

theorem RegistersOnly.queries : Queries (RegistersOnly R psbt) where
  masterFingerprint := RegistersOnly.allows fun _ => rfl
  extendedPubkey _ _ := RegistersOnly.allows fun _ => rfl
  wallets _ _ hs := ⟨hs.xpub_eq, hs.registered⟩

theorem RegistersOnly.allows_registerWallet {inputNum : ℕ} {wallet : MultisigWallet}
    (h : Registered R psbt (inputNum, wallet)) :
    Allows (RegistersOnly R psbt) (.registerWallet inputNum wallet) := by
  intro s reply hs
  refine ⟨hs.xpub_eq, fun e he => ?_⟩
  rw [registrations_concat] at he
  rcases List.mem_append.1 he with hold | hnew
  · exact hs.registered e hold
  · obtain rfl : e = (inputNum, wallet) := List.mem_singleton.1 hnew
    exact h

/-- One input of the copy. -/
theorem keeps_findWallets_registersOnly {masterFp : Bytes} {inputNum : ℕ}
    {psbtIn : PartiallySignedInput} (hin : psbt.inputs[inputNum]? = some psbtIn) (version : ℕ) :
    Keeps (RegistersOnly R psbt)
      (findWallets R chain device masterFp inputNum { psbtIn with version }) := by
  refine keeps_findWallets RegistersOnly.queries ?_ ?_
  · intro utxo s _ hs
    exact ⟨hs.xpub_eq, hs.registered⟩
  · intro utxo scriptcode scriptAddrtype k msPubkeys hutxo hscript hparse
    refine keeps_addMultisig RegistersOnly.queries ?_
    intro s keyExprs name msw hs hfind hnew
    rw [hs.xpub_eq] at hfind
    refine RegistersOnly.allows_registerWallet ⟨psbtIn, utxo, k, msPubkeys, hin, ?_, ?_, ?_⟩
    · exact findUtxo_eq_some hutxo
    · rw [← findScriptcode_eq_some hscript] at hparse
      exact hparse
    · exact matchesMultisig_iff hfind hnew

theorem keeps_storeSignature {P : Session → Prop}
    (h : ∀ s inputs, P s → P { s with psbt2 := { s.psbt2 with inputs } }) (idx : ℕ)
    (yielded : PartialSignature) : Keeps P (storeSignature idx yielded) := by
  unfold storeSignature
  refine Triple.get_bind fun s hs => ?_
  refine Triple.mono (P := P) ?_ (fun _ h => h ▸ hs) (fun _ _ h => h) fun _ _ h => h
  cases s.psbt2.inputs[idx]? with
  | none => exact keeps_throw _
  | some psbtIn => exact (keeps_ofExcept _).bind fun utxo => keeps_modify fun s hs => h s _ hs

theorem keeps_signPsbt {P : Session → Prop} {copy : PSBT} {wallet : WalletPolicy}
    {walletHmac : Option Bytes} (h : ∀ b, Allows P (.signPsbt b wallet walletHmac)) :
    Keeps P (signPsbt R device copy wallet walletHmac) := by
  unfold signPsbt
  split_ifs
  · exact keeps_throw _
  · refine (keeps_ofExcept _).bind fun psbtBytes => (keeps_ofExcept _).bind fun _ => ?_
    exact (keeps_makeRequest (h psbtBytes)).bind fun r => keeps_ofExcept _

theorem keeps_signWith_registersOnly (wallet : SigningWallet) :
    Keeps (RegistersOnly R psbt) (signWith R device wallet) := by
  have hsign : Keeps (RegistersOnly R psbt) (do
      let s ← get
      let inputSigs ← signPsbt R device s.psbt2 wallet.wallet wallet.walletHmac
      forM inputSigs fun y => storeSignature y.1 y.2) := by
    refine Keeps.bind keeps_get fun s => ?_
    refine Keeps.bind (keeps_signPsbt fun b => RegistersOnly.allows fun _ => rfl) fun sigs => ?_
    refine keeps_forM fun y _ => keeps_storeSignature ?_ y.1 y.2
    exact fun s inputs hs => ⟨hs.xpub_eq, hs.registered⟩
  unfold signWith
  split_ifs
  · exact (keeps_modify fun s hs => ⟨hs.xpub_eq, hs.registered⟩).bind fun _ => hsign
  · exact hsign

/-- The wallet registered for a multisig script has the threshold and, key by
key, the parent xpubs of the script if and only if the input has an origin for
every key of the script. -/
theorem signTx_registrations (R : Runtime) (chain : Chain) (device : Device)
    (registeredDescriptors : List RegisteredDescriptor) (psbt : PSBT) (i : ℕ)
    (wallet : MultisigWallet)
    (h : (i, wallet) ∈ registrations
      ((signTx R chain device registeredDescriptors).after (start psbt)).exchanges) :
    ∃ psbtIn spent m pubkeys, psbt.inputs[i]? = some psbtIn ∧ spentOutput psbtIn = some spent ∧
      parseMultisig (scriptCode psbtIn spent) = .ok (some (m, pubkeys)) ∧
      (MatchesMultisig R psbt psbtIn m pubkeys wallet ↔
        ∀ pubkey ∈ pubkeys, (psbtIn.hdKeypaths.get? pubkey).isSome) := by
  have hcall : Triple (· = start psbt) (signTx R chain device registeredDescriptors)
      (fun _ => RegistersOnly R psbt) fun _ => RegistersOnly R psbt := by
    have hprepared (s : Session) (copy : PSBT) (hs : Prepared psbt copy s) :
        RegistersOnly R psbt s := by
      refine ⟨by rw [hs.psbt2_eq, hs.xpub_eq], fun e he => ?_⟩
      rw [hs.registrations_eq] at he
      cases he
    refine triple_signTx (P := RegistersOnly R psbt) ?_ ?_ ?_ ?_ ?_ ?_
    · exact fun s hs => hprepared s _ hs
    · exact fun masterFp inputNum psbtIn version hin => keeps_findWallets_registersOnly hin version
    · exact keeps_signWith_registersOnly
    · exact fun s hs => ⟨hs.xpub_eq, hs.registered⟩
    · exact hprepared
    · exact fun s hs => hs
  exact ((hcall.after rfl).registered (i, wallet) h).exists_input

/-! ### A 1-of-2 script -/

/-- A key that starts with 02. -/
def samplePubkey (n : UInt8) : Bytes := 0x02 :: List.replicate 32 n

def multisigSampleScript : Bytes :=
  [0x51, 0x21] ++ samplePubkey 1 ++ [0x21] ++ samplePubkey 2 ++ [0x52, 0xae]

def sampleOrigin (path : List ℤ) : KeyOriginInfo := { fingerprint := [0, 0, 0, 1], path }

def sampleXpub : Bytes :=
  ExtendedKey.MAINNET_PUBLIC ++ [0x00] ++ List.replicate 8 0 ++ List.replicate 32 3 ++ samplePubkey 4

/-- An input that spends a P2WSH output of the script. -/
def multisigSampleInput (hdKeypaths : Dict Bytes KeyOriginInfo) : PartiallySignedInput :=
  { version := 0
    witnessUtxo := some { nValue := 1000, scriptPubKey := [0x00, 0x20] ++ List.replicate 32 0 }
    witnessScript := multisigSampleScript
    hdKeypaths }

def multisigSample (hdKeypaths : Dict Bytes KeyOriginInfo) : PSBT :=
  { inputs := [multisigSampleInput hdKeypaths]
    xpub := (∅ : Dict Bytes KeyOriginInfo).set sampleXpub (sampleOrigin []) }

/-- A device that registers every wallet and signs nothing. -/
def registeringDevice : Device := fun _ request => match request with
  | .getMasterFingerprint => .ok { sw := 0x9000, response := [0, 0, 0, 1] }
  | .registerWallet _ _ => .ok { sw := 0x9000, response := List.replicate 64 0 }
  | _ => .ok { sw := 0x6985, response := [] }

def bothKeys : Dict Bytes KeyOriginInfo :=
  ((∅ : Dict Bytes KeyOriginInfo).set (samplePubkey 1) (sampleOrigin [1])).set (samplePubkey 2)
    (sampleOrigin [2])

def firstKey : Dict Bytes KeyOriginInfo :=
  (∅ : Dict Bytes KeyOriginInfo).set (samplePubkey 1) (sampleOrigin [1])

/-- The registrations a call makes for the script. -/
def sampleRegistrations (hdKeypaths : Dict Bytes KeyOriginInfo) : List (ℕ × MultisigWallet) :=
  registrations ((signTx Runtime.zeros .main registeringDevice []).after
    (start (multisigSample hdKeypaths))).exchanges

theorem parseMultisig_multisigSampleScript :
    parseMultisig multisigSampleScript = .ok (some (1, [samplePubkey 1, samplePubkey 2])) := by
  decide +kernel

/-- With the origins of both keys the registered wallet is that of the script. -/
theorem signTx_registrations_bothKeys :
    ∃ wallet, (0, wallet) ∈ sampleRegistrations bothKeys ∧
      MatchesMultisig Runtime.zeros (multisigSample bothKeys) (multisigSampleInput bothKeys) 1
        [samplePubkey 1, samplePubkey 2] wallet := by
  obtain ⟨⟨i, wallet⟩, hmem, hwallet⟩ := exists_of_map_eq_singleton (b := (0, 1, 2))
    (f := fun e => (e.1, e.2.threshold, e.2.keysInfo.length)) (l := sampleRegistrations bothKeys)
    (by decide +kernel)
  obtain rfl : i = 0 := congrArg Prod.fst hwallet
  obtain ⟨psbtIn, spent, m, pubkeys, hin, hspent, hparse, hiff⟩ :=
    signTx_registrations Runtime.zeros .main registeringDevice [] (multisigSample bothKeys) 0 wallet
      hmem
  obtain rfl : multisigSampleInput bothKeys = psbtIn := Option.some.inj hin
  obtain rfl := Option.some.inj hspent
  have hscript := parseMultisig_multisigSampleScript.symm.trans hparse
  simp only [Except.ok.injEq, Option.some.injEq, Prod.mk.injEq] at hscript
  obtain ⟨rfl, rfl⟩ := hscript
  exact ⟨wallet, hmem, hiff.2 (by decide +kernel)⟩

/-- Without the origin of the second key a wallet of one key is registered. -/
theorem signTx_registrations_firstKey :
    ∃ wallet, (0, wallet) ∈ sampleRegistrations firstKey ∧
      parseMultisig (multisigSampleInput firstKey).witnessScript =
        .ok (some (1, [samplePubkey 1, samplePubkey 2])) ∧
      wallet.keysInfo.length = 1 ∧
      ¬MatchesMultisig Runtime.zeros (multisigSample firstKey) (multisigSampleInput firstKey) 1
        [samplePubkey 1, samplePubkey 2] wallet := by
  obtain ⟨⟨i, wallet⟩, hmem, hwallet⟩ := exists_of_map_eq_singleton (b := (0, 1, 1))
    (f := fun e => (e.1, e.2.threshold, e.2.keysInfo.length)) (l := sampleRegistrations firstKey)
    (by decide +kernel)
  obtain ⟨rfl, -, hlen⟩ : i = 0 ∧ wallet.threshold = 1 ∧ wallet.keysInfo.length = 1 := by
    simpa using hwallet
  refine ⟨wallet, hmem, parseMultisig_multisigSampleScript, hlen, fun h => ?_⟩
  have htwo := h.keysInfo.length_eq
  rw [hlen] at htwo
  cases htwo

end LedgerClient

end Hwi
