import Hwi.Format.Spend
import Hwi.Lib.Indexed
import Hwi.Lib.LastWrite
import Hwi.Spec.Ledger

/-! What a signing call with a Ledger is to leave: where a yielded signature
belongs, which PSBT the yielded signatures make of the caller's, and which
wallet a multisig script stands for. -/

namespace Hwi

/-- A witness program of version 1 or above. -/
def TaprootProgram (script : Bytes) : Prop := ∃ v prog, WitnessProgram script v prog ∧ 1 ≤ v

theorem taprootProgram_iff {script : Bytes} :
    TaprootProgram script ↔ (isWitness script).1 = true ∧ 1 ≤ (isWitness script).2.1 := by
  constructor
  · rintro ⟨v, prog, h, hv⟩
    rw [isWitness_eq_true_iff.2 h]
    exact ⟨rfl, hv⟩
  · rintro ⟨hwit, hv⟩
    exact ⟨_, _, isWitness_eq_true_iff.1 (Prod.ext hwit rfl), hv⟩

instance (script : Bytes) : Decidable (TaprootProgram script) :=
  decidable_of_iff _ taprootProgram_iff.symm

open LedgerBitcoin

/-! ### The yielded signatures -/

/-- The signatures yielded in an exchange. -/
def yieldsOf : Exchange → List (ℕ × PartialSignature)
  | (.signPsbt _ _ _, .ok r) =>
    r.yielded.filterMap fun res => (decodeSignpsbtYieldedValue res).toOption
  | _ => []

/-- The signatures yielded in a run, first to last. -/
def yields (exchanges : List Exchange) : List (ℕ × PartialSignature) := exchanges.flatMap yieldsOf

/-- The places of an input for signatures. -/
inductive Slot
  | partialSig (pubkey : Bytes)
  | tapScriptSig (pubkey leafHash : Bytes)
  | tapKeySig
deriving DecidableEq

/-- Where a signature for the spender of an output belongs. -/
def slot (spent : CTxOut) (y : PartialSignature) : Slot :=
  if TaprootProgram spent.scriptPubKey then
    match y.tapleafHash with
    | none => .tapKeySig
    | some leafHash => .tapScriptSig y.pubkey leafHash
  else .partialSig y.pubkey

/-- A yielded signature as a write to a place of an input. -/
def placeYield (psbt : PSBT) (y : ℕ × PartialSignature) : Option ((ℕ × Slot) × Bytes) := do
  let psbtIn ← psbt.inputs[y.1]?
  let spent ← spentOutput psbtIn
  return ((y.1, slot spent y.2), y.2.signature)

/-- Input `i` after some writes: nothing but its signatures changes, a place that
was written holds the last signature, except a `tap_key_sig` that was there. -/
structure SignedInput (writes : List ((ℕ × Slot) × Bytes)) (i : ℕ)
    (psbtIn signedIn : PartiallySignedInput) : Prop where
  frame : signedIn = { psbtIn with
    partialSigs := signedIn.partialSigs, tapScriptSigs := signedIn.tapScriptSigs,
    tapKeySig := signedIn.tapKeySig }
  partialSigs : ∀ pubkey, signedIn.partialSigs.get? pubkey =
    (lastWrite writes (i, .partialSig pubkey)).or (psbtIn.partialSigs.get? pubkey)
  tapScriptSigs : ∀ pubkey leafHash, signedIn.tapScriptSigs.get? (pubkey, leafHash) =
    (lastWrite writes (i, .tapScriptSig pubkey leafHash)).or
      (psbtIn.tapScriptSigs.get? (pubkey, leafHash))
  tapKeySig : signedIn.tapKeySig =
    if psbtIn.tapKeySig = [] then (lastWrite writes (i, .tapKeySig)).getD [] else psbtIn.tapKeySig

/-- What the yielded signatures make of a PSBT: each has its place, and the
inputs hold them. -/
structure SignedBy (ys : List (ℕ × PartialSignature)) (psbt signed : PSBT) : Prop where
  placed : ∀ y ∈ ys, (placeYield psbt y).isSome
  frame : signed = { psbt with inputs := signed.inputs }
  inputs : Indexed (SignedInput (ys.filterMap (placeYield psbt))) psbt.inputs signed.inputs

/-! ### Multisig wallets -/

/-- The registrations in a run, with the input each is made for. -/
def registrations (exchanges : List Exchange) : List (ℕ × MultisigWallet) :=
  exchanges.filterMap fun e => match e.1 with
    | .registerWallet inputNum wallet => some (inputNum, wallet)
    | _ => none

/-- A key expression is that of a global xpub the key is derived from. -/
def ExpressesKey (R : Runtime) (psbt : PSBT) (psbtIn : PartiallySignedInput) (pubkey : Bytes)
    (expr : Str) : Prop :=
  ∃ pkOrigin xpubBytes xpubOrigin xpub xpubStr,
    psbtIn.hdKeypaths.get? pubkey = some pkOrigin ∧
    psbt.xpub.get? xpubBytes = some xpubOrigin ∧
    xpubOrigin.fingerprint = pkOrigin.fingerprint ∧ xpubOrigin.path <+: pkOrigin.path ∧
    ExtendedKey.fromBytes xpubBytes = .ok xpub ∧ xpub.toString R = .ok xpubStr ∧
    expr = ['['] ++ xpubOrigin.toString '\'' ++ [']'] ++ xpubStr

/-- The wallet of an `m` of `pubkeys` script. -/
structure MatchesMultisig (R : Runtime) (psbt : PSBT) (psbtIn : PartiallySignedInput) (m : ℕ)
    (pubkeys : List Bytes) (wallet : MultisigWallet) : Prop where
  threshold_eq : wallet.threshold = m
  keysInfo : List.Forall₂ (ExpressesKey R psbt psbtIn) pubkeys wallet.keysInfo

end Hwi
