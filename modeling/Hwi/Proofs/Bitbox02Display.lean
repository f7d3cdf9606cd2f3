import Hwi.Lib.Result
import Hwi.Spec.Bitbox02

/-! Multisig addresses on a BitBox02: a descriptor with keys is refused by the
runtime, which has no sets of lists. -/

namespace Hwi

namespace Bitbox02Client

open Bitbox02 Procedure

variable {R : Runtime} {chain : Chain} {device : Device} {addrType : AddressType}
  {multisig : MultisigDescriptor}

/-- The key of a cosigner as the device is told it. -/
def cosignerXpub (R : Runtime) (pk : PubkeyProvider) : Except Exc XPub :=
  match pk.extkey with
  | none => .error .assertionError
  | some extkey => do
    let data ← extkey.serialize
    parseXpub R (encodeCheck R data)

def SameSuffixes (multisig : MultisigDescriptor) : Prop :=
  ∀ p ∈ multisig.pubkeys, ∀ q ∈ multisig.pubkeys, p.getDerivPath 0 0 = q.getDerivPath 0 0

/-- A descriptor that the BitBox02 can show, given which keys are those of the
device. -/
def Displayable (ours : PubkeyProvider → Prop) (multisig : MultisigDescriptor) : Prop :=
  multisig.isSorted = true ∧ SameSuffixes multisig ∧ ∃ pk ∈ multisig.pubkeys, ours pk

/-- A request for the address of a key, at the path of its origin followed by the
suffix, that lists the keys of all cosigners once. -/
def AsksFor (R : Runtime) (multisig : MultisigDescriptor) (pk : PubkeyProvider) (request : Request) :
    Prop :=
  ∃ origin suffix coin m xpub, pk.origin = some origin ∧ pk.getDerivPath 0 0 = .ok suffix ∧
    request = .btcAddress (origin.path ++ suffix) coin (.multisig m) ∧ m.xpubs.Nodup ∧
    (∀ x, x ∈ m.xpubs ↔ ∃ q ∈ multisig.pubkeys, cosignerXpub R q = .ok x) ∧
    cosignerXpub R pk = .ok xpub ∧ m.xpubs[m.ourXpubIndex]? = some xpub

/-- The call is refused with `BadArgumentError` exactly when the descriptor cannot
be shown, and asks for the address of a key of the device otherwise. -/
def DisplaysAddress (R : Runtime) (chain : Chain) (device : Device) (addrType : AddressType)
    (ours : PubkeyProvider → Prop) (multisig : MultisigDescriptor) (s : Session) : Prop :=
  ((∃ msg s', (displayMultisigAddress R chain device addrType multisig).run s =
      .error (.badArgumentError msg) s') ↔ ¬Displayable ours multisig) ∧
  (Displayable ours multisig → ∃ pk ∈ multisig.pubkeys, ours pk ∧
    ∃ request ∈ ((displayMultisigAddress R chain device addrType multisig).after s).requests.drop
      s.requests.length, AsksFor R multisig pk request)

theorem getDerivPath_error {p : PubkeyProvider} {pos : ℤ} {multipathPos : ℕ} {e : Exc}
    (h : p.getDerivPath pos multipathPos = .error e) : e = .indexError := by
  unfold PubkeyProvider.getDerivPath at h
  rcases bind_eq_error.1 h with hpath | ⟨path, -, h⟩
  · obtain ⟨step, -, hstep⟩ := exists_of_mapM_error hpath
    split at hstep
    · cases hstep
    · split at hstep
      · cases hstep
      · exact (Except.error.inj hstep).symm
  · cases h

theorem run_unsorted (h : multisig.isSorted = false) (s : Session) :
    (displayMultisigAddress R chain device addrType multisig).run s =
      .error (.badArgumentError "BitBox02 only supports sortedmulti descriptors") s := by
  unfold displayMultisigAddress
  rw [h]
  rfl

theorem run_no_keys (h : multisig.isSorted = true) (hkeys : multisig.pubkeys = []) (s : Session) :
    (displayMultisigAddress R chain device addrType multisig).run s =
      .error (.badArgumentError "All multisig path suffixes must be the same") s := by
  unfold displayMultisigAddress
  rw [h, hkeys]
  rfl

/-- The first suffix is refused, or cannot be computed. -/
theorem run_keys (h : multisig.isSorted = true) (hkeys : multisig.pubkeys ≠ []) (s : Session) :
    ∃ e, (e = .typeError ∨ e = .indexError) ∧
      (displayMultisigAddress R chain device addrType multisig).run s = .error e s := by
  obtain ⟨pk, pks, hpubkeys⟩ := List.exists_cons_of_ne_nil hkeys
  unfold displayMultisigAddress
  rw [h, hpubkeys, pathSuffixes]
  cases hpath : pk.getDerivPath 0 0 with
  | ok path => exact ⟨.typeError, Or.inl rfl, rfl⟩
  | error e =>
    obtain rfl := getDerivPath_error hpath
    exact ⟨.indexError, Or.inr rfl, rfl⟩

/-- The call does what it should exactly for the descriptors it refuses before it
looks at a key, and for those without keys. -/
theorem displayMultisigAddress_iff (R : Runtime) (chain : Chain) (device : Device)
    (addrType : AddressType) (ours : PubkeyProvider → Prop) (multisig : MultisigDescriptor)
    (s : Session) : DisplaysAddress R chain device addrType ours multisig s ↔
      multisig.isSorted = false ∨ multisig.pubkeys = [] := by
  unfold DisplaysAddress
  cases hsorted : multisig.isSorted with
  | false =>
    have hnot : ¬Displayable ours multisig := fun hd => by rw [hd.1] at hsorted; cases hsorted
    refine iff_of_true ⟨iff_of_true ⟨_, s, run_unsorted hsorted s⟩ hnot, fun hd => absurd hd hnot⟩ ?_
    exact Or.inl rfl
  | true =>
    by_cases hkeys : multisig.pubkeys = []
    · have hnot : ¬Displayable ours multisig := fun ⟨_, _, pk, hpk, _⟩ => by
        rw [hkeys] at hpk
        cases hpk
      refine iff_of_true ⟨iff_of_true ⟨_, s, run_no_keys hsorted hkeys s⟩ hnot,
        fun hd => absurd hd hnot⟩ (Or.inr hkeys)
    · obtain ⟨e, he, hrun⟩ : ∃ e, (e = .typeError ∨ e = .indexError) ∧
          (displayMultisigAddress R chain device addrType multisig).run s = .error e s :=
        run_keys hsorted hkeys s
      refine iff_of_false (fun ⟨hiff, hasks⟩ => ?_) (by simp [hkeys])
      have hshown : Displayable ours multisig := by
        by_contra hnot
        obtain ⟨msg, s', hmsg⟩ := hiff.2 hnot
        rw [hrun] at hmsg
        rcases he with rfl | rfl <;> cases hmsg
      obtain ⟨pk, -, -, request, hrequest, -⟩ := hasks hshown
      unfold Procedure.after at hrequest
      rw [hrun] at hrequest
      simp at hrequest

/-! ### A descriptor with one key -/

def soleCosigner : PubkeyProvider where
  origin := some {
    fingerprint := [0, 0, 0, 1]
    path := [2 ^ 31 + 48, 2 ^ 31, 2 ^ 31, 2 ^ 31 + 2] }
  pubkey :=
    ("xpub6DXuQW1Q2JpZw23yMtUxaAggytpkGQ5wTjqvt17nujzM8Msp62cgoVK1GRKhc69WGqRLMtP9iiFCYfv1zuq" ++
      "WTg8SbSe1xM4WfLxXFcZJFwR").toList
  derivPath := some [[0], [5]]
  exprIndex := 0
  ranged := false
  extkey := some {
    version := ExtendedKey.MAINNET_PUBLIC
    depth := 4
    parentFingerprint := [0, 0, 0, 0]
    childNum := 2 ^ 31 + 2
    chaincode := List.replicate 32 2
    privkey := none
    pubkey := [0x02, 0xc6, 0x04, 0x7f, 0x94, 0x41, 0xed, 0x7d, 0x6d, 0x30, 0x45, 0x40, 0x6e, 0x95, 0xc0,
      0x7c, 0xd8, 0x5c, 0x77, 0x8e, 0x4b, 0x8c, 0xef, 0x3c, 0xa7, 0xab, 0xac, 0x09, 0xb9, 0x5c,
      0x70, 0x9e, 0xe5] }

/-- A device that answers with its fingerprint, the key above and an address. -/
def soleDevice : Device := fun _ request => match request with
  | .rootFingerprint => .ok [0, 0, 0, 1]
  | .btcXpub _ _ => .ok soleCosigner.pubkey
  | .btcIsScriptConfigRegistered _ _ _ => .ok true
  | .btcRegisterScriptConfig _ _ _ _ => .ok ()
  | .btcAddress _ _ _ => .ok "bc1".toList
  | .btcSign _ => .ok []

/-- A sorted multisig of one key, which is that of the device. -/
theorem displayMultisigAddress_typeError :
    Displayable (fun pk => pk = soleCosigner) ⟨[soleCosigner], 1, true⟩ ∧
      (displayMultisigAddress Runtime.zeros .main soleDevice .wit ⟨[soleCosigner], 1, true⟩).run
        { psbt := {} } = .error .typeError { psbt := {} } := by
  refine ⟨⟨rfl, ?_, soleCosigner, List.mem_cons_self, rfl⟩, rfl⟩
  intro p hp q hq
  rw [List.mem_singleton.1 hp, List.mem_singleton.1 hq]

end Bitbox02Client

end Hwi
