import Hwi.Proofs.ExtendedKey
import Hwi.Spec.DerivePub

/-! The flags of an extended key and its version, over derivation and the drivers that
change the version. -/

namespace Hwi

namespace KeyObject

def IsTestnetVersion (version : Bytes) : Prop :=
  version = ExtendedKey.TESTNET_PUBLIC ∨ version = ExtendedKey.TESTNET_PRIVATE

def IsPrivateVersion (version : Bytes) : Prop :=
  version = ExtendedKey.MAINNET_PRIVATE ∨ version = ExtendedKey.TESTNET_PRIVATE

instance (version : Bytes) : Decidable (IsTestnetVersion version) := inferInstanceAs (Decidable (_ ∨ _))

instance (version : Bytes) : Decidable (IsPrivateVersion version) := inferInstanceAs (Decidable (_ ∨ _))

/-- The flags are those of the version. -/
structure Consistent (key : KeyObject) : Prop where
  isTestnet : key.isTestnet = true ↔ IsTestnetVersion key.version
  isPrivate : key.isPrivate = true ↔ IsPrivateVersion key.version

/-- The public version of the network of a version. -/
def publicVersion (version : Bytes) : Bytes :=
  if IsTestnetVersion version then ExtendedKey.TESTNET_PUBLIC else ExtendedKey.MAINNET_PUBLIC

theorem consistent_new (version : Bytes) (depth : ℕ) (parentFingerprint : Bytes) (childNum : ℤ)
    (chaincode : Bytes) (privkey : Option Bytes) (pubkey : Bytes) :
    (new version depth parentFingerprint childNum chaincode privkey pubkey).Consistent where
  isTestnet := decide_eq_true_iff
  isPrivate := decide_eq_true_iff

/-- A child has the public version of the network that the flag of the parent names. -/
theorem derivePub_spec {R : Runtime} {key child : KeyObject} {i : ℤ} (h : derivePub R key i = .ok child) :
    child.Consistent ∧ child.version =
      if key.isTestnet then ExtendedKey.TESTNET_PUBLIC else ExtendedKey.MAINNET_PUBLIC := by
  unfold derivePub at h
  by_cases hhard : isHardened i = true
  · rw [if_pos hhard] at h
    cases h
  · rw [if_neg hhard] at h
    obtain ⟨_, -, h⟩ := bind_eq_ok.1 h
    obtain ⟨_, -, h⟩ := bind_eq_ok.1 h
    obtain ⟨_, -, h⟩ := bind_eq_ok.1 h
    obtain ⟨_, -, h⟩ := bind_eq_ok.1 h
    cases h
    exact ⟨consistent_new _ _ _ _ _ _ _, rfl⟩

theorem derivePubPath_cons {R : Runtime} {key key' : KeyObject} {i : ℤ} {path : List ℤ} :
    derivePubPath R key (i :: path) = .ok key' ↔
      ∃ child, derivePub R key i = .ok child ∧ derivePubPath R child path = .ok key' :=
  bind_eq_ok

/-- Every key on the way from a consistent one is consistent. -/
theorem Consistent.derivePubPath {R : Runtime} {key key' : KeyObject} {path : List ℤ}
    (hkey : key.Consistent) (h : derivePubPath R key path = .ok key') : key'.Consistent := by
  induction path generalizing key with
  | nil =>
    cases h
    exact hkey
  | cons i path ih =>
    obtain ⟨child, hchild, hrest⟩ := derivePubPath_cons.1 h
    exact ih (derivePub_spec hchild).1 hrest

/-- A consistent key, with consistent keys below it that stay on its network. -/
def StaysConsistent (R : Runtime) (key : KeyObject) : Prop :=
  ∀ (path : List ℤ) (parent : KeyObject), derivePubPath R key path = .ok parent →
    parent.Consistent ∧ ∀ (i : ℤ) (child : KeyObject), derivePub R parent i = .ok child →
      child.version = publicVersion parent.version

theorem staysConsistent_iff (R : Runtime) (key : KeyObject) : StaysConsistent R key ↔ key.Consistent := by
  constructor
  · intro h
    exact (h [] key rfl).1
  · intro hkey path parent hparent
    have hcons := hkey.derivePubPath hparent
    refine ⟨hcons, fun i child hchild => ?_⟩
    rw [(derivePub_spec hchild).2, publicVersion]
    by_cases htest : IsTestnetVersion parent.version
    · rw [if_pos htest, if_pos (hcons.isTestnet.2 htest)]
    · rw [if_neg htest, if_neg fun hflag => htest (hcons.isTestnet.1 hflag)]

/-- The version of a text that is read. -/
theorem deserialize_version {x : Str} {key : KeyObject} (h : deserialize x = .ok key) :
    key.Consistent ∧ key.version ∈ ExtendedKey.versions ∧
      ∃ data, Base58.decode x = .ok data ∧ data.take 4 = key.version := by
  unfold deserialize at h
  obtain ⟨k, hk, h⟩ := bind_eq_ok.1 h
  cases h
  obtain ⟨data, hdata, hbytes⟩ := bind_eq_ok.1 hk
  obtain ⟨hversion, depth, childNum, privkey, pubkey, hdepth, -, rfl, -⟩ := ExtendedKey.fromBytes_cases hbytes
  have hlong : 4 < data.length - 4 := by
    have hlt := (List.getElem?_eq_some_iff.1 hdepth).1
    rw [List.length_take] at hlt
    omega
  have htake : (data.take (data.length - 4)).take 4 = data.take 4 := by
    rw [List.take_take, Nat.min_eq_left hlong.le]
  exact ⟨consistent_new _ _ _ _ _ _ _, hversion, data, hdata, htake.symm⟩

/-- After the chain is set, the flags are those of the version on the main chain, and
of a public key of a test network otherwise. -/
theorem consistent_setChain {key : KeyObject} (hkey : key.Consistent)
    (hversion : key.version ∈ ExtendedKey.versions) (chain : Chain) :
    (key.setChain chain).Consistent ↔ chain = .main ∨ key.version = ExtendedKey.TESTNET_PUBLIC := by
  unfold setChain
  by_cases hchain : chain = .main
  · rw [if_neg (not_not.2 hchain)]
    exact iff_of_true hkey (Or.inl hchain)
  · rw [if_pos hchain]
    have hflags : ({ key with version := ExtendedKey.TESTNET_PUBLIC } : KeyObject).Consistent ↔
        IsTestnetVersion key.version ∧ ¬IsPrivateVersion key.version := by
      have htest : IsTestnetVersion ExtendedKey.TESTNET_PUBLIC := Or.inl rfl
      have hpriv : ¬IsPrivateVersion ExtendedKey.TESTNET_PUBLIC := by decide
      rw [← hkey.isTestnet, ← hkey.isPrivate]
      exact ⟨fun h => ⟨h.isTestnet.2 htest, fun hflag => hpriv (h.isPrivate.1 hflag)⟩,
        fun h => ⟨iff_of_true h.1 htest, iff_of_false h.2 hpriv⟩⟩
    rw [hflags]
    simp only [hchain, false_or]
    unfold ExtendedKey.versions at hversion
    simp only [List.mem_cons, List.not_mem_nil, or_false] at hversion
    rcases hversion with h | h | h | h <;> rw [h] <;> decide

end KeyObject

/-! ### Drivers -/

theorem mapError_eq_ok {α : Type} {f : Exc → Exc} {x : Except Exc α} {a : α} :
    mapError f x = .ok a ↔ x = .ok a := by
  cases x <;> simp [mapError]

theorem map_some_eq_ok {α : Type} {x : Except Exc α} {a : α} (h : some <$> x = .ok (some a)) : x = .ok a := by
  cases x with
  | error e => cases h
  | ok b =>
    cases h
    rfl

theorem catchDbbError_eq_some {α : Type} {x : Except Exc α} {a : α}
    (h : DigitalbitboxClient.catchDbbError x = .ok (some a)) : x = .ok a := by
  unfold DigitalbitboxClient.catchDbbError at h
  split at h
  · cases h
    rfl
  · split_ifs at h
    cases h
  · cases h

namespace PubkeyDriver

/-- Every driver reads the text that its device returns and sets the chain. -/
theorem getPubkeyAtPath_eq {chain : Chain} {driver : PubkeyDriver} {path : Str} {key : KeyObject}
    (h : driver.getPubkeyAtPath chain path = .ok (some key)) :
    ∃ x k, driver.requestXpub path = .ok x ∧ KeyObject.deserialize x = .ok k ∧ key = k.setChain chain := by
  have hbody : (do
      let xpubStr ← driver.requestXpub path
      let xpub ← KeyObject.deserialize xpubStr
      return xpub.setChain chain) = .ok key := by
    cases driver with
    | trezor device => exact mapError_eq_ok.1 (map_some_eq_ok h)
    | coldcard device => exact map_some_eq_ok h
    | digitalbitbox device => exact catchDbbError_eq_some h
  obtain ⟨x, hx, hbody⟩ := bind_eq_ok.1 hbody
  obtain ⟨k, hk, hbody⟩ := bind_eq_ok.1 hbody
  cases hbody
  exact ⟨x, k, hx, hk, rfl⟩

/-- The key that a driver returns, and the keys below it, stay consistent with their
network on the main chain, and elsewhere where the device returns the public key of a
test network. -/
theorem getPubkeyAtPath_staysConsistent (R : Runtime) {chain : Chain} {driver : PubkeyDriver} {path : Str}
    {key : KeyObject} (h : driver.getPubkeyAtPath chain path = .ok (some key)) :
    key.StaysConsistent R ↔ chain = .main ∨ ∃ x data, driver.requestXpub path = .ok x ∧
      Base58.decode x = .ok data ∧ data.take 4 = ExtendedKey.TESTNET_PUBLIC := by
  obtain ⟨x, k, hx, hk, rfl⟩ := getPubkeyAtPath_eq h
  obtain ⟨hcons, hversion, data, hdata, htake⟩ := KeyObject.deserialize_version hk
  rw [KeyObject.staysConsistent_iff, KeyObject.consistent_setChain hcons hversion chain]
  refine or_congr Iff.rfl ⟨fun htest => ⟨x, data, hx, hdata, htake.trans htest⟩, ?_⟩
  rintro ⟨x', data', hx', hdata', htest⟩
  cases hx.symm.trans hx'
  cases hdata.symm.trans hdata'
  exact htake.symm.trans htest

/-- The master key of the first test vector of BIP 32. -/
def masterXpub : Str :=
  ("xpub661MyMwAqRbcFtXgS5sYJABqqG9YLmC4Q1Rdap9gSE8NqtwybGhePY2gZ29ESFjqJoCu1Rupje8YtGqsefD265TMg7usUDFdp" ++
    "6W1EGMcet8").toList

/-- A device that returns one key. -/
def masterDevice : PubkeyDriver := .coldcard { checkMitm := .ok (), getXpub := fun _ => .ok masterXpub }

theorem getPubkeyAtPath_staysConsistent_sample :
    ∃ key, masterDevice.getPubkeyAtPath .main ['m'] = .ok (some key) ∧ key.StaysConsistent Runtime.zeros := by
  have hsome : (masterDevice.getPubkeyAtPath .main ['m']).toOption.join.isSome = true := by decide +kernel
  obtain ⟨key, hkey⟩ := Option.isSome_iff_exists.1 hsome
  have hcall := toOption_eq_some.1 (Option.join_eq_some_iff.1 hkey)
  exact ⟨key, hcall, (getPubkeyAtPath_staysConsistent Runtime.zeros hcall).2 (Or.inl rfl)⟩

/-- A key of the main network is returned on a test network with its old flags. -/
theorem getPubkeyAtPath_main_on_test :
    ¬ ∀ (R : Runtime) (chain : Chain) (driver : PubkeyDriver) (path : Str) (key : KeyObject),
      driver.getPubkeyAtPath chain path = .ok (some key) → key.StaysConsistent R := by
  intro h
  have hflag : (masterDevice.getPubkeyAtPath .test ['m']).toOption.join.any
      (fun key => !key.isTestnet && decide (key.version = ExtendedKey.TESTNET_PUBLIC)) = true := by
    decide +kernel
  obtain ⟨key, hkey, hflag⟩ := (Option.any_eq_true _ _).1 hflag
  have hcall := toOption_eq_some.1 (Option.join_eq_some_iff.1 hkey)
  have hcons := (h Runtime.zeros .test masterDevice ['m'] key hcall [] key rfl).1
  simp only [Bool.and_eq_true, Bool.not_eq_true', decide_eq_true_iff] at hflag
  have htrue := hcons.isTestnet.2 (Or.inl hflag.2)
  rw [hflag.1] at htrue
  cases htrue

end PubkeyDriver

end Hwi
