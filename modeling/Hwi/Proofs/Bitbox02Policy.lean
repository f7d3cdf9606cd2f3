import Hwi.Proofs.Bitbox02Config
import Hwi.Proofs.Template

/-! Which registered policy the BitBox02 client signs with. -/

namespace Hwi

namespace Bitbox02Client

open Bitbox02 Procedure

variable {R : Runtime} {chain : Chain} {device : Device} {masterFp : Bytes} {s : Session}

theorem raising_serialize (extkey : ExtendedKey) : Raising Refusal extkey.serialize ↔
    extkey.childNum < 2 ^ 32 ∧ ExtendedKey.isPrivate extkey.version = true ∧ extkey.privkey = none := by
  have hfits : 0 ≤ (extkey.childNum : ℤ) ∧ (extkey.childNum : ℤ) < 256 ^ 4 ↔
      extkey.childNum < 2 ^ 32 := by omega
  unfold ExtendedKey.serialize pack
  simp only [hfits]
  by_cases hchild : extkey.childNum < 2 ^ 32
  · rw [if_pos hchild, ok_bind]
    split_ifs with hprivate
    · cases extkey.privkey with
      | none =>
        rw [throw_eq_error, raising_error]
        exact iff_of_true (.value rfl) ⟨hchild, hprivate, rfl⟩
      | some privkey => exact iff_of_false not_raising_ok (by simp)
    · exact iff_of_false not_raising_ok fun h => hprivate h.2.1
  · rw [if_neg hchild, error_bind, raising_error]
    exact iff_of_false not_refusal_structError fun h => hchild h.1

/-- What is found of a key of the policy: the path at which the device has it. -/
def OurPolicyKey (R : Runtime) (chain : Chain) (device : Device) (masterFp : Bytes)
    (pubkey : PubkeyProvider) (requests : List Request) (our : Option (List ℤ))
    (requests' : List Request) : Prop :=
  (∀ origin extkey, ¬Candidate masterFp pubkey origin extkey) ∧ our = none ∧ requests' = requests ∨
    ∃ origin extkey deviceXpub data, Candidate masterFp pubkey origin extkey ∧
      XpubRead R chain device requests origin.path deviceXpub ∧ extkey.serialize = .ok data ∧
      our = (if deviceXpub.drop 4 = data.drop 4 then some origin.path else none) ∧
      requests' = requests ++ [.btcXpub origin.path (getCoin chain)]

/-- Nothing is found, for a reason that is a bad argument. -/
def UnseenPolicyKey (R : Runtime) (chain : Chain) (device : Device) (masterFp : Bytes)
    (pubkey : PubkeyProvider) (requests : List Request) : Prop :=
  ∃ origin extkey, Candidate masterFp pubkey origin extkey ∧
    (XpubRefused R chain device requests origin.path ∨
      ∃ deviceXpub, XpubRead R chain device requests origin.path deviceXpub ∧
        Raising Refusal extkey.serialize)

theorem asking_ourPolicyKey (pubkey : PubkeyProvider) :
    Asking (ourPolicyKey R chain device masterFp pubkey) s
      (OurPolicyKey R chain device masterFp pubkey s.requests)
      (UnseenPolicyKey R chain device masterFp pubkey s.requests) := by
  have hnone : (∀ origin extkey, ¬Candidate masterFp pubkey origin extkey) →
      Asking (pure none) s (OurPolicyKey R chain device masterFp pubkey s.requests)
        (UnseenPolicyKey R chain device masterFp pubkey s.requests) := by
    intro hno
    refine (asking_pure none).congr (fun our requests => ?_) (iff_of_false id ?_)
    · constructor
      · rintro ⟨rfl, rfl⟩
        exact Or.inl ⟨hno, rfl, rfl⟩
      · rintro (⟨-, rfl, rfl⟩ | ⟨origin, extkey, -, -, hcand, -⟩)
        · exact ⟨rfl, rfl⟩
        · exact absurd hcand (hno origin extkey)
    · rintro ⟨origin, extkey, hcand, -⟩
      exact hno origin extkey hcand
  unfold ourPolicyKey
  split
  · rename_i origin extkey horigin hextkey
    split_ifs with hfp
    · refine hnone ?_
      rintro _ _ ⟨horigin', -, hfp'⟩
      rw [horigin] at horigin'
      cases horigin'
      exact hfp hfp'
    · have hcand : Candidate masterFp pubkey origin extkey := ⟨horigin, hextkey, not_not.1 hfp⟩
      have honly : ∀ origin' extkey', Candidate masterFp pubkey origin' extkey' →
          origin' = origin ∧ extkey' = extkey := by
        rintro origin' extkey' ⟨horigin', hextkey', -⟩
        rw [horigin] at horigin'
        rw [hextkey] at hextkey'
        cases horigin'
        cases hextkey'
        exact ⟨rfl, rfl⟩
      refine Asking.congr (asking_getXpub_bind fun deviceXpub => asking_ofExcept_bind fun data _ =>
        asking_pure _) (fun our requests => ?_) ?_
      · constructor
        · rintro ⟨deviceXpub, hread, data, hdata, rfl, rfl⟩
          exact Or.inr ⟨origin, extkey, deviceXpub, data, hcand, hread, hdata, by
            simp [xpubsEqualIgnoringVersion], rfl⟩
        · rintro (⟨hno, -⟩ | ⟨origin', extkey', deviceXpub, data, hcand', hread, hdata, rfl, rfl⟩)
          · exact absurd hcand (hno origin extkey)
          · obtain ⟨rfl, rfl⟩ := honly _ _ hcand'
            exact ⟨deviceXpub, hread, data, hdata, by simp [xpubsEqualIgnoringVersion], rfl⟩
      · constructor
        · rintro (h | ⟨deviceXpub, hread, h | ⟨data, -, hfalse⟩⟩)
          · exact ⟨origin, extkey, hcand, Or.inl h⟩
          · exact ⟨origin, extkey, hcand, Or.inr ⟨deviceXpub, hread, h⟩⟩
          · exact hfalse.elim
        · rintro ⟨origin', extkey', hcand', h⟩
          obtain ⟨rfl, rfl⟩ := honly _ _ hcand'
          rcases h with h | ⟨deviceXpub, hread, h⟩
          · exact Or.inl h
          · exact Or.inr ⟨deviceXpub, hread, Or.inl h⟩
  · rename_i hneither
    refine hnone ?_
    rintro origin extkey ⟨horigin, hextkey, -⟩
    exact hneither origin extkey horigin hextkey

theorem policyKeySeen_iff {pubkey : PubkeyProvider} {requests requests' : List Request}
    {found found' : Option (List ℤ)} :
    PolicyKeySeen R chain device masterFp pubkey (requests, found) (requests', found') ↔
      ∃ our, OurPolicyKey R chain device masterFp pubkey requests our requests' ∧
        (our = none ∧ found' = found ∨ our ≠ none ∧ found = none ∧ found' = our) := by
  constructor
  · intro h
    cases h with
    | other h => exact ⟨none, Or.inl ⟨h, rfl, rfl⟩, Or.inl ⟨rfl, rfl⟩⟩
    | foreign h hread hdata hne =>
      exact ⟨none, Or.inr ⟨_, _, _, _, h, hread, hdata, by rw [if_neg hne], rfl⟩, Or.inl ⟨rfl, rfl⟩⟩
    | ours h hread hdata heq =>
      exact ⟨_, Or.inr ⟨_, _, _, _, h, hread, hdata, by rw [if_pos heq], rfl⟩,
        Or.inr ⟨Option.some_ne_none _, rfl, rfl⟩⟩
  · rintro ⟨our, ⟨hno, rfl, rfl⟩ | ⟨origin, extkey, deviceXpub, data, h, hread, hdata, rfl, rfl⟩, hour⟩
    · rcases hour with ⟨-, rfl⟩ | ⟨hne, -⟩
      · exact .other hno
      · exact absurd rfl hne
    · split_ifs at hour with heq
      · rcases hour with ⟨hnone, -⟩ | ⟨-, rfl, rfl⟩
        · cases hnone
        · exact .ours h hread hdata heq
      · rcases hour with ⟨-, rfl⟩ | ⟨hne, -⟩
        · exact .foreign h hread hdata heq
        · exact absurd rfl hne

theorem policyKeyRefused_iff {pubkey : PubkeyProvider} {requests : List Request}
    {found : Option (List ℤ)} :
    PolicyKeyRefused R chain device masterFp pubkey (requests, found) ↔
      UnseenPolicyKey R chain device masterFp pubkey requests ∨
        ∃ our requests', OurPolicyKey R chain device masterFp pubkey requests our requests' ∧
          our ≠ none ∧ found ≠ none := by
  constructor
  · intro h
    cases h with
    | xpub h hread => exact Or.inl ⟨_, _, h, Or.inl hread⟩
    | keyless h hread hchild hprivate hkey =>
      exact Or.inl ⟨_, _, h, Or.inr ⟨_, hread, (raising_serialize _).2 ⟨hchild, hprivate, hkey⟩⟩⟩
    | twice h hread hdata heq hfound =>
      exact Or.inr ⟨_, _, Or.inr ⟨_, _, _, _, h, hread, hdata, by rw [if_pos heq], rfl⟩,
        Option.some_ne_none _, hfound⟩
  · rintro (⟨origin, extkey, h, hread | ⟨deviceXpub, hread, hkey⟩⟩ | ⟨our, requests', hour, hne, hfound⟩)
    · exact .xpub h hread
    · obtain ⟨hchild, hprivate, hkey⟩ := (raising_serialize _).1 hkey
      exact .keyless h hread hchild hprivate hkey
    · rcases hour with ⟨-, rfl, -⟩ | ⟨origin, extkey, deviceXpub, data, h, hread, hdata, rfl, -⟩
      · exact absurd rfl hne
      · split_ifs at hne with heq
        · exact .twice h hread hdata heq hfound
        · exact absurd rfl hne

/-- What is done with the path at which the device has a key of the policy. -/
theorem asking_restKeypath {pubkeys : List PubkeyProvider} {found : Option (List ℤ)}
    (h : ∀ found, Asking (findAccountKeypath R chain device masterFp pubkeys found) s
      (fun found' requests => Steps (PolicyKeySeen R chain device masterFp) pubkeys (s.requests, found)
        (requests, found'))
      (FirstStop (PolicyKeySeen R chain device masterFp) (PolicyKeyRefused R chain device masterFp)
        pubkeys (s.requests, found))) (our : Option (List ℤ)) :
    Asking (match our with
      | none => findAccountKeypath R chain device masterFp pubkeys found
      | some path =>
        if found.isSome then throw (.badArgumentError "This BitBox02 occurs more than once in the policy")
        else findAccountKeypath R chain device masterFp pubkeys (some path)) s
      (fun found'' requests => ∃ found',
        (our = none ∧ found' = found ∨ our ≠ none ∧ found = none ∧ found' = our) ∧
          Steps (PolicyKeySeen R chain device masterFp) pubkeys (s.requests, found') (requests, found''))
      ((our ≠ none ∧ found ≠ none) ∨ ∃ found',
        (our = none ∧ found' = found ∨ our ≠ none ∧ found = none ∧ found' = our) ∧
          FirstStop (PolicyKeySeen R chain device masterFp) (PolicyKeyRefused R chain device masterFp)
            pubkeys (s.requests, found')) := by
  cases our with
  | none => exact (h found).congr (by simp) (by simp)
  | some path =>
    cases found with
    | none => exact (h (some path)).congr (by simp) (by simp)
    | some path' => exact (asking_throw _).congr (by simp) (iff_of_true (.badArgument _) (by simp))

/-- The loop over the keys of the policy. -/
theorem asking_findAccountKeypath {pubkeys : List PubkeyProvider} {found : Option (List ℤ)} :
    Asking (findAccountKeypath R chain device masterFp pubkeys found) s
      (fun found' requests => Steps (PolicyKeySeen R chain device masterFp) pubkeys (s.requests, found)
        (requests, found'))
      (FirstStop (PolicyKeySeen R chain device masterFp) (PolicyKeyRefused R chain device masterFp)
        pubkeys (s.requests, found)) := by
  induction pubkeys generalizing found s with
  | nil =>
    refine Asking.congr (asking_pure found) (fun found' requests => ?_)
      (iff_of_false id not_firstStop_nil)
    rw [steps_nil, Prod.mk.injEq]
    exact ⟨fun h => ⟨h.2.symm, h.1.symm⟩, fun h => ⟨h.2.symm, h.1.symm⟩⟩
  | cons pubkey pubkeys ih =>
    refine Asking.congr ((asking_ourPolicyKey pubkey).bind fun our requests _ =>
      asking_restKeypath (fun _ => ih) our)
      (fun found'' requests'' => ?_) ?_
    · rw [steps_cons]
      constructor
      · rintro ⟨our, requests, hour, found', hfound', hsteps⟩
        exact ⟨(requests, found'), policyKeySeen_iff.2 ⟨our, hour, hfound'⟩, hsteps⟩
      · rintro ⟨⟨requests, found'⟩, hseen, hsteps⟩
        obtain ⟨our, hour, hfound'⟩ := policyKeySeen_iff.1 hseen
        exact ⟨our, requests, hour, found', hfound', hsteps⟩
    · rw [firstStop_cons, policyKeyRefused_iff, or_assoc]
      refine or_congr_right ?_
      constructor
      · rintro ⟨our, requests, hour, ⟨hne, hfound⟩ | ⟨found', hfound', hstop⟩⟩
        · exact Or.inl ⟨our, requests, hour, hne, hfound⟩
        · exact Or.inr ⟨(requests, found'), policyKeySeen_iff.2 ⟨our, hour, hfound'⟩, hstop⟩
      · rintro (⟨our, requests, hour, hne, hfound⟩ | ⟨⟨requests, found'⟩, hseen, hstop⟩)
        · exact ⟨our, requests, hour, Or.inl ⟨hne, hfound⟩⟩
        · obtain ⟨our, hour, hfound'⟩ := policyKeySeen_iff.1 hseen
          exact ⟨our, requests, hour, Or.inr ⟨found', hfound', hstop⟩⟩

theorem policyKey_isOk_iff (pubkey : PubkeyProvider) :
    (∃ key, policyKey R pubkey = .ok key) ↔ KeyFits R pubkey := by
  unfold policyKey
  rw [exists_bind_eq_ok]
  constructor
  · rintro ⟨key, hkey, -⟩
    obtain ⟨data, hdata, -⟩ := bind_eq_ok.1 hkey
    rw [parseXpub_of_decodeCheck hdata, ite_error_eq_ok] at hkey
    exact ⟨data, hdata, Nat.not_lt.1 hkey.1⟩
  · rintro ⟨data, hdata, hlen⟩
    exact ⟨_, by rw [parseXpub_of_decodeCheck hdata, if_neg (Nat.not_lt.2 hlen)], _, rfl⟩

theorem raising_policyKey (pubkey : PubkeyProvider) :
    Raising Refusal (policyKey R pubkey) ↔ KeyUnread R pubkey := by
  unfold policyKey
  rw [raising_bind_pure, KeyUnread, ← raising_decodeCheck]
  cases hdata : Base58.decodeCheck R pubkey.pubkey with
  | ok data =>
    rw [parseXpub_of_decodeCheck hdata]
    refine iff_of_false ?_ not_raising_ok
    split_ifs
    · exact fun h => not_refusal_assertionError (raising_error.1 h)
    · exact not_raising_ok
  | error e =>
    unfold parseXpub
    rw [hdata, error_bind, raising_error, raising_error]

theorem raising_bip388ScriptConfig (descriptor : Descriptor) :
    Raising Refusal (bip388ScriptConfig R descriptor) ↔
      FirstBad (KeyFits R) (KeyUnread R) descriptor.getPubkeyProviders := by
  have htemplate : ¬Raising Refusal descriptor.getBip388Template := by
    rcases descriptor.answersFor_template with ⟨-, template, h⟩ | ⟨-, msg, h⟩
    · rw [h]
      exact not_raising_ok
    · rw [h]
      exact fun h => not_refusal_invalidPolicyError msg (raising_error.1 h)
  unfold bip388ScriptConfig
  refine (raising_bind_left fun keys _ => not_raising_bind htemplate fun _ _ => not_raising_ok).trans ?_
  exact raising_mapM (fun pubkey _ => policyKey_isOk_iff pubkey) fun pubkey _ => raising_policyKey pubkey

/-- What is made of the path at which the device has a key of the policy. -/
theorem asking_policyConfig {descriptor : Descriptor} (found : Option (List ℤ)) :
    Asking (match found with
      | none => throw (.badArgumentError "This BitBox02 is not one of the policy keys")
      | some keypath => do
        let scriptConfig ← Procedure.ofExcept (bip388ScriptConfig R descriptor)
        return some ({ scriptConfig, keypath } : BTCScriptConfigWithKeypath)) s
      (fun policy requests => (∃ keypath scriptConfig, found = some keypath ∧
        bip388ScriptConfig R descriptor = .ok scriptConfig ∧
        policy = some { scriptConfig, keypath }) ∧ requests = s.requests)
      (found = none ∨ (∃ keypath, found = some keypath) ∧
        FirstBad (KeyFits R) (KeyUnread R) descriptor.getPubkeyProviders) := by
  cases found with
  | none =>
    refine (asking_throw _).congr (fun policy requests => ?_)
      (iff_of_true (.badArgument _) (Or.inl rfl))
    simp
  | some keypath =>
    refine Asking.congr (asking_ofExcept_bind fun scriptConfig _ => asking_pure _)
      (fun policy requests => ?_) ?_
    · constructor
      · rintro ⟨scriptConfig, hconfig, rfl, rfl⟩
        exact ⟨⟨keypath, scriptConfig, rfl, hconfig, rfl⟩, rfl⟩
      · rintro ⟨⟨_, scriptConfig, ⟨⟩, hconfig, rfl⟩, rfl⟩
        exact ⟨scriptConfig, hconfig, rfl, rfl⟩
    · simp [raising_bip388ScriptConfig]

theorem asking_findPolicy {registered : List RegisteredDescriptor} (hs : s.requests = [])
    (hfp : ∀ requests fp, device requests .rootFingerprint = .ok fp → fp = masterFp) :
    Asking (findPolicy R chain device registered) s
      (PolicyFound R chain device masterFp registered)
      (PolicyRefused R chain device masterFp registered) := by
  match registered with
  | [] =>
    refine (asking_pure none).congr (fun policy requests => ?_) (iff_of_false id fun h => ?_)
    · rw [hs]
      constructor
      · rintro ⟨rfl, rfl⟩
        exact .none
      · intro h
        cases h
        exact ⟨rfl, rfl⟩
    · cases h with
      | several h => simp at h
  | [registered] =>
    have hloop : ∀ fp, device s.requests .rootFingerprint = .ok fp →
        Asking (findAccountKeypath R chain device fp registered.descriptor.getPubkeyProviders none)
          { s with requests := s.requests ++ [.rootFingerprint] }
          (fun found requests => Steps (PolicyKeySeen R chain device masterFp)
            registered.descriptor.getPubkeyProviders ([.rootFingerprint], none) (requests, found))
          (FirstStop (PolicyKeySeen R chain device masterFp) (PolicyKeyRefused R chain device masterFp)
            registered.descriptor.getPubkeyProviders ([.rootFingerprint], none)) := by
      intro fp hreply
      obtain rfl := hfp _ _ hreply
      rw [hs]
      exact asking_findAccountKeypath
    refine Asking.congr (asking_request_bind fun fp hreply =>
      (hloop fp hreply).bind fun found requests _ => asking_policyConfig found)
      (fun policy requests => ?_) ?_
    · rw [hs]
      constructor
      · rintro ⟨fp, hreply, found, requests', hsteps, ⟨keypath, scriptConfig, rfl, hconfig, rfl⟩, rfl⟩
        obtain rfl := hfp _ _ hreply
        exact .one ⟨hreply, hsteps⟩ hconfig
      · intro h
        cases h with
        | one hseen hconfig =>
          exact ⟨masterFp, hseen.1, _, _, hseen.2, ⟨_, _, rfl, hconfig, rfl⟩, rfl⟩
    · rw [hs]
      constructor
      · rintro (h | ⟨fp, hreply, h | ⟨found, requests, hsteps, rfl | ⟨⟨keypath, rfl⟩, h⟩⟩⟩)
        · exact .fingerprint h
        · obtain rfl := hfp _ _ hreply
          exact .key hreply h
        · obtain rfl := hfp _ _ hreply
          exact .stranger ⟨hreply, hsteps⟩
        · obtain rfl := hfp _ _ hreply
          exact .config ⟨hreply, hsteps⟩ h
      · intro h
        cases h with
        | several h => simp at h
        | fingerprint h => exact Or.inl h
        | key hreply h => exact Or.inr ⟨masterFp, hreply, Or.inl h⟩
        | stranger hseen =>
          exact Or.inr ⟨masterFp, hseen.1, Or.inr ⟨none, _, hseen.2, Or.inl rfl⟩⟩
        | config hseen h =>
          exact Or.inr ⟨masterFp, hseen.1, Or.inr ⟨_, _, hseen.2, Or.inr ⟨⟨_, rfl⟩, h⟩⟩⟩
  | _ :: _ :: _ =>
    refine (asking_throw _).congr (fun policy requests => iff_of_false id fun h => ?_)
      (iff_of_true (.badArgument _) (.several (by simp)))
    cases h

end Bitbox02Client

end Hwi
