import Hwi.Format.Bitbox02Account
import Hwi.Lib.Result
import Hwi.Proofs.Base58
import Hwi.Proofs.Bitbox02
import Hwi.Proofs.Multisig

/-! Which script configuration the BitBox02 client finds, and when it ends a call with a
`BadArgumentError` instead. -/

namespace Hwi

namespace Bitbox02Client

open Bitbox02 Procedure

variable {R : Runtime} {chain : Chain} {device : Device} {masterFp : Bytes} {s : Session}
  {α β : Type}

/-! ### Procedures that only ask -/

/-- The results are values with the requests that have been made by then. -/
def Asking (x : Method α) (s : Session) (returns : α → List Request → Prop) (stops : Prop) : Prop :=
  Outcome (fun e _ => Refusal e) x s (fun r : α × List Request => returns r.1 r.2)
    (fun r a s' => a = r.1 ∧ s' = { s with requests := r.2 }) stops

section Asking

variable {x : Method α} {returns returns' : α → List Request → Prop} {stops stops' : Prop}

theorem asking_pure (a : α) :
    Asking (pure a) s (fun b requests => b = a ∧ requests = s.requests) False := by
  refine (Outcome.pure (r := (a, s.requests)) ⟨rfl, rfl⟩).congr (fun r => ?_) Iff.rfl
  exact Prod.ext_iff

theorem asking_throw (e : Exc) : Asking (throw e : Method α) s (fun _ _ => False) (Refusal e) :=
  Outcome.throw e

theorem Asking.bind {k : α → Method β} {returns' : α → List Request → β → List Request → Prop}
    {stops' : α → List Request → Prop} (hx : Asking x s returns stops)
    (hk : ∀ a requests, returns a requests →
      Asking (k a) { s with requests } (returns' a requests) (stops' a requests)) :
    Asking (x >>= k) s
      (fun b requests' => ∃ a requests, returns a requests ∧ returns' a requests b requests')
      (stops ∨ ∃ a requests, returns a requests ∧ stops' a requests) := by
  have hk' : ∀ (r : α × List Request) (a : α) (s' : Session), returns r.1 r.2 →
      a = r.1 ∧ s' = { s with requests := r.2 } →
      Outcome (fun e _ => Refusal e) (k a) s' (fun r' : β × List Request => returns' r.1 r.2 r'.1 r'.2)
        (fun r' b s'' => b = r'.1 ∧ s'' = { s with requests := r'.2 }) (stops' r.1 r.2) := by
    rintro ⟨_, requests⟩ a _ hr ⟨rfl, rfl⟩
    exact hk a requests hr
  exact (Outcome.bind hx hk').congr (fun _ => Prod.exists) (or_congr_right Prod.exists)

theorem Asking.congr (h : Asking x s returns stops)
    (hreturns : ∀ a requests, returns a requests ↔ returns' a requests) (hstops : stops ↔ stops') :
    Asking x s returns' stops' :=
  Outcome.congr h (fun r => hreturns r.1 r.2) hstops

theorem asking_ofExcept_bind {r : Except Exc α} {k : α → Method β}
    {returns : α → β → List Request → Prop} {stops : α → Prop}
    (hk : ∀ a, r = .ok a → Asking (k a) s (returns a) (stops a)) :
    Asking (Procedure.ofExcept r >>= k) s (fun b requests => ∃ a, r = .ok a ∧ returns a b requests)
      (Raising Refusal r ∨ ∃ a, r = .ok a ∧ stops a) :=
  Outcome.ofExcept_bind hk

theorem asking_makeRequest (request : Request) : Asking (makeRequest device request) s
    (fun a requests => device s.requests request = .ok a ∧ requests = s.requests ++ [request])
    (Refuses device s.requests request) := by
  refine Outcome.get_bind (Outcome.modify_bind ((Outcome.ofExcept _).image ?_ ?_))
  · rintro a _ s' ha ⟨rfl, hs'⟩
    exact ⟨(_, s.requests ++ [request]), ⟨ha, rfl⟩, rfl, hs'⟩
  · rintro ⟨a, requests⟩ ⟨ha, rfl⟩
    exact ⟨a, ha, fun _ _ h => h⟩

/-- What follows a request. -/
theorem asking_request_bind {request : Request} {k : Reply request → Method α}
    {returns : Reply request → α → List Request → Prop} {stops : Reply request → Prop}
    (hk : ∀ a, device s.requests request = .ok a →
      Asking (k a) { s with requests := s.requests ++ [request] } (returns a) (stops a)) :
    Asking (makeRequest device request >>= k) s
      (fun b requests => ∃ a, device s.requests request = .ok a ∧ returns a b requests)
      (Refuses device s.requests request ∨
        ∃ a, device s.requests request = .ok a ∧ stops a) := by
  have hrequest : Outcome (fun e _ => Refusal e) (makeRequest device request) s
      (fun a => device s.requests request = .ok a)
      (fun a a' s' => a' = a ∧ s' = { s with requests := s.requests ++ [request] })
      (Refuses device s.requests request) :=
    Outcome.get_bind (Outcome.modify_bind (Outcome.ofExcept _))
  refine hrequest.bind ?_
  rintro a _ _ ha ⟨rfl, rfl⟩
  exact hk _ ha

end Asking

/-! ### Exceptions -/

theorem not_refusal_assertionError : ¬Refusal .assertionError := by
  intro h
  cases h with
  | value h => cases h

theorem not_refusal_indexError : ¬Refusal .indexError := by
  intro h
  cases h with
  | value h => cases h

theorem not_refusal_structError : ¬Refusal .structError := by
  intro h
  cases h with
  | value h => cases h

theorem not_refusal_invalidPolicyError (msg : String) : ¬Refusal (.invalidPolicyError msg) := by
  intro h
  cases h with
  | value h => cases h

theorem not_refusal_psbtSerializationError (msg : String) : ¬Refusal (.psbtSerializationError msg) := by
  intro h
  cases h with
  | value h => cases h

/-- A string that is not Base58Check is a bad argument. -/
theorem raising_decodeCheck (R : Runtime) (xpub : Str) :
    Raising Refusal (Base58.decodeCheck R xpub) ↔ ∀ data, Base58.decodeCheck R xpub ≠ .ok data := by
  have hother : ¬Raising (fun e => ¬Refusal e) (Base58.decodeCheck R xpub) := by
    by_cases hdigits : ∀ c ∈ xpub, c ∈ Base58.b58Digits
    · obtain ⟨data, hdata⟩ := (Base58.decode_isOk_iff xpub).2 hdigits
      unfold Base58.decodeCheck
      rw [hdata, ok_bind]
      dsimp only
      split_ifs
      · exact fun h => raising_error.1 h (.value rfl)
      · exact not_raising_ok
    · push Not at hdigits
      obtain ⟨c, hc, hnot⟩ := hdigits
      obtain ⟨msg, hmsg⟩ := Base58.decode_of_not_mem hc hnot
      unfold Base58.decodeCheck
      rw [hmsg]
      exact fun h => raising_error.1 h (.badArgument msg)
  rw [raising_iff_not_ok hother, not_exists]

/-! ### Cosigners -/

/-- The key that the device has at a path, and what is done with it. -/
theorem asking_getXpub_bind {keypath : List ℤ} {k : Bytes → Method α}
    {returns : Bytes → α → List Request → Prop} {stops : Bytes → Prop}
    (hk : ∀ data, Asking (k data)
      { s with requests := s.requests ++ [.btcXpub keypath (getCoin chain)] } (returns data) (stops data)) :
    Asking (do
        let xpub ← getXpub chain device keypath
        let data ← Procedure.ofExcept (Base58.decodeCheck R xpub)
        k data) s
      (fun a requests => ∃ data, XpubRead R chain device s.requests keypath data ∧ returns data a requests)
      (XpubRefused R chain device s.requests keypath ∨
        ∃ data, XpubRead R chain device s.requests keypath data ∧ stops data) := by
  refine Asking.congr (asking_request_bind fun xpub _ => asking_ofExcept_bind fun data _ => hk data)
    (fun a requests => ?_) ?_
  · constructor
    · rintro ⟨xpub, hxpub, data, hdata, h⟩
      exact ⟨data, ⟨xpub, hxpub, hdata⟩, h⟩
    · rintro ⟨data, ⟨xpub, hxpub, hdata⟩, h⟩
      exact ⟨xpub, hxpub, data, hdata, h⟩
  · constructor
    · rintro (h | ⟨xpub, hxpub, h | ⟨data, hdata, h⟩⟩)
      · exact Or.inl (Or.inl h)
      · exact Or.inl (Or.inr ⟨xpub, hxpub, (raising_decodeCheck R xpub).1 h⟩)
      · exact Or.inr ⟨data, ⟨xpub, hxpub, hdata⟩, h⟩
    · rintro ((h | ⟨xpub, hxpub, h⟩) | ⟨data, ⟨xpub, hxpub, hdata⟩, h⟩)
      · exact Or.inl h
      · exact Or.inr ⟨xpub, hxpub, Or.inl ((raising_decodeCheck R xpub).2 h)⟩
      · exact Or.inr ⟨xpub, hxpub, Or.inr ⟨data, hdata, h⟩⟩

theorem cosignerSeen_iff_of_not {x : Bytes × KeyOriginInfo} (h : ¬MayBeOurs masterFp x)
    {requests requests' : List Request} {ours : List Bool} {b : Bool} :
    CosignerSeen R chain device masterFp x (requests, ours) (requests', ours ++ [b]) ↔
      b = false ∧ requests' = requests := by
  constructor
  · generalize hours' : ours ++ [b] = ours'
    intro hseen
    cases hseen with
    | other =>
      obtain rfl : b = false := by simpa using hours'
      exact ⟨rfl, rfl⟩
    | asked hmay => exact absurd hmay h
  · rintro ⟨rfl, rfl⟩
    exact .other h

theorem cosignerSeen_iff_of_may {x : Bytes × KeyOriginInfo} (h : MayBeOurs masterFp x)
    {requests requests' : List Request} {ours : List Bool} {b : Bool} :
    CosignerSeen R chain device masterFp x (requests, ours) (requests', ours ++ [b]) ↔
      ∃ data, XpubRead R chain device requests x.2.path data ∧
        b = decide (data.drop 4 = x.1.drop 4) ∧
        requests' = requests ++ [.btcXpub x.2.path (getCoin chain)] := by
  constructor
  · generalize hours' : ours ++ [b] = ours'
    intro hseen
    cases hseen with
    | other hnot => exact absurd h hnot
    | @asked _ _ data _ hdata =>
      obtain rfl : b = decide (data.drop 4 = x.1.drop 4) := by simpa using hours'
      exact ⟨data, hdata, rfl, rfl⟩
  · rintro ⟨data, hdata, rfl, rfl⟩
    exact .asked h hdata

theorem asking_isOurs (x : Bytes × KeyOriginInfo) (ours : List Bool) :
    Asking (isOurs R chain device masterFp x.1 x.2) s
      (fun b requests => CosignerSeen R chain device masterFp x (s.requests, ours)
        (requests, ours ++ [b]))
      (CosignerRefused R chain device masterFp x (s.requests, ours)) := by
  unfold isOurs
  split_ifs with hours
  · have hmay : MayBeOurs masterFp x := ⟨hours.1.symm, hours.2⟩
    refine Asking.congr (asking_getXpub_bind fun data => asking_pure _) (fun b requests => ?_) ?_
    · rw [cosignerSeen_iff_of_may hmay]
      rfl
    · simp [CosignerRefused, hmay]
  · have hnot : ¬MayBeOurs masterFp x := fun hmay => hours ⟨hmay.1.symm, hmay.2⟩
    refine Asking.congr (asking_pure false) (fun b requests => ?_) ?_
    · rw [cosignerSeen_iff_of_not hnot]
    · simp [CosignerRefused, hnot]

theorem lastOurs_concat {cosigners : List (Bytes × KeyOriginInfo)} {ours : List Bool}
    (hlen : ours.length = cosigners.length) (x : Bytes × KeyOriginInfo) (b : Bool) :
    lastOurs (cosigners ++ [x]) (ours ++ [b]) =
      if b then some (cosigners.length, x.2.path) else lastOurs cosigners ours := by
  have hzip : (cosigners.zip ours).length = cosigners.length := by simp [hlen]
  unfold lastOurs
  rw [List.zip_append hlen.symm, List.zipIdx_append, List.filter_append, hzip]
  cases b <;> simp

theorem CosignerSeen.exists_ours {x : Bytes × KeyOriginInfo} {requests : List Request}
    {ours : List Bool} {seen : List Request × List Bool}
    (h : CosignerSeen R chain device masterFp x (requests, ours) seen) :
    ∃ b, seen.2 = ours ++ [b] := by
  cases h with
  | other => exact ⟨_, rfl⟩
  | asked => exact ⟨_, rfl⟩

/-- The loop over the cosigners, from any place in it. -/
theorem asking_findOurXpub {cosigners rest : List (Bytes × KeyOriginInfo)} {ours : List Bool}
    (hlen : ours.length = cosigners.length) :
    Asking (findOurXpub R chain device masterFp rest cosigners.length (lastOurs cosigners ours)) s
      (fun our requests => ∃ ours',
        Steps (CosignerSeen R chain device masterFp) rest (s.requests, ours) (requests, ours') ∧
          our = lastOurs (cosigners ++ rest) ours')
      (FirstStop (CosignerSeen R chain device masterFp) (CosignerRefused R chain device masterFp) rest
        (s.requests, ours)) := by
  induction rest generalizing cosigners ours s with
  | nil =>
    refine Asking.congr (asking_pure _) (fun our requests => ?_) (iff_of_false id not_firstStop_nil)
    rw [List.append_nil]
    constructor
    · rintro ⟨rfl, rfl⟩
      exact ⟨ours, .nil _, rfl⟩
    · rintro ⟨ours', hsteps, rfl⟩
      cases hsteps
      exact ⟨rfl, rfl⟩
  | cons x rest ih =>
    have hmore : ∀ (b : Bool) (requests : List Request),
        Asking (findOurXpub R chain device masterFp rest (cosigners.length + 1)
          (if b then some (cosigners.length, x.2.path) else lastOurs cosigners ours)) { s with requests }
        (fun our requests' => ∃ ours',
          Steps (CosignerSeen R chain device masterFp) rest (requests, ours ++ [b]) (requests', ours') ∧
            our = lastOurs (cosigners ++ x :: rest) ours')
        (FirstStop (CosignerSeen R chain device masterFp) (CosignerRefused R chain device masterFp)
          rest (requests, ours ++ [b])) := by
      intro b requests
      have hrest := @ih { s with requests } (cosigners ++ [x]) (ours ++ [b]) (by simp [hlen])
      rw [lastOurs_concat hlen, List.length_append, ← List.append_cons] at hrest
      exact hrest
    refine Asking.congr ((asking_isOurs x ours).bind fun b requests _ => hmore b requests)
      (fun our requests' => ?_) ?_
    · simp only [steps_cons]
      constructor
      · rintro ⟨b, requests, hseen, ours', hsteps, hour⟩
        exact ⟨ours', ⟨_, hseen, hsteps⟩, hour⟩
      · rintro ⟨ours', ⟨⟨requests, ours''⟩, hseen, hsteps⟩, hour⟩
        obtain ⟨b, rfl⟩ : ∃ b, ours'' = ours ++ [b] := hseen.exists_ours
        exact ⟨b, requests, hseen, ours', hsteps, hour⟩
    · rw [firstStop_cons]
      refine or_congr_right ?_
      constructor
      · rintro ⟨b, requests, hseen, hstop⟩
        exact ⟨_, hseen, hstop⟩
      · rintro ⟨⟨requests, ours''⟩, hseen, hstop⟩
        obtain ⟨b, rfl⟩ : ∃ b, ours'' = ours ++ [b] := hseen.exists_ours
        exact ⟨b, requests, hseen, hstop⟩

/-! ### Multisig configurations -/

theorem parseXpub_of_decodeCheck {xpub : Str} {data : Bytes}
    (h : Base58.decodeCheck R xpub = .ok data) : parseXpub R xpub =
      if 78 < data.length then .error .assertionError else .ok (xpubFields data) := by
  have hlen : ((data.drop 4).drop 74).length ≠ 0 ↔ 78 < data.length := by
    rw [List.drop_drop, List.length_drop]
    omega
  unfold parseXpub
  rw [h, ok_bind]
  simp only [hlen]
  split_ifs
  · rfl
  · simp only [pure_eq_ok, xpubFields, List.drop_drop]

theorem parseXpub_encodeCheck (data : Bytes) : parseXpub R (encodeCheck R data) =
    if 78 < data.length then .error .assertionError else .ok (xpubFields data) :=
  parseXpub_of_decodeCheck (Base58.decodeCheck_encodeCheck R data)

theorem parseXpubs_eq_ok {keys : List Bytes} {xpubs : List XPub} :
    keys.mapM (fun xpub => parseXpub R (encodeCheck R xpub)) = .ok xpubs ↔
      (∀ data ∈ keys, data.length ≤ 78) ∧ xpubs = keys.map xpubFields := by
  constructor
  · intro h
    have hlen : ∀ data ∈ keys, data.length ≤ 78 := by
      intro data hdata
      obtain ⟨xpub, hxpub⟩ := exists_mapM_eq_ok.1 ⟨xpubs, h⟩ data hdata
      rw [parseXpub_encodeCheck, ite_error_eq_ok] at hxpub
      exact Nat.not_lt.1 hxpub.1
    have hmap := mapM_ok (f := fun xpub => parseXpub R (encodeCheck R xpub)) (g := xpubFields)
      (l := keys) fun data hdata => by rw [parseXpub_encodeCheck, if_neg (Nat.not_lt.2 (hlen data hdata))]
    rw [h] at hmap
    exact ⟨hlen, Except.ok.inj hmap⟩
  · rintro ⟨hlen, rfl⟩
    exact mapM_ok fun data hdata => by rw [parseXpub_encodeCheck, if_neg (Nat.not_lt.2 (hlen data hdata))]

theorem not_raising_parseXpubs (keys : List Bytes) :
    ¬Raising Refusal (keys.mapM fun xpub => parseXpub R (encodeCheck R xpub)) := by
  refine not_raising_mapM fun data _ => ?_
  rw [parseXpub_encodeCheck]
  split_ifs
  · exact fun h => not_refusal_assertionError (raising_error.1 h)
  · exact not_raising_ok

/-- The configuration with the cosigner that is the device. -/
def multisigConfig (threshold : ℕ) (xpub : Dict Bytes KeyOriginInfo) (scriptType : ScriptType)
    (our : ℕ × List ℤ) : BTCScriptConfigWithKeypath where
  scriptConfig := .multisig {
    threshold, xpubs := xpub.keys.map xpubFields, ourXpubIndex := our.1, scriptType }
  keypath := our.2

theorem multisigFound_iff {threshold : ℕ} {xpub : Dict Bytes KeyOriginInfo} {scriptType : ScriptType}
    {requests requests' : List Request} {config : BTCScriptConfigWithKeypath} :
    MultisigFound R chain device masterFp xpub threshold scriptType requests config requests' ↔
      ∃ our, CosignersSeen R chain device masterFp xpub requests requests' (some our) ∧
        (∀ data ∈ xpub.keys, data.length ≤ 78) ∧
        config = multisigConfig threshold xpub scriptType our := by
  constructor
  · rintro ⟨hcosigners, hlen⟩
    exact ⟨_, hcosigners, hlen, rfl⟩
  · rintro ⟨⟨i, keypath⟩, hcosigners, hlen, rfl⟩
    exact .mk hcosigners hlen

/-- What is made of the cosigner that is the device. -/
theorem asking_multisigConfig {threshold : ℕ} {xpub : Dict Bytes KeyOriginInfo}
    {scriptType : ScriptType} (our : Option (ℕ × List ℤ)) :
    Asking (match our with
      | none => throw (.badArgumentError "This BitBox02 is not one of the cosigners")
      | some (ourXpubIndex, ourAccountKeypath) => do
        let xpubs ← Procedure.ofExcept
          (xpub.keys.mapM fun xpub => parseXpub R (encodeCheck R xpub))
        return (xpub.keys.getD ourXpubIndex [], {
          scriptConfig := .multisig { threshold, xpubs, ourXpubIndex, scriptType }
          keypath := ourAccountKeypath })) s
      (fun r requests => (∃ our', our = some our' ∧ (∀ data ∈ xpub.keys, data.length ≤ 78) ∧
        r = (xpub.keys.getD our'.1 [], multisigConfig threshold xpub scriptType our')) ∧
        requests = s.requests)
      (our = none) := by
  cases our with
  | none =>
    refine (asking_throw _).congr (fun r requests => ?_) (iff_of_true (.badArgument _) rfl)
    simp
  | some our =>
    refine Asking.congr (asking_ofExcept_bind fun xpubs _ => asking_pure _) (fun r requests => ?_) ?_
    · constructor
      · rintro ⟨xpubs, hxpubs, rfl, rfl⟩
        obtain ⟨hlen, rfl⟩ := parseXpubs_eq_ok.1 hxpubs
        exact ⟨⟨our, rfl, hlen, rfl⟩, rfl⟩
      · rintro ⟨⟨_, ⟨⟩, hlen, rfl⟩, rfl⟩
        exact ⟨_, parseXpubs_eq_ok.2 ⟨hlen, rfl⟩, rfl, rfl⟩
    · simp [not_raising_parseXpubs]

theorem asking_multisigScriptconfig {threshold : ℕ} {xpub : Dict Bytes KeyOriginInfo}
    {scriptType : ScriptType}
    (hfp : ∀ requests fp, device requests .rootFingerprint = .ok fp → fp = masterFp) :
    Asking (multisigScriptconfig R chain device threshold xpub scriptType) s
      (fun r requests => ∃ our,
        CosignersSeen R chain device masterFp xpub s.requests requests (some our) ∧
        (∀ data ∈ xpub.keys, data.length ≤ 78) ∧
        r = (xpub.keys.getD our.1 [], multisigConfig threshold xpub scriptType our))
      (MultisigRefused R chain device masterFp xpub s.requests) := by
  have hloop : ∀ fp, device s.requests .rootFingerprint = .ok fp →
      Asking (findOurXpub R chain device fp xpub.items 0 none)
        { s with requests := s.requests ++ [.rootFingerprint] }
        (fun our requests => ∃ ours, Steps (CosignerSeen R chain device masterFp) xpub.items
          (s.requests ++ [.rootFingerprint], []) (requests, ours) ∧ our = lastOurs xpub.items ours)
        (FirstStop (CosignerSeen R chain device masterFp) (CosignerRefused R chain device masterFp)
          xpub.items (s.requests ++ [.rootFingerprint], [])) := by
    intro fp hreply
    obtain rfl := hfp _ _ hreply
    exact @asking_findOurXpub _ _ _ _ _ [] _ [] rfl
  refine Asking.congr (asking_request_bind fun fp hreply =>
    (hloop fp hreply).bind fun our requests _ => asking_multisigConfig our) (fun r requests => ?_) ?_
  · constructor
    · rintro ⟨fp, hreply, our, requests', ⟨ours, hsteps, hours⟩, ⟨our', rfl, hlen, hr⟩, rfl⟩
      obtain rfl := hfp _ _ hreply
      exact ⟨our', ⟨hreply, ours, hsteps, hours⟩, hlen, hr⟩
    · rintro ⟨our, ⟨hreply, ours, hsteps, hours⟩, hlen, hr⟩
      exact ⟨masterFp, hreply, some our, requests, ⟨ours, hsteps, hours⟩, ⟨our, rfl, hlen, hr⟩, rfl⟩
  · constructor
    · rintro (h | ⟨fp, hreply, h | ⟨our, requests, ⟨ours, hsteps, hours⟩, rfl⟩⟩)
      · exact .fingerprint h
      · obtain rfl := hfp _ _ hreply
        exact .cosigner hreply h
      · obtain rfl := hfp _ _ hreply
        exact .stranger ⟨hreply, ours, hsteps, hours⟩
    · rintro (h | ⟨hreply, h⟩ | @⟨requests, hreply, ours, hsteps, hours⟩)
      · exact Or.inl h
      · exact Or.inr ⟨masterFp, hreply, Or.inl h⟩
      · exact Or.inr ⟨masterFp, hreply, Or.inr ⟨none, requests, ⟨ours, hsteps, hours⟩, rfl⟩⟩

/-! ### Script configurations -/

theorem parseMultisig_eq_some {script : Bytes} {m : ℕ} {keys : List Bytes} :
    parseMultisig script = .ok (some (m, keys)) ↔
      MultisigShaped script keys ∧ ∃ op, script.head? = some op ∧ m = op.toNat - 80 := by
  have hshaped : ∀ {keys'}, MultisigShaped script keys' →
      ∃ op, script.head? = some op ∧ parseMultisig script = .ok (some (op.toNat - 80, keys')) := by
    rintro keys' ⟨op, n, tail, hop, hkeys, hn, rfl⟩
    exact ⟨op, rfl, parseMultisig_found hop hkeys hn tail⟩
  constructor
  · intro h
    have hne : script ≠ [] := by
      rintro rfl
      cases h
    rcases parseMultisig_cases hne with hcut | ⟨keys', hkeys'⟩ | hnone
    · rw [hcut.parse] at h
      cases h
    · obtain ⟨op, hop, hparse⟩ := hshaped hkeys'
      rw [h] at hparse
      cases hparse
      exact ⟨hkeys', op, hop, rfl⟩
    · rw [h] at hnone
      cases hnone
  · rintro ⟨hkeys, op, hop, rfl⟩
    obtain ⟨op', hop', hparse⟩ := hshaped hkeys
    rw [hop] at hop'
    cases hop'
    exact hparse

theorem parseMultisig_eq_none {script : Bytes} : parseMultisig script = .ok none ↔
    script ≠ [] ∧ ¬MultisigCut script ∧ ∀ keys, ¬MultisigShaped script keys := by
  constructor
  · intro h
    refine ⟨?_, fun hcut => ?_, fun keys hkeys => ?_⟩
    · rintro rfl
      cases h
    · rw [hcut.parse] at h
      cases h
    · obtain ⟨m, hm⟩ := hkeys.parse
      rw [h] at hm
      cases hm
  · rintro ⟨hne, hcut, hkeys⟩
    rcases parseMultisig_cases hne with h | ⟨keys, h⟩ | h
    · exact absurd h hcut
    · exact absurd h (hkeys keys)
    · exact h

theorem not_raising_parseMultisig (script : Bytes) : ¬Raising Refusal (parseMultisig script) := by
  by_cases hne : script = []
  · subst hne
    exact fun h => not_refusal_indexError (raising_error.1 h)
  · rcases parseMultisig_cases hne with hcut | ⟨keys, hkeys⟩ | hnone
    · rw [hcut.parse]
      exact fun h => not_refusal_indexError (raising_error.1 h)
    · obtain ⟨m, hm⟩ := hkeys.parse
      rw [hm]
      exact not_raising_ok
    · rw [hnone]
      exact not_raising_ok

/-- A script that pays to a public key hash is of no other kind. -/
theorem scriptKind?_of_isP2pkh {script redeemScript : Bytes} (h : isP2pkh script = true) :
    scriptKind? script redeemScript = none := by
  have hp : _ ∧ _ := of_decide_eq_true h
  obtain ⟨hlen, h0, -⟩ := hp
  have hsh : isP2sh script = false := decide_eq_false fun hsh => by omega
  have hwit : (isWitness script).1 = false := by
    match script, h0 with
    | [v], _ => rfl
    | v :: n :: prog, h0 =>
      obtain rfl : v = 0x76 := by simpa using h0
      unfold isWitness
      split_ifs <;> rfl
  simp [scriptKind?, isP2wpkh, isP2wsh, isP2tr, hsh, hwit]

/-- What is done with the multisig that a script was found to be. -/
theorem asking_parsedMultisig {xpub : Dict Bytes KeyOriginInfo} {scriptType : ScriptType}
    (hfp : ∀ requests fp, device requests .rootFingerprint = .ok fp → fp = masterFp)
    (multisig : Option (ℕ × List Bytes)) :
    Asking (match multisig with
      | none => throw (.badArgumentError "Input or change script type not recognized.")
      | some (threshold, _) => do
        let (_, scriptConfig) ← multisigScriptconfig R chain device threshold xpub scriptType
        return scriptConfig) s
      (fun config requests => ∃ m keys, multisig = some (m, keys) ∧
        MultisigFound R chain device masterFp xpub m scriptType s.requests config requests)
      (multisig = none ∨ (∃ m keys, multisig = some (m, keys)) ∧
        MultisigRefused R chain device masterFp xpub s.requests) := by
  cases multisig with
  | none =>
    refine (asking_throw _).congr (fun config requests => ?_)
      (iff_of_true (.badArgument _) (Or.inl rfl))
    simp
  | some multisig =>
    obtain ⟨m, keys⟩ := multisig
    refine Asking.congr ((asking_multisigScriptconfig hfp).bind fun r requests _ =>
      asking_pure r.2) (fun config requests => ?_) ?_
    · constructor
      · rintro ⟨_, requests', ⟨our, hseen, hlen, rfl⟩, rfl, rfl⟩
        exact ⟨_, _, rfl, multisigFound_iff.2 ⟨our, hseen, hlen, rfl⟩⟩
      · rintro ⟨m, keys, hm, h⟩
        cases hm
        obtain ⟨our, hseen, hlen, rfl⟩ := multisigFound_iff.1 h
        exact ⟨_, requests, ⟨our, hseen, hlen, rfl⟩, rfl, rfl⟩
    · simp

theorem asking_multisigConfigFromUtxo {xpub : Dict Bytes KeyOriginInfo} {output : CTxOut}
    {witnessScript : Bytes}
    (hfp : ∀ requests fp, device requests .rootFingerprint = .ok fp → fp = masterFp) :
    Asking (multisigConfigFromUtxo R chain device xpub output witnessScript) s
      (fun config requests => ∃ keys op, MultisigShaped witnessScript keys ∧
        witnessScript.head? = some op ∧
        MultisigFound R chain device masterFp xpub (op.toNat - 80)
          (if isP2wsh output.scriptPubKey then .P2WSH else .P2WSH_P2SH) s.requests config requests)
      ((witnessScript ≠ [] ∧ ¬MultisigCut witnessScript ∧ ∀ keys, ¬MultisigShaped witnessScript keys) ∨
        ∃ keys, MultisigShaped witnessScript keys ∧
          MultisigRefused R chain device masterFp xpub s.requests) := by
  refine Asking.congr (asking_ofExcept_bind fun multisig _ => asking_parsedMultisig hfp multisig)
    (fun config requests => ?_) ?_
  · constructor
    · rintro ⟨multisig, hparse, m, keys, rfl, h⟩
      obtain ⟨hkeys, op, hop, rfl⟩ := parseMultisig_eq_some.1 hparse
      exact ⟨keys, op, hkeys, hop, h⟩
    · rintro ⟨keys, op, hkeys, hop, h⟩
      exact ⟨_, parseMultisig_eq_some.2 ⟨hkeys, op, hop, rfl⟩, _, keys, rfl, h⟩
  · rw [← parseMultisig_eq_none]
    constructor
    · rintro (h | ⟨multisig, hparse, rfl | ⟨⟨m, keys, rfl⟩, h⟩⟩)
      · exact absurd h (not_raising_parseMultisig _)
      · exact Or.inl hparse
      · exact Or.inr ⟨keys, (parseMultisig_eq_some.1 hparse).1, h⟩
    · rintro (h | ⟨keys, hkeys, h⟩)
      · exact Or.inr ⟨none, h, Or.inl rfl⟩
      · obtain ⟨m, hm⟩ := hkeys.parse
        exact Or.inr ⟨_, hm, Or.inr ⟨⟨m, keys, rfl⟩, h⟩⟩

section Config

variable {policyScriptConfig : Option BTCScriptConfigWithKeypath} {xpub : Dict Bytes KeyOriginInfo}
  {output : CTxOut} {script : Bytes} {keypath : List ℤ} {redeemScript witnessScript : Bytes}
  {requests : List Request}

theorem asking_simpleConfig {t : SimpleType}
    (hkind : scriptKind? script redeemScript = some (.simple t)) :
    Asking (pure (simpleConfig t keypath)) s
      (ConfigFound R chain device masterFp none xpub script keypath redeemScript witnessScript
        s.requests)
      (ConfigRefused R chain device masterFp none xpub script redeemScript witnessScript
        s.requests) := by
  refine (asking_pure _).congr (fun config requests => ?_) (iff_of_false id fun h => ?_)
  · constructor
    · rintro ⟨rfl, rfl⟩
      exact .simple rfl hkind
    · intro h
      cases h with
      | policy h => cases h
      | simple _ hkind' =>
        rw [hkind] at hkind'
        cases hkind'
        exact ⟨rfl, rfl⟩
      | multisig _ hkind' =>
        rw [hkind] at hkind'
        cases hkind'
  · cases h with
    | kind _ hkind' =>
      rw [hkind] at hkind'
      cases hkind'
    | script _ hkind' =>
      rw [hkind] at hkind'
      cases hkind'
    | multisig _ hkind' =>
      rw [hkind] at hkind'
      cases hkind'

theorem asking_unknownScript (msg : String) (hkind : scriptKind? script redeemScript = none) :
    Asking (throw (.badArgumentError msg)) s
      (ConfigFound R chain device masterFp none xpub script keypath redeemScript witnessScript
        s.requests)
      (ConfigRefused R chain device masterFp none xpub script redeemScript witnessScript
        s.requests) := by
  refine (asking_throw _).congr (fun config requests => iff_of_false id fun h => ?_)
    (iff_of_true (.badArgument msg) (.kind rfl hkind))
  cases h with
  | policy h => cases h
  | simple _ hkind' =>
    rw [hkind] at hkind'
    cases hkind'
  | multisig _ hkind' =>
    rw [hkind] at hkind'
    cases hkind'

theorem configFound_multisig_iff {t : ScriptType} {config : BTCScriptConfigWithKeypath}
    {requests' : List Request} (hkind : scriptKind? script redeemScript = some (.multisig t)) :
    ConfigFound R chain device masterFp none xpub script keypath redeemScript witnessScript requests
        config requests' ↔
      ∃ keys op, MultisigShaped witnessScript keys ∧ witnessScript.head? = some op ∧
        MultisigFound R chain device masterFp xpub (op.toNat - 80) t requests config requests' := by
  constructor
  · intro h
    cases h with
    | policy h => cases h
    | simple _ hkind' =>
      rw [hkind] at hkind'
      cases hkind'
    | multisig _ hkind' hkeys hop h =>
      rw [hkind] at hkind'
      cases hkind'
      exact ⟨_, _, hkeys, hop, h⟩
  · rintro ⟨keys, op, hkeys, hop, h⟩
    exact .multisig rfl hkind hkeys hop h

theorem configRefused_multisig_iff {t : ScriptType}
    (hkind : scriptKind? script redeemScript = some (.multisig t)) :
    ConfigRefused R chain device masterFp none xpub script redeemScript witnessScript requests ↔
      (witnessScript ≠ [] ∧ ¬MultisigCut witnessScript ∧ ∀ keys, ¬MultisigShaped witnessScript keys) ∨
        ∃ keys, MultisigShaped witnessScript keys ∧
          MultisigRefused R chain device masterFp xpub requests := by
  constructor
  · intro h
    cases h with
    | kind _ hkind' =>
      rw [hkind] at hkind'
      cases hkind'
    | script _ _ hne hcut hscript => exact Or.inl ⟨hne, hcut, hscript⟩
    | multisig _ _ hscript h => exact Or.inr ⟨_, hscript, h⟩
  · rintro (⟨hne, hcut, hscript⟩ | ⟨keys, hscript, h⟩)
    · exact .script rfl hkind hne hcut hscript
    · exact .multisig rfl hkind hscript h

theorem asking_scriptConfigFromUtxo
    (hfp : ∀ requests fp, device requests .rootFingerprint = .ok fp → fp = masterFp) :
    Asking (scriptConfigFromUtxo R chain device policyScriptConfig xpub output keypath redeemScript
        witnessScript) s
      (ConfigFound R chain device masterFp policyScriptConfig xpub output.scriptPubKey keypath
        redeemScript witnessScript s.requests)
      (ConfigRefused R chain device masterFp policyScriptConfig xpub output.scriptPubKey redeemScript
        witnessScript s.requests) := by
  unfold scriptConfigFromUtxo
  cases policyScriptConfig with
  | some config =>
    refine (asking_pure config).congr (fun config' requests => ?_) ?_
    · constructor
      · rintro ⟨rfl, rfl⟩
        exact .policy rfl
      · intro h
        cases h with
        | policy h => exact ⟨(Option.some.inj h).symm, rfl⟩
        | simple hpolicy => cases hpolicy
        | multisig hpolicy => cases hpolicy
    · refine iff_of_false id fun h => ?_
      cases h with
      | kind hpolicy => cases hpolicy
      | script hpolicy => cases hpolicy
      | multisig hpolicy => cases hpolicy
  | none =>
    dsimp only
    split_ifs with hp2pkh hp2wpkh hp2sh hp2tr hmultisig
    · exact asking_unknownScript _ (scriptKind?_of_isP2pkh hp2pkh)
    · exact asking_simpleConfig (by simp [scriptKind?, hp2wpkh])
    · exact asking_simpleConfig (by simp [scriptKind?, hp2wpkh, hp2sh])
    · exact asking_simpleConfig (by simp [scriptKind?, hp2wpkh, hp2sh, hp2tr])
    · have hkind : scriptKind? output.scriptPubKey redeemScript =
          some (.multisig (if isP2wsh output.scriptPubKey then .P2WSH else .P2WSH_P2SH)) := by
        rw [scriptKind?, if_neg hp2wpkh, if_neg hp2sh, if_neg hp2tr]
        split_ifs with hp2wsh hp2shwsh
        · rfl
        · rfl
        · exact absurd hmultisig (not_or.2 ⟨hp2wsh, hp2shwsh⟩)
      exact (asking_multisigConfigFromUtxo hfp).congr
        (fun config requests => (configFound_multisig_iff hkind).symm)
        (configRefused_multisig_iff hkind).symm
    · refine asking_unknownScript _ ?_
      rw [not_or] at hmultisig
      rw [scriptKind?, if_neg hp2wpkh, if_neg hp2sh, if_neg hp2tr, if_neg hmultisig.1,
        if_neg hmultisig.2]

end Config

end Bitbox02Client

end Hwi
