import Hwi.Format.Bitbox02
import Hwi.Lib.Result

/-! The BitBox02 is asked for keys and registrations many times, and for signatures
by one procedure only. -/

namespace Hwi

namespace Bitbox02

open Procedure

/-! ### Requests that are not for signatures -/

theorem asks_refl (s : Session) : Asks s s := ⟨[], by simp, by simp⟩

theorem Asks.trans {s s' s'' : Session} (h : Asks s s') (h' : Asks s' s'') : Asks s s'' := by
  obtain ⟨rs, rfl, hrs⟩ := h
  obtain ⟨rs', rfl, hrs'⟩ := h'
  refine ⟨rs ++ rs', by simp, fun sign hsign => ?_⟩
  rcases List.mem_append.1 hsign with hsign | hsign
  · exact hrs sign hsign
  · exact hrs' sign hsign

theorem Asks.requests {s s' : Session} (h : Asks s s') : s.requests <+: s'.requests := by
  obtain ⟨rs, rfl, -⟩ := h
  exact List.prefix_append _ _

theorem Asks.unsigned {s s' : Session} (h : Asks s s') (hs : Unsigned s) : Unsigned s' := by
  obtain ⟨rs, rfl, hrs⟩ := h
  intro sign hsign
  rcases List.mem_append.1 hsign with hsign | hsign
  · exact hs sign hsign
  · exact hrs sign hsign

variable {device : Device} {s₀ : Session}

theorem asks_request {request : Request} (s : Session) (h : ∀ sign, request ≠ .btcSign sign) :
    Asks s { s with requests := s.requests ++ [request] } :=
  ⟨[request], rfl, fun sign hsign => h sign (List.mem_singleton.1 hsign).symm⟩

theorem triple_makeRequest {request : Request} {s : Session} :
    Triple (· = s) (makeRequest device request)
      (fun reply s' => s' = { s with requests := s.requests ++ [request] } ∧
        device s.requests request = .ok reply)
      (fun e s' => s' = { s with requests := s.requests ++ [request] } ∧
        device s.requests request = .error e) := by
  unfold makeRequest
  refine Triple.get_bind fun s' hs' => ?_
  subst hs'
  refine Triple.modify_bind (M := fun s => s = { s' with requests := s'.requests ++ [request] })
    (fun _ hs => hs ▸ rfl) (Triple.ofExcept ?_ ?_)
  · exact fun reply s hreply hs => ⟨hs, hreply⟩
  · exact fun e s he hs => ⟨hs, he⟩

theorem keeps_makeRequest {request : Request} (h : ∀ sign, request ≠ .btcSign sign) :
    Keeps (Asks s₀) (makeRequest device request) := by
  intro s hs
  refine triple_makeRequest.mono (fun _ hs => hs) ?_ ?_ s rfl
  · rintro _ _ ⟨rfl, -⟩
    exact hs.trans (asks_request s h)
  · rintro _ _ ⟨rfl, -⟩
    exact hs.trans (asks_request s h)

/-- A procedure that keeps to its questions, from a given session. -/
theorem triple_of_keeps {s : Session} {α : Type} {x : Method α} (h : ∀ s₀, Keeps (Asks s₀) x) :
    Triple (· = s) x
    (fun a s' => Asks s s' ∧ x.run s = .ok a s') (fun e s' => Asks s s' ∧ x.run s = .error e s') := by
  refine Triple.with_run ((h s).mono ?_ (fun _ _ hs => hs) fun _ _ hs => hs)
  rintro _ rfl
  exact asks_refl _

end Bitbox02

namespace Bitbox02Client

open Bitbox02 Procedure

variable {R : Runtime} {chain : Chain} {device : Device} {s₀ : Session}

theorem keeps_getMasterFingerprint : Keeps (Asks s₀) (getMasterFingerprint device) :=
  keeps_makeRequest fun _ => Request.noConfusion

theorem keeps_getXpub (keypath : List ℤ) : Keeps (Asks s₀) (getXpub chain device keypath) :=
  keeps_makeRequest fun _ => Request.noConfusion

theorem keeps_maybeRegisterScriptConfig (config : BTCScriptConfig) (keypath : List ℤ) :
    Keeps (Asks s₀) (maybeRegisterScriptConfig chain device config keypath) := by
  unfold maybeRegisterScriptConfig
  refine (keeps_makeRequest fun _ => Request.noConfusion).bind fun isRegistered => ?_
  cases isRegistered using Bool.rec with
  | true => exact keeps_pure _
  | false => exact keeps_makeRequest fun _ => Request.noConfusion

theorem keeps_isOurs (deviceFingerprint xpub : Bytes) (keyinfo : KeyOriginInfo) :
    Keeps (Asks s₀) (isOurs R chain device deviceFingerprint xpub keyinfo) := by
  unfold isOurs
  refine keeps_ite ((keeps_getXpub _).bind fun _ => ?_) (keeps_pure _)
  exact (keeps_ofExcept _).bind fun _ => keeps_pure _

theorem keeps_findOurXpub (deviceFingerprint : Bytes) (items : List (Bytes × KeyOriginInfo)) (i : ℕ)
    (our : Option (ℕ × List ℤ)) :
    Keeps (Asks s₀) (findOurXpub R chain device deviceFingerprint items i our) := by
  induction items generalizing i our with
  | nil => exact keeps_pure _
  | cons x items ih => exact (keeps_isOurs _ _ _).bind fun _ => ih _ _

theorem keeps_multisigScriptconfig (threshold : ℤ) (originInfos : Dict Bytes KeyOriginInfo)
    (scriptType : ScriptType) :
    Keeps (Asks s₀) (multisigScriptconfig R chain device threshold originInfos scriptType) := by
  unfold multisigScriptconfig
  refine keeps_getMasterFingerprint.bind fun fp => (keeps_findOurXpub _ _ _ _).bind fun our => ?_
  cases our with
  | none => exact keeps_throw _
  | some our => exact (keeps_ofExcept _).bind fun _ => keeps_pure _

theorem keeps_scriptConfigFromUtxo (policy : Option BTCScriptConfigWithKeypath)
    (xpub : Dict Bytes KeyOriginInfo) (output : CTxOut) (keypath : List ℤ)
    (redeemScript witnessScript : Bytes) : Keeps (Asks s₀)
      (scriptConfigFromUtxo R chain device policy xpub output keypath redeemScript witnessScript) := by
  unfold scriptConfigFromUtxo
  cases policy with
  | some policy => exact keeps_pure _
  | none =>
    refine keeps_ite (keeps_throw _) (keeps_ite (keeps_pure _) (keeps_ite (keeps_pure _)
      (keeps_ite (keeps_pure _) (keeps_ite ?_ (keeps_throw _)))))
    unfold multisigConfigFromUtxo
    refine (keeps_ofExcept _).bind fun multisig => ?_
    cases multisig with
    | none => exact keeps_throw _
    | some multisig => exact (keeps_multisigScriptconfig _ _ _).bind fun _ => keeps_pure _

theorem keeps_ourPolicyKey (deviceFingerprint : Bytes) (pubkey : PubkeyProvider) :
    Keeps (Asks s₀) (ourPolicyKey R chain device deviceFingerprint pubkey) := by
  unfold ourPolicyKey
  split
  · split_ifs
    · exact keeps_pure _
    · refine (keeps_getXpub _).bind fun xpub => (keeps_ofExcept _).bind fun deviceXpub => ?_
      generalize ExtendedKey.serialize _ = data
      exact (keeps_ofExcept data).bind fun _ => keeps_pure _
  · exact keeps_pure _

theorem keeps_findAccountKeypath (deviceFingerprint : Bytes) (pubkeys : List PubkeyProvider)
    (accountKeypath : Option (List ℤ)) : Keeps (Asks s₀)
      (findAccountKeypath R chain device deviceFingerprint pubkeys accountKeypath) := by
  induction pubkeys generalizing accountKeypath with
  | nil => exact keeps_pure _
  | cons pubkey pubkeys ih =>
    refine (keeps_ourPolicyKey _ _).bind fun ours => ?_
    cases ours with
    | none => exact ih _
    | some path => exact keeps_ite (keeps_throw _) (ih _)

theorem keeps_findPolicy (registered : List RegisteredDescriptor) :
    Keeps (Asks s₀) (findPolicy R chain device registered) := by
  match registered with
  | [] => exact keeps_pure _
  | [registered] =>
    refine keeps_getMasterFingerprint.bind fun _ => (keeps_findAccountKeypath _ _ _).bind fun path => ?_
    cases path with
    | none => exact keeps_throw _
    | some path => exact (keeps_ofExcept _).bind fun _ => keeps_pure _
  | _ :: _ :: _ => exact keeps_throw _

theorem keeps_registerMultisig (configs : List BTCScriptConfigWithKeypath) :
    Keeps (Asks s₀) (registerMultisig chain device configs) := by
  unfold registerMultisig
  split
  · split
    · exact keeps_maybeRegisterScriptConfig _ _
    · exact keeps_pure _
  · exact keeps_pure _

end Bitbox02Client

end Hwi
