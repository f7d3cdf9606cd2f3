import Hwi.Lib.Cut
import Hwi.Proofs.DbbHashes

/-! A call of the Digital Bitbox loses nothing just when each reply is one that it reports or can
use, and the PSBT one that it can sign. -/

namespace Hwi

open Procedure
open DigitalbitboxClient

namespace Dbb

variable {R : Runtime} {c : Client} {α β : Type} {op : Operation} {cond : State → Prop}
  {l : List (Command × Reply)} {p psbt : PSBT} {command : Command}

/-! ### Replies in their places -/

/-- Each reply is one that the operation reports or can use. -/
def AllFine (op : Operation) (received : List (Command × Reply)) : Prop :=
  ∀ k x, received[k]? = some x → op.Fine k x.2

theorem allFine_nil : AllFine op [] := by
  intro k x h
  cases h

theorem allFine_concat {x : Command × Reply} :
    AllFine op (l ++ [x]) ↔ AllFine op l ∧ op.Fine l.length x.2 := by
  constructor
  · intro h
    refine ⟨fun k y hy => ?_, ?_⟩
    · have hlt := (List.getElem?_eq_some_iff.1 hy).1
      exact h k y ((List.getElem?_append_left hlt).trans hy)
    · exact h l.length x List.getElem?_concat_length
  · rintro ⟨hl, hx⟩ k y hy
    rcases Nat.lt_trichotomy k l.length with hlt | rfl | hgt
    · exact hl k y ((List.getElem?_append_left hlt).symm.trans hy)
    · rw [List.getElem?_concat_length] at hy
      cases hy
      exact hx
    · have hk := (List.getElem?_eq_some_iff.1 hy).1
      rw [List.length_append, List.length_singleton] at hk
      omega

theorem allFine_singleton {x : Command × Reply} : AllFine op [x] ↔ op.Fine 0 x.2 := by
  have h : AllFine op ([] ++ [x]) ↔ AllFine op [] ∧ op.Fine 0 x.2 := allFine_concat
  rwa [and_iff_right allFine_nil] at h

theorem fine_of_error {k : ℕ} {reply : Reply} {error : Json} (h : reply.get? "error" = some error) :
    op.Fine k reply ↔ op.Reportable k error := by
  unfold Operation.Fine
  rw [h]

theorem fine_of_answer {k : ℕ} {reply : Reply} (h : reply.get? "error" = none) :
    op.Fine k reply ↔ op.Usable k reply := by
  unfold Operation.Fine
  rw [h]

theorem meets_iff (h : op ≠ .signTx false) {received : List (Command × Reply)} :
    op.Meets R psbt received ↔ AllFine op received := and_iff_left fun heq => absurd heq h

theorem meets_signTx_iff {received : List (Command × Reply)} :
    (Operation.signTx false).Meets R psbt received ↔
      AllFine (.signTx false) received ∧ Signable R psbt received :=
  and_congr_right fun _ => ⟨fun h => h rfl, fun h _ => h⟩

/-! ### Steps -/

/-- The replies received so far, and the PSBT. -/
def At (l : List (Command × Reply)) (p : PSBT) (s : State) : Prop := s.received = l ∧ s.psbt = p

/-- What is raised in front of the decorator: it is reported just under a condition. -/
def Stops (cond : State → Prop) (e : Raised) (s : State) : Prop :=
  match e with
  | .dbbError error => Translated error ↔ cond s
  | e => e.isHWWError = true ↔ cond s

/-- The same behind the decorator. -/
def Ends (cond : State → Prop) (e : Raised) (s : State) : Prop :=
  (∀ error, e ≠ .dbbError error) ∧ (e.isHWWError = true ↔ cond s)

theorem Ends.stops {e : Raised} {s : State} (h : Ends cond e s) : Stops cond e s := by
  cases e with
  | dbbError error => exact absurd rfl (h.1 error)
  | exc e => exact h.2
  | deviceFailureError msg => exact h.2
  | deviceAlreadyInitError msg => exact h.2
  | attributeError => exact h.2

theorem stops_exc {e : Exc} {s : State} : Stops cond (.exc e) s ↔ (e.isHWWError = true ↔ cond s) := Iff.rfl

/-- An exception that is raised where the computation cannot go on. -/
theorem Stops.of_raising {r : Except Exc α} {e : Exc} {s : State} (hr : r = .error e)
    (h : Raising Unreported r ↔ ¬cond s) : Stops cond (.exc e) s := by
  rw [hr, raising_error] at h
  rw [stops_exc]
  cases he : e.isHWWError with
  | true =>
    have hno : ¬Unreported e := by
      intro hun
      rw [Unreported, he] at hun
      cases hun
    exact iff_of_true rfl (not_not.1 fun hc => hno (h.2 hc))
  | false => exact iff_of_false Bool.false_ne_true (h.1 he)

/-- The decorator ends a call without a result only where the condition fails. -/
theorem digitalbitboxException_spec {P : State → Prop} {Q : α → State → Prop} {f : Method α}
    (hf : Triple P f Q (Stops cond)) : Triple P (digitalbitboxException f)
      (fun result s => match result with
        | some a => Q a s
        | none => ¬cond s)
      (Ends cond) := by
  intro s hs
  have hrun := hf s hs
  simp only [EStateM.run, digitalbitboxException] at hrun ⊢
  cases hx : f s with
  | ok a s' =>
    rw [hx] at hrun
    exact hrun
  | error e s' =>
    rw [hx] at hrun
    cases e with
    | dbbError error =>
      have hiff : Translated error ↔ cond s' := hrun
      obtain ⟨htr, e, he, hhww⟩ | ⟨hno, he | ⟨e, he, hun⟩⟩ := translate_cases error
      · simp only [he]
        exact ⟨fun _ h => Raised.noConfusion h, iff_of_true hhww (hiff.1 htr)⟩
      · simp only [he]
        exact fun hc => hno (hiff.2 hc)
      · simp only [he]
        refine ⟨fun _ h => Raised.noConfusion h, iff_of_false ?_ fun hc => hno (hiff.2 hc)⟩
        rw [show (Raised.exc e).isHWWError = false from hun]
        exact Bool.false_ne_true
    | exc e => exact ⟨fun _ h => Raised.noConfusion h, hrun⟩
    | deviceFailureError msg => exact ⟨fun _ h => Raised.noConfusion h, hrun⟩
    | deviceAlreadyInitError msg => exact ⟨fun _ h => Raised.noConfusion h, hrun⟩
    | attributeError => exact ⟨fun _ h => Raised.noConfusion h, hrun⟩

/-- A request adds one reply. -/
theorem request_at : Triple (At l p) (request c command)
    (fun reply s => At (l ++ [(command, reply)]) p s ∧ reply.get? "error" = none)
    (fun e s => ∃ reply error, s.received = l ++ [(command, reply)] ∧ reply.get? "error" = some error ∧
      e = .dbbError error) := by
  refine Triple.mono request_spec (fun _ hs => hs) ?_ ?_
  · rintro reply s ⟨s₀, ⟨rfl, rfl⟩, rfl, rfl, herror⟩
    exact ⟨⟨rfl, rfl⟩, herror⟩
  · rintro e s ⟨s₀, error, ⟨rfl, rfl⟩, rfl, rfl, herror⟩
    exact ⟨_, error, rfl, herror, rfl⟩

/-- A request of an operation that leaves errors to the decorator. -/
theorem request_fine (hreport : ∀ k error, op.Reportable k error ↔ Translated error) (hl : AllFine op l)
    (hcond : ∀ s x, s.received = l ++ [x] → ∀ error, x.2.get? "error" = some error →
      (cond s ↔ AllFine op s.received)) :
    Triple (At l p) (request c command)
      (fun reply s => At (l ++ [(command, reply)]) p s ∧ reply.get? "error" = none) (Stops cond) := by
  refine Triple.mono request_at (fun _ hs => hs) (fun _ _ h => h) ?_
  rintro _ s ⟨reply, error, hs, herror, rfl⟩
  change Translated error ↔ cond s
  rw [hcond s _ hs error herror, hs, allFine_concat, and_iff_right hl, fine_of_error herror, hreport]

/-! ### Keys -/

/-- A call that asks for a key, under a condition on the reply where it is no key. -/
theorem getPubkeyAtPathBody_spec (path : Str) (hnil : ∀ s, s.received = [] → cond s)
    (herror : ∀ s reply error, s.received = [(xpubCommand path, reply)] →
      reply.get? "error" = some error → (cond s ↔ Translated error))
    (hanswer : ∀ s reply, s.received = [(xpubCommand path, reply)] → reply.get? "error" = none →
      ¬HasKey reply → (cond s ↔ HasBadKey reply)) :
    Triple (At [] p) (getPubkeyAtPathBody c path)
      (fun xpub s => ∃ reply, At [(xpubCommand path, reply)] p s ∧ reply.get? "error" = none ∧
        replyXpub c reply = .ok xpub) (Stops cond) := by
  have hask : Triple (At [] p) (do
      let reply ← request c (xpubCommand path)
      run (replyXpub c reply))
      (fun xpub s => ∃ reply, At [(xpubCommand path, reply)] p s ∧ reply.get? "error" = none ∧
        replyXpub c reply = .ok xpub) (Stops cond) := by
    refine Triple.bind (Triple.mono request_at (fun _ hs => hs) (fun _ _ h => h) ?_) fun reply => ?_
    · rintro _ s ⟨reply, error, hs, he, rfl⟩
      exact (herror s reply error hs he).symm
    · refine .assume fun hreply => Triple.mono run_spec (fun _ hs => hs) ?_ ?_
      · rintro xpub s ⟨hs, hxpub⟩
        exact ⟨reply, hs, hreply, hxpub⟩
      · rintro _ s ⟨hs, e, he, rfl⟩
        have hno : ¬HasKey reply := by
          rw [← exists_replyXpub_eq_ok (c := c), he]
          rintro ⟨xpub, h⟩
          cases h
        apply Stops.of_raising he
        rw [raising_replyXpub, or_iff_right hno, hanswer s reply hs.1 hreply hno]
  unfold getPubkeyAtPathBody
  split_ifs
  · refine .bind (M := fun _ _ => False) (.throw fun s hs => ?_) fun _ s hs => hs.elim
    exact iff_of_true rfl (hnil s hs.1)
  · exact hask

theorem getMasterFingerprint_spec (cond : State → Prop) (p : PSBT) (hnil : ∀ s, s.received = [] → cond s)
    (herror : ∀ s reply error, s.received = [(xpubCommand "m/0h".toList, reply)] →
      reply.get? "error" = some error → (cond s ↔ Translated error))
    (hanswer : ∀ s reply, s.received = [(xpubCommand "m/0h".toList, reply)] → reply.get? "error" = none →
      ¬HasKey reply → (cond s ↔ HasBadKey reply)) :
    Triple (At [] p) (getMasterFingerprint c)
      (fun masterFp s => ∃ reply xpub, At [(xpubCommand "m/0h".toList, reply)] p s ∧
        reply.get? "error" = none ∧ replyXpub c reply = .ok xpub ∧ masterFp = xpub.parentFingerprint)
      (Stops cond) := by
  have hcall := digitalbitboxException_spec
    (getPubkeyAtPathBody_spec (c := c) (p := p) "m/0h".toList hnil herror hanswer)
  refine .bind (hcall.mono (fun _ hs => hs) (fun _ _ h => h) fun _ _ h => h.stops) fun xpub => ?_
  cases xpub with
  | none => exact .throw fun s hs => iff_of_false Bool.false_ne_true hs
  | some xpub =>
    apply Triple.pure
    rintro s ⟨reply, hs, hreply, hxpub⟩
    exact ⟨reply, xpub, hs, hreply, hxpub, rfl⟩

/-! ### Operations -/

/-- What a call under the decorator does: it returns what it should, or tells by an `HWWError`
or its absence whether the condition holds. -/
def Judged (R : Runtime) (psbt : PSBT) (op : Operation) (good : α → State → Prop)
    (x : Method (Option α)) : Prop :=
  Triple (At [] psbt) x
    (fun result s => match result with
      | some a => good a s ∧ op.Meets R psbt s.received
      | none => ¬op.Meets R psbt s.received)
    (fun e s => e.isHWWError = true ↔ op.Meets R psbt s.received)

/-- The decorator around the body of an operation. -/
theorem Judged.of_body {good : α → State → Prop} {f : Method α}
    (hf : Triple (At [] psbt) f (fun a s => good a s ∧ op.Meets R psbt s.received)
      (Stops fun s => op.Meets R psbt s.received)) :
    Judged R psbt op good (digitalbitboxException f) :=
  (digitalbitboxException_spec hf).mono (fun _ hs => hs) (fun _ _ h => h) fun _ _ h => h.2

theorem Judged.map {good : α → State → Prop} {good' : β → State → Prop} {x : Method (Option α)} {f : α → β}
    (h : Judged R psbt op good x) (hf : ∀ a s, good a s → good' (f a) s) :
    Judged R psbt op good' (do let result ← x; return result.map f) := by
  refine Triple.bind h fun result => ?_
  cases result with
  | none => exact .pure fun s hs => hs
  | some a => exact .pure fun s hs => ⟨hf a s hs.1, hs.2⟩

theorem getPubkeyAtPath_judged (path : Str) : Judged R psbt (.getPubkeyAtPath path)
    (fun xpub s => (Operation.getPubkeyAtPath path).Delivers R c psbt (.xpub xpub) s)
    (getPubkeyAtPath c path) := by
  have hmeets {received : List (Command × Reply)} :
      (Operation.getPubkeyAtPath path).Meets R psbt received ↔ AllFine (.getPubkeyAtPath path) received :=
    meets_iff Operation.noConfusion
  apply Judged.of_body
  refine Triple.mono (getPubkeyAtPathBody_spec path ?_ ?_ ?_) (fun _ hs => hs) ?_ fun _ _ h => h
  · intro s hs
    rw [hmeets, hs]
    exact allFine_nil
  · intro s reply error hs herror
    rw [hmeets, hs, allFine_singleton, fine_of_error herror]
    rfl
  · intro s reply hs hreply hno
    rw [hmeets, hs, allFine_singleton, fine_of_answer hreply]
    exact or_iff_right hno
  · rintro xpub s ⟨reply, hs, hreply, hxpub⟩
    refine ⟨⟨reply, hs.1, hreply, hxpub⟩, ?_⟩
    rw [hmeets, hs.1, allFine_singleton, fine_of_answer hreply]
    exact Or.inl (exists_replyXpub_eq_ok.1 ⟨xpub, hxpub⟩)

theorem signMessage_judged (message : Message) (keypath : Str) : Judged R psbt (.signMessage message keypath)
    (fun signature s => (Operation.signMessage message keypath).Delivers R c psbt (.signature signature) s)
    (signMessage R c message keypath) := by
  have hmeets {received : List (Command × Reply)} :
      (Operation.signMessage message keypath).Meets R psbt received ↔
        AllFine (.signMessage message keypath) received := meets_iff Operation.noConfusion
  have hreport (k : ℕ) (error : Json) :
      (Operation.signMessage message keypath).Reportable k error ↔ Translated error := Iff.rfl
  apply Judged.of_body
  unfold signMessageBody
  generalize hcommand : signMessageCommand (R.hash256 (toHash message)) keypath = command
  refine .bind (request_fine hreport allFine_nil fun s x hs error herror => hmeets) fun first => ?_
  refine .assume fun hfirst => ?_
  have hfine : AllFine (.signMessage message keypath) ([] ++ [(command, first)]) := by
    rw [allFine_concat, and_iff_right allFine_nil, fine_of_answer hfirst]
    trivial
  refine .bind (request_fine hreport hfine fun s x hs error herror => hmeets) fun reply => ?_
  refine .assume fun hreply => ?_
  have hiff : AllFine (.signMessage message keypath) ([] ++ [(command, first)] ++ [(command, reply)]) ↔
      ∃ sig recid, HasSignature reply sig recid := by
    rw [allFine_concat, and_iff_right hfine, fine_of_answer hreply]
    rfl
  refine Triple.mono run_spec (fun _ hs => hs) ?_ ?_
  · rintro signature s ⟨hs, hsig⟩
    obtain ⟨sig, recid, h, heq⟩ := compactSig_eq_ok_iff.1 hsig
    refine ⟨⟨first, reply, sig, recid, ?_, hfirst, hreply, h, heq⟩, ?_⟩
    · rw [hcommand]
      exact hs.1
    · rw [hmeets, hs.1, hiff]
      exact ⟨sig, recid, h⟩
  · rintro _ s ⟨hs, e, he, rfl⟩
    apply Stops.of_raising he
    rw [raising_compactSig, hmeets, hs.1, hiff]

/-- A request of an operation that raises the message of an error at once. -/
theorem requestOrFail_at {k : ℕ} (hreport : ∀ error, op.Reportable k error ↔ ∃ msg, error.getItem "message" = .ok msg)
    (husable : ∀ reply, op.Usable k reply) (hl : AllFine op l) (hlen : l.length = k) :
    Triple (At l p) (requestOrFail c command)
      (fun reply s => At (l ++ [(command, reply)]) p s ∧ reply.get? "error" = none ∧ AllFine op s.received)
      (Stops fun s => AllFine op s.received) := by
  refine .bind (sendEncrypt_spec (E := Stops fun s => AllFine op s.received)) fun reply => ?_
  cases herror : reply.get? "error" with
  | none =>
    apply Triple.pure
    rintro s ⟨s₀, ⟨rfl, rfl⟩, rfl, rfl⟩
    refine ⟨⟨rfl, rfl⟩, herror, allFine_concat.2 ⟨hl, ?_⟩⟩
    rw [fine_of_answer herror, hlen]
    exact husable _
  | some error =>
    have hfine : op.Fine l.length reply ↔ ∃ msg, error.getItem "message" = .ok msg := by
      rw [fine_of_error herror, hlen, hreport]
    have hall (s : State) (h : ∃ s₀, At l p s₀ ∧ s = exchanged c command s₀ ∧
        reply = c.reply (s₀.sent ++ [command])) :
        AllFine op s.received ↔ ∃ msg, error.getItem "message" = .ok msg := by
      obtain ⟨s₀, ⟨rfl, rfl⟩, rfl, rfl⟩ := h
      exact allFine_concat.trans ((and_iff_right hl).trans hfine)
    refine .bind (run_spec.mono (fun _ hs => hs) (fun _ _ h => h) ?_) fun msg => ?_
    · rintro _ s ⟨hs, e, he, rfl⟩
      apply Stops.of_raising he
      rw [raising_iff_not_ok (Json.getItem_unreported _ _), hall s hs]
    · refine .assume fun hmsg => .throw fun s hs => ?_
      exact iff_of_true rfl ((hall s hs).2 ⟨msg, hmsg⟩)

theorem wipeDevice_judged : Judged R psbt .wipeDevice
    (fun done s => Operation.wipeDevice.Delivers R c psbt (.done done) s) (wipeDevice c) := by
  have hmeets {received : List (Command × Reply)} :
      Operation.wipeDevice.Meets R psbt received ↔ AllFine .wipeDevice received :=
    meets_iff Operation.noConfusion
  apply Judged.of_body
  simp only [hmeets]
  refine .bind (requestOrFail_at (fun _ => Iff.rfl) (fun _ => trivial) allFine_nil rfl) fun reply => ?_
  apply Triple.pure
  rintro s ⟨hs, hreply, hfine⟩
  exact ⟨⟨reply, hs.1, hreply, rfl⟩, hfine⟩

theorem backupDevice_judged (label passphrase : Str) : Judged R psbt (.backupDevice label passphrase)
    (fun done s => (Operation.backupDevice label passphrase).Delivers R c psbt (.done done) s)
    (backupDevice c label passphrase) := by
  have hmeets {received : List (Command × Reply)} :
      (Operation.backupDevice label passphrase).Meets R psbt received ↔
        AllFine (.backupDevice label passphrase) received := meets_iff Operation.noConfusion
  have hreport (k : ℕ) (error : Json) :
      (Operation.backupDevice label passphrase).Reportable k error ↔ Translated error := Iff.rfl
  apply Judged.of_body
  unfold backupDeviceBody
  split_ifs
  · refine .bind (M := fun _ _ => False) (.throw fun s hs => ?_) fun _ s hs => hs.elim
    refine iff_of_true rfl (hmeets.2 ?_)
    rw [hs.1]
    exact allFine_nil
  · refine .bind (request_fine hreport allFine_nil fun s x hs error herror => hmeets) fun reply => ?_
    refine .assume fun hreply => .pure fun s hs => ⟨⟨reply, hs.1, hreply, rfl⟩, ?_⟩
    rw [hmeets, hs.1, allFine_concat, and_iff_right allFine_nil, fine_of_answer hreply]
    trivial

/-- The first reply to `setup_device`: it goes on only on a device that is not set up. -/
theorem checkUninitialized_cases (label passphrase : Str) (reply : Reply) :
    (checkUninitialized reply = .ok () ∧ Uninitialized reply ∧
      (Operation.setupDevice label passphrase).Fine 0 reply) ∨
    ∃ e, checkUninitialized reply = .error e ∧ (∀ error, e ≠ .dbbError error) ∧
      (e.isHWWError = true ↔ (Operation.setupDevice label passphrase).Fine 0 reply) := by
  unfold checkUninitialized
  cases herror : reply.get? "error" with
  | none =>
    refine Or.inr ⟨_, rfl, fun _ h => Raised.noConfusion h, iff_of_true rfl ?_⟩
    rw [fine_of_answer herror]
    trivial
  | some error =>
    rw [fine_of_error herror]
    dsimp only
    cases hcode : error.getItem "code" with
    | error e =>
      refine Or.inr ⟨_, rfl, fun _ h => Raised.noConfusion h, iff_of_false ?_ ?_⟩
      · intro hhww
        refine Json.getItem_unreported "code" error ⟨e, hcode, fun hun => ?_⟩
        rw [Unreported, show e.isHWWError = true from hhww] at hun
        cases hun
      · rintro ⟨code, h⟩
        rw [hcode] at h
        cases h
    | ok code =>
      have hfine : (Operation.setupDevice label passphrase).Reportable 0 error := ⟨code, hcode⟩
      dsimp only
      split_ifs with hunset
      · exact Or.inl ⟨rfl, ⟨error, code, herror, hcode, hunset⟩, hfine⟩
      · exact Or.inr ⟨_, rfl, fun _ h => Raised.noConfusion h, iff_of_true rfl hfine⟩

theorem setupDevice_judged (label passphrase : Str) : Judged R psbt (.setupDevice label passphrase)
    (fun done s => (Operation.setupDevice label passphrase).Delivers R c psbt (.done done) s)
    (setupDevice c label passphrase) := by
  have hmeets {received : List (Command × Reply)} :
      (Operation.setupDevice label passphrase).Meets R psbt received ↔
        AllFine (.setupDevice label passphrase) received := meets_iff Operation.noConfusion
  apply Judged.of_body
  simp only [hmeets]
  unfold setupDeviceBody
  have hsend : Triple (At [] psbt) (sendEncrypt c infoCommand)
      (fun reply s => At [(infoCommand, reply)] psbt s)
      (Stops fun s => AllFine (.setupDevice label passphrase) s.received) := by
    refine sendEncrypt_spec.mono (fun _ hs => hs) ?_ fun _ _ h => h
    rintro _ s ⟨s₀, ⟨hnil, hpsbt⟩, rfl, rfl⟩
    exact ⟨by rw [exchanged, hnil]; rfl, hpsbt⟩
  refine .bind hsend fun reply => ?_
  have hone : (Operation.setupDevice label passphrase).Fine 0 reply ↔
      AllFine (.setupDevice label passphrase) [(infoCommand, reply)] :=
    (allFine_singleton (x := (infoCommand, reply))).symm
  obtain ⟨hok, hunset, hfine⟩ | ⟨e, he, hne, hiff⟩ :=
    checkUninitialized_cases label passphrase reply
  · rw [hok]
    have hfirst := hone.1 hfine
    have hrest : Triple (At [(infoCommand, reply)] psbt) (do
        sendPlain (.password c.password)
        let _ ← requestOrFail c (.seed (c.stretchBackupKey passphrase) (formatBackupFilename c label))
        return true)
        (fun done s => (Operation.setupDevice label passphrase).Delivers R c psbt (.done done) s ∧
          AllFine (.setupDevice label passphrase) s.received)
        (Stops fun s => AllFine (.setupDevice label passphrase) s.received) := by
      refine .modify_bind (M := At [(infoCommand, reply)] psbt) (fun s hs => hs) ?_
      refine .bind (requestOrFail_at (k := 1) (fun _ => Iff.rfl) (fun _ => trivial) hfirst rfl) fun second => ?_
      apply Triple.pure
      rintro s ⟨hs, hsecond, hall⟩
      exact ⟨⟨reply, second, hs.1, hunset, hsecond, rfl⟩, hall⟩
    refine .ofExcept_bind (fun _ _ => ?_) (by rintro e s ⟨⟩)
    split_ifs
    · refine .bind (M := fun _ _ => False) (.throw fun s hs => ?_) fun _ s hs => hs.elim
      exact iff_of_true rfl (show AllFine _ s.received from hs.1 ▸ hfirst)
    · exact hrest
  · rw [he]
    refine .ofExcept_bind (by rintro u ⟨⟩) ?_
    rintro e' s ⟨⟩ hs
    have hall : AllFine (.setupDevice label passphrase) s.received ↔
        (Operation.setupDevice label passphrase).Fine 0 reply := by
      rw [hs.1, hone]
    exact Ends.stops ⟨hne, hiff.trans hall.symm⟩

/-! ### `sign_tx` -/

theorem flatten_batches (tups : List SighashTuple) : (batches tups).flatten = tups :=
  flatten_slices 15 _ tups (by omega)

theorem foldl_addSig (l : List (SighashTuple × Bytes)) (s : State) :
    l.foldl (fun s x => { s with psbt := addSig s.psbt x.1 x.2 }) s =
      { s with psbt := l.foldl (fun p x => addSig p x.1 x.2) s.psbt } := by
  induction l generalizing s with
  | nil => rfl
  | cons x l ih => exact ih _

theorem addRounds_concat (psbt : PSBT) (rounds : List Round) (round : Round) :
    addRounds psbt (rounds ++ [round]) =
      (round.tups.zip round.sigs).foldl (fun p x => addSig p x.1 x.2) (addRounds psbt rounds) := by
  rw [addRounds, addRounds, List.flatMap_append, List.foldl_append, List.flatMap_singleton]

theorem length_exchanges (rounds : List Round) : (rounds.flatMap Round.exchange).length = 2 * rounds.length := by
  induction rounds with
  | nil => rfl
  | cons round rounds ih =>
    rw [List.flatMap_cons, List.length_append, ih, List.length_cons]
    have htwo : round.exchange.length = 2 := rfl
    omega

/-- One batch is one round, or stops at a reply that is not fine. -/
theorem signBatch_at (tups : List SighashTuple) (hl : AllFine (.signTx false) l) (hodd : l.length % 2 = 1)
    (hcond : ∀ s l', s.received = l ++ l' → (cond s ↔ AllFine (.signTx false) s.received)) :
    Triple (At l p) (signBatch c tups)
      (fun _ s => ∃ round : Round, round.tups = tups ∧ round.Answered ∧
        At (l ++ round.exchange) ((round.tups.zip round.sigs).foldl (fun p x => addSig p x.1 x.2) p) s ∧
        AllFine (.signTx false) s.received) (Stops cond) := by
  have hreport (k : ℕ) (error : Json) : (Operation.signTx false).Reportable k error ↔ Translated error := Iff.rfl
  unfold signBatch
  generalize hcommand : Command.text (signCommand tups) = command
  refine .bind (request_fine hreport hl fun s x hs error herror => hcond s _ hs) fun first => ?_
  refine .assume fun hfirst => ?_
  -- the first answer to a command is not looked at
  have hfine : AllFine (.signTx false) (l ++ [(command, first)]) := by
    rw [allFine_concat, and_iff_right hl, fine_of_answer hfirst]
    obtain ⟨k, hk⟩ : ∃ k, l.length = 2 * k + 1 := ⟨l.length / 2, by omega⟩
    rw [hk]
    intro hno
    omega
  refine .bind (request_fine hreport hfine fun s x hs error herror => hcond s _ (hs.trans (List.append_assoc ..)))
    fun reply => ?_
  refine .assume fun hreply => ?_
  have hiff : AllFine (.signTx false) (l ++ [(command, first)] ++ [(command, reply)]) ↔ HasSignatures reply := by
    rw [allFine_concat, and_iff_right hfine, fine_of_answer hreply, List.length_append, List.length_singleton]
    obtain ⟨k, hk⟩ : ∃ k, l.length = 2 * k + 1 := ⟨l.length / 2, by omega⟩
    rw [hk]
    change (((2 * k + 1) % 2 = 1) → HasSignatures reply) ↔ _
    exact ⟨fun h => h (by omega), fun h _ => h⟩
  refine .bind (run_spec.mono (fun _ hs => hs) (fun _ _ h => h) ?_) fun sigs => ?_
  · rintro _ s ⟨hs, e, he, rfl⟩
    apply Stops.of_raising he
    rw [raising_derSigs, hcond s _ (hs.1.trans (List.append_assoc ..)), hs.1, hiff]
  · refine .assume fun hsigs => ?_
    rintro s ⟨hreceived, rfl⟩
    have hrun := run_forM_modify (ε := Raised) (tups.zip sigs) (fun x s => { s with psbt := addSig s.psbt x.1 x.2 }) s
    rw [foldl_addSig] at hrun
    have hall : AllFine (.signTx false) s.received := by
      rw [hreceived, hiff]
      exact exists_derSigs_eq_ok.1 ⟨sigs, hsigs⟩
    have hexchange : (⟨tups, first, reply, sigs⟩ : Round).exchange = [(command, first), (command, reply)] := by
      rw [Round.exchange, hcommand]
    have hpost : ∃ round : Round, round.tups = tups ∧ round.Answered ∧
        At (l ++ round.exchange) ((round.tups.zip round.sigs).foldl (fun p x => addSig p x.1 x.2) s.psbt)
          { s with psbt := (tups.zip sigs).foldl (fun p x => addSig p x.1 x.2) s.psbt } ∧
        AllFine (.signTx false) s.received := by
      refine ⟨⟨tups, first, reply, sigs⟩, rfl, ⟨hfirst, hreply, hsigs⟩, ⟨?_, rfl⟩, hall⟩
      rw [hexchange]
      exact hreceived.trans (List.append_assoc ..)
    rw [show (forM (tups.zip sigs) fun x => modify fun s => { s with psbt := addSig s.psbt x.1 x.2 } :
      Method PUnit).run s = _ from hrun]
    exact hpost

/-- The state after some rounds of batches. -/
def AfterRounds (keyReply : Reply) (p : PSBT) (tups : List (List SighashTuple)) (s : State) : Prop :=
  ∃ rounds : List Round, rounds.map Round.tups = tups ∧ (∀ round ∈ rounds, round.Answered) ∧
    At ((xpubCommand "m/0h".toList, keyReply) :: rounds.flatMap Round.exchange) (addRounds p rounds) s ∧
    AllFine (.signTx false) s.received

theorem signBatches_spec {keyReply : Reply} (cond : State → Prop) (p : PSBT) (batches : List (List SighashTuple))
    (hkey : AllFine (.signTx false) [(xpubCommand "m/0h".toList, keyReply)])
    (hcond : ∀ s l, s.received = (xpubCommand "m/0h".toList, keyReply) :: l →
      (cond s ↔ AllFine (.signTx false) s.received)) :
    Triple (At [(xpubCommand "m/0h".toList, keyReply)] p) (forM batches (signBatch c))
      (fun _ => AfterRounds keyReply p batches) (Stops cond) := by
  have hloop := Triple.forM (I := AfterRounds keyReply p) (E := Stops cond) (f := signBatch c) (l := batches)
    (fun done tups _ => ?_) []
  · refine hloop.mono ?_ (fun _ _ h => h) fun _ _ h => h
    intro s hs
    exact ⟨[], rfl, fun round h => absurd h List.not_mem_nil, hs, hs.1 ▸ hkey⟩
  · rintro s ⟨rounds, rfl, hanswered, hs, hfine⟩
    have hl := hs.1 ▸ hfine
    have hodd : ((xpubCommand "m/0h".toList, keyReply) :: rounds.flatMap Round.exchange).length % 2 = 1 := by
      rw [List.length_cons, length_exchanges]
      omega
    refine (signBatch_at tups hl hodd fun s l' h => hcond s _ h).mono (fun _ h => h) ?_ (fun _ _ h => h) s hs
    rintro _ s' ⟨round, rfl, hround, hs', hfine'⟩
    refine ⟨rounds ++ [round], List.map_append, ?_, ?_, hfine'⟩
    · intro round' hmem
      rcases List.mem_append.1 hmem with hmem | hmem
      · exact hanswered round' hmem
      · exact List.mem_singleton.1 hmem ▸ hround
    · rw [List.flatMap_append, addRounds_concat, List.flatMap_singleton]
      exact hs'

/-- Work on the transaction receives nothing. -/
theorem onBlankTx_at {tx : CTransaction} {γ : Type} (x : Blanked γ) {good : γ → CTransaction → Prop}
    {bad : Exc → Prop} (hx : Triple (· = tx) x good fun e _ => bad e) :
    Triple (At l p) (onBlankTx tx x)
      (fun a s => ∃ tx', good a tx' ∧ At l (if p.version = 0 then { p with tx := tx' } else p) s)
      (fun e s => ∃ e', e = .exc e' ∧ s.received = l ∧ bad e') := by
  rintro s ⟨rfl, rfl⟩
  have hrun := hx tx rfl
  simp only [EStateM.run, onBlankTx] at hrun ⊢
  cases h : x tx with
  | ok a tx' =>
    rw [h] at hrun
    refine ⟨tx', hrun, ?_⟩
    split_ifs
    · exact ⟨rfl, rfl⟩
    · exact ⟨rfl, rfl⟩
  | error e tx' =>
    rw [h] at hrun
    refine ⟨e, rfl, ?_, hrun⟩
    split_ifs
    · rfl
    · rfl

/-- The run of `sign_tx` from the PSBT on. -/
theorem signBlankTx_spec : Triple (At [] psbt) (signBlankTx R c)
    (fun _ s => Signed R c psbt s ∧ (Operation.signTx false).Meets R psbt s.received)
    (Stops fun s => (Operation.signTx false).Meets R psbt s.received) := by
  simp only [meets_signTx_iff]
  refine .get_bind fun s hs => ?_
  obtain ⟨received, rfl⟩ := hs
  -- the PSBT gives a transaction
  refine .bind (run_spec.mono (fun _ hs => hs) (fun _ _ h => h) ?_) fun tx => ?_
  · rintro _ s' ⟨rfl, e, he, rfl⟩
    apply Stops.of_raising he
    rw [PSBT.raising_getUnsignedTx, received, and_iff_right allFine_nil]
    refine not_congr (and_iff_left ?_).symm
    rintro x ⟨⟩
  refine .assume fun htx => ?_
  have hgives : s.psbt.GivesTx := by
    by_contra hno
    obtain ⟨e, he, -⟩ := PSBT.raising_getUnsignedTx.2 hno
    rw [htx] at he
    cases he
  -- the device says which key it has
  have hsign (s' : State) (x : Command × Reply) (hs' : s'.received = [x])
      (hno : x.2.get? "error" = none → ¬HasKey x.2) : Signable R s.psbt s'.received := by
    refine ⟨hgives, fun y hy herror hkey => ?_⟩
    rw [hs'] at hy
    cases hy
    exact absurd hkey (hno herror)
  have hfp := getMasterFingerprint_spec (c := c)
    (fun s' => AllFine (.signTx false) s'.received ∧ Signable R s.psbt s'.received) s.psbt ?_ ?_ ?_
  rotate_left
  · intro s' hs'
    rw [hs']
    refine ⟨allFine_nil, hgives, ?_⟩
    rintro x ⟨⟩
  · intro s' reply error hs' herror
    have hno : reply.get? "error" = none → ¬HasKey reply := by
      intro h
      rw [herror] at h
      cases h
    rw [and_iff_left (hsign s' _ hs' hno), hs', allFine_singleton, fine_of_error herror]
    rfl
  · intro s' reply hs' hreply hno
    rw [and_iff_left (hsign s' _ hs' fun _ => hno), hs', allFine_singleton, fine_of_answer hreply]
    exact or_iff_right hno
  have hat : At [] s.psbt s := ⟨received, rfl⟩
  refine .bind (hfp.mono (by rintro s' rfl; exact hat) (fun _ _ h => h) fun _ _ h => h) fun masterFp => ?_
  rintro s' ⟨keyReply, xpub, hs', hreply, hxpub, rfl⟩
  have hkey := exists_replyXpub_eq_ok.1 ⟨xpub, hxpub⟩
  have hfine : AllFine (.signTx false) [(xpubCommand "m/0h".toList, keyReply)] := by
    rw [allFine_singleton, fine_of_answer hreply]
    exact Or.inl hkey
  have hsignable (s : State) (l : List (Command × Reply)) (p : PSBT) (tx : CTransaction)
      (hgives : p.GivesTx) (htx : p.getUnsignedTx R = .ok tx)
      (hs : s.received = (xpubCommand "m/0h".toList, keyReply) :: l) :
      Signable R p s.received ↔ Hashable tx p.inputs := by
    constructor
    · intro h
      refine h.2 (xpubCommand "m/0h".toList, keyReply) ?_ hreply hkey tx htx
      rw [hs]
      rfl
    · intro h
      refine ⟨hgives, fun x hx herror hkey' tx' htx' => ?_⟩
      rw [htx] at htx'
      cases htx'
      exact h
  -- the inputs are hashed
  have hpass := (sighashTuples_outcome (R := R) tx xpub.parentFingerprint 0 s.psbt.inputs).mono
    (fun (t : CTransaction) (ht : t = tx) => ht ▸ rfl) (fun _ _ h => h) fun _ _ h => h
  have hwork := onBlankTx_at (l := [(xpubCommand "m/0h".toList, keyReply)]) (p := s.psbt) _
    (hpass.with_run.mono (fun _ h => h) (fun _ _ h => h) fun _ _ h => h.1)
  refine Triple.bind (P := At [(xpubCommand "m/0h".toList, keyReply)] s.psbt)
    (hwork.mono (fun _ h => h) (fun _ _ h => h) ?_) (fun tups => ?_) s' hs'
  · rintro _ t ⟨e, rfl, ht, hiff⟩
    rw [stops_exc, hsignable t [] s.psbt tx hgives htx ht, ht, and_iff_right hfine]
    exact hiff
  rintro t ⟨tx', ⟨hhash, hrun⟩, ht⟩
  have hhashable : Hashable tx s.psbt.inputs := hhash
  -- the batches are signed
  have hbatches := signBatches_spec (c := c)
    (fun s' => AllFine (.signTx false) s'.received ∧ Signable R s.psbt s'.received)
    (if s.psbt.version = 0 then { s.psbt with tx := tx' } else s.psbt)
    (batches tups) hfine fun s l hs => and_iff_left ((hsignable s l _ tx hgives htx hs).2 hhashable)
  refine hbatches.mono (fun _ h => h) ?_ (fun _ _ h => h) t ht
  rintro _ t ⟨rounds, hrounds, hanswered, ht, hall⟩
  refine ⟨⟨keyReply, xpub, tx, tx', rounds, htx, hreply, hxpub, ?_, ht.1, hanswered, ht.2⟩, hall, ?_⟩
  · rw [hrun, List.flatMap_def, hrounds, flatten_batches]
  · exact (hsignable t _ _ tx hgives htx ht.1).2 hhashable

theorem signTx_judged (registeredDescriptors : Bool) : Judged R psbt (.signTx registeredDescriptors)
    (fun _ s => (Operation.signTx registeredDescriptors).Delivers R c psbt .psbt s)
    (signTx R c registeredDescriptors) := by
  apply Judged.of_body
  cases registeredDescriptors with
  | false => exact signBlankTx_spec
  | true =>
    refine Triple.bind (M := fun _ _ => False) (.throw fun s hs => ?_) fun _ s hs => hs.elim
    refine iff_of_true rfl ((meets_iff (by decide)).2 ?_)
    rw [hs.1]
    exact allFine_nil

theorem call_judged (R : Runtime) (c : Client) (psbt : PSBT) (op : Operation) :
    Judged R psbt op (fun value s => op.Delivers R c psbt value s) (op.call R c) := by
  cases op with
  | getPubkeyAtPath path => exact (getPubkeyAtPath_judged path).map fun _ _ h => h
  | signTx registeredDescriptors => exact (signTx_judged registeredDescriptors).map fun _ _ h => h
  | signMessage message keypath => exact (signMessage_judged message keypath).map fun _ _ h => h
  | setupDevice label passphrase => exact (setupDevice_judged label passphrase).map fun _ _ h => h
  | wipeDevice => exact wipeDevice_judged.map fun _ _ h => h
  | backupDevice label passphrase => exact (backupDevice_judged label passphrase).map fun _ _ h => h

/-- A call loses nothing exactly if each reply it receives is one that the operation reports or
can use, and the PSBT one that can be signed. -/
theorem nothingLost_iff (R : Runtime) (c : Client) (op : Operation) (psbt : PSBT) :
    op.NothingLost R c psbt ((op.call R c).run { psbt }) ↔
      op.Meets R psbt ((op.call R c).after { psbt }).received := by
  have hrun := call_judged R c psbt op { psbt } ⟨rfl, rfl⟩
  unfold Procedure.after
  cases hx : (op.call R c).run { psbt } with
  | ok result s =>
    rw [hx] at hrun
    cases result with
    | none => exact iff_of_false id hrun
    | some value => exact iff_of_true hrun.1 hrun.2
  | error e s =>
    rw [hx] at hrun
    exact hrun

/-- A refused signature without a result, a failed message as a `TypeError`, and an answer without a
signature as a `KeyError`. -/
theorem nothingLost_unlisted :
    (∃ s, ((Operation.signMessage (.bytes []) ['m']).call Runtime.zeros
      (sampleClient (errorReply (.int 999) "Denied"))).run { psbt := {} } = .ok none s) ∧
    (∃ s, (Operation.wipeDevice.call Runtime.zeros
      (sampleClient [("error".toList, .str "Timeout".toList)])).run { psbt := {} } =
        .error (.exc .typeError) s) ∧
    (∃ s, ((Operation.signMessage (.bytes []) ['m']).call Runtime.zeros (sampleClient [])).run
      { psbt := {} } = .error (.exc .keyError) s) ∧
    ¬∀ R c (op : Operation) psbt, op.NothingLost R c psbt ((op.call R c).run { psbt }) := by
  refine ⟨⟨_, rfl⟩, ⟨_, rfl⟩, ⟨_, rfl⟩, fun h => ?_⟩
  exact h Runtime.zeros (sampleClient (errorReply (.int 999) "Denied")) (.signMessage (.bytes []) ['m']) {}

end Dbb

end Hwi
