import Hwi.Proofs.DbbReply

/-! The steps of a call of the Digital Bitbox: one message and its reply, and what
`digitalbitbox_exception` leaves alone. -/

namespace Hwi

open Procedure

namespace Dbb

variable {c : Client} {command : Command} {α : Type}

/-- The state after a message and its reply. -/
def exchanged (c : Client) (command : Command) (s : State) : State :=
  { s with
    sent := s.sent ++ [command]
    received := s.received ++ [(command, c.reply (s.sent ++ [command]))] }

theorem sendEncrypt_spec {P : State → Prop} {E : Raised → State → Prop} : Triple P (sendEncrypt c command)
    (fun reply s => ∃ s₀, P s₀ ∧ s = exchanged c command s₀ ∧ reply = c.reply (s₀.sent ++ [command])) E :=
  fun s hs => ⟨s, hs, rfl, rfl⟩

/-- A request returns the reply, or raises what stands under `"error"` in it. -/
theorem request_spec {P : State → Prop} : Triple P (request c command)
    (fun reply s => ∃ s₀, P s₀ ∧ s = exchanged c command s₀ ∧ reply = c.reply (s₀.sent ++ [command]) ∧
      reply.get? "error" = none)
    (fun e s => ∃ s₀ error, P s₀ ∧ s = exchanged c command s₀ ∧ e = .dbbError error ∧
      Reply.get? (c.reply (s₀.sent ++ [command])) "error" = some error) := by
  apply Triple.bind sendEncrypt_spec
  intro reply
  cases herror : reply.get? "error" with
  | none =>
    apply Triple.pure
    rintro s ⟨s₀, hs₀, hs, hreply⟩
    exact ⟨s₀, hs₀, hs, hreply, herror⟩
  | some error =>
    apply Triple.throw
    rintro s ⟨s₀, hs₀, hs, rfl⟩
    exact ⟨s₀, error, hs₀, hs, rfl, herror⟩

theorem run_spec {P : State → Prop} {r : Except Exc α} : Triple P (run r) (fun a s => P s ∧ r = .ok a)
    (fun e s => P s ∧ ∃ e', r = .error e' ∧ e = .exc e') := by
  cases r with
  | ok a => exact fun s hs => ⟨hs, rfl⟩
  | error e => exact fun s hs => ⟨hs, e, rfl, rfl⟩

theorem digitalbitboxException_after (f : Method α) (s : State) :
    (digitalbitboxException f).after s = f.after s := by
  unfold Procedure.after
  simp only [EStateM.run, digitalbitboxException]
  cases f s with
  | ok a s' => rfl
  | error e s' =>
    cases e with
    | dbbError error =>
      dsimp only
      cases translate error with
      | ok u => rfl
      | error e => rfl
    | exc e => rfl
    | deviceFailureError msg => rfl
    | deviceAlreadyInitError msg => rfl
    | attributeError => rfl

/-! ### Invariants -/

variable {P : State → Prop}

theorem keeps_run (r : Except Exc α) : Keeps P (run r) := by
  cases r with
  | ok a => exact keeps_pure a
  | error e => exact keeps_throw _

/-- The decorator changes no state. -/
theorem keeps_digitalbitboxException {f : Method α} (h : Keeps P f) :
    Keeps P (digitalbitboxException f) := by
  intro s hs
  have hafter := digitalbitboxException_after f s
  have hf : P (f.after s) := Triple.after h hs
  rw [← hafter] at hf
  unfold Procedure.after at hf
  cases hx : (digitalbitboxException f).run s with
  | ok a s' =>
    rw [hx] at hf
    exact hf
  | error e s' =>
    rw [hx] at hf
    exact hf

theorem keeps_request (h : ∀ s, P s → P (exchanged c command s)) : Keeps P (request c command) := by
  refine Triple.mono request_spec (fun _ hs => hs) ?_ ?_
  · rintro reply s ⟨s₀, hs₀, rfl, -⟩
    exact h s₀ hs₀
  · rintro e s ⟨s₀, error, hs₀, rfl, -⟩
    exact h s₀ hs₀

end Dbb

end Hwi
