import Hwi.Proofs.DbbCall
import Hwi.Proofs.PathText

/-! What the Digital Bitbox is asked to sign for a message: the length in front of a
text counts characters, and the bytes after it are those of its encoding. -/

namespace Hwi

open LedgerBitcoin (utf8)
open Procedure

/-! ### Lengths of texts -/

/-- Every character is a byte of its own. -/
def Ascii (s : Str) : Prop := ∀ c ∈ s, c.toNat < 128

theorem utf8_eq_flatMap (s : Str) : utf8 s = s.flatMap String.utf8EncodeChar := by
  rw [utf8, String.toUTF8_eq_toByteArray, String.toByteArray_ofList, List.utf8Encode]
  exact congrArg Array.toList List.data_toByteArray

theorem utf8_cons (a : Char) (s : Str) : utf8 (a :: s) = String.utf8EncodeChar a ++ utf8 s := by
  rw [utf8_eq_flatMap, utf8_eq_flatMap, List.flatMap_cons]

theorem utf8Size_eq_one_iff {a : Char} : a.utf8Size = 1 ↔ a.toNat < 128 := by
  rw [Char.utf8Size_eq_one_iff, UInt32.le_iff_toNat_le]
  exact Nat.lt_succ_iff.symm

theorem length_le_utf8 (s : Str) : s.length ≤ (utf8 s).length := by
  induction s with
  | nil => exact Nat.zero_le _
  | cons a s ih =>
    rw [utf8_cons, List.length_append, String.length_utf8EncodeChar, List.length_cons]
    have ha := a.utf8Size_pos
    omega

theorem length_utf8_eq_iff {s : Str} : s.length = (utf8 s).length ↔ Ascii s := by
  induction s with
  | nil => exact iff_of_true rfl fun _ h => absurd h List.not_mem_nil
  | cons a s ih =>
    rw [utf8_cons, List.length_append, String.length_utf8EncodeChar, List.length_cons, Ascii,
      List.forall_mem_cons, ← utf8Size_eq_one_iff]
    have ha := a.utf8Size_pos
    have hs := length_le_utf8 s
    constructor
    · intro h
      exact ⟨by omega, ih.1 (by omega)⟩
    · rintro ⟨ha, h⟩
      have hlen := ih.2 h
      omega

theorem serCompactSize_injective {m n : ℕ} (hm : m < 2 ^ 64) (hn : n < 2 ^ 64)
    (h : serCompactSize m = serCompactSize n) : m = n := by
  have hread := (exactly_deserCompactSize hm).run
  rw [h, (exactly_deserCompactSize hn).run] at hread
  injection hread with hmn
  exact hmn.symm

namespace Dbb

variable {R : Runtime} {c : Client}

/-! ### The request -/

theorem signMessageCommand_injective {h h' : Bytes} {keypath : Str}
    (heq : signMessageCommand h keypath = signMessageCommand h' keypath) : h = h' := by
  injection heq with heq
  have hhex := List.append_cancel_left
    (List.append_cancel_right (List.append_cancel_right (List.append_cancel_right heq)))
  have hread := unhexlify_hexlify h
  rw [hhex, unhexlify_hexlify h'] at hread
  injection hread with hread
  exact hread.symm

/-- The messages of a call of `sign_message`, from its beginning. -/
def signMessageSent (R : Runtime) (c : Client) (message : Message) (keypath : Str) (psbt : PSBT) :
    List Command :=
  ((signMessage R c message keypath).after { psbt }).sent

/-- The messages of a call are one request, made again when it is not refused. -/
def requests (c : Client) (command : Command) : List Command :=
  match Reply.get? (c.reply [command]) "error" with
  | none => [command, command]
  | some _ => [command]

theorem request_sent (command : Command) (sent : List Command) :
    Triple (fun s => s.sent = sent) (request c command)
      (fun _ s => s.sent = sent ++ [command] ∧ Reply.get? (c.reply (sent ++ [command])) "error" = none)
      (fun _ s => s.sent = sent ++ [command] ∧
        ∃ error, Reply.get? (c.reply (sent ++ [command])) "error" = some error) := by
  refine Triple.mono request_spec (fun _ hs => hs) ?_ ?_
  · rintro _ s ⟨s₀, rfl, rfl, rfl, hreply⟩
    exact ⟨rfl, hreply⟩
  · rintro _ s ⟨s₀, error, rfl, rfl, -, hreply⟩
    exact ⟨rfl, error, hreply⟩

theorem signMessageSent_eq (message : Message) (keypath : Str) (psbt : PSBT) :
    signMessageSent R c message keypath psbt =
      requests c (signMessageCommand (R.hash256 (toHash message)) keypath) := by
  rw [signMessageSent, signMessage, digitalbitboxException_after]
  generalize hcommand : signMessageCommand (R.hash256 (toHash message)) keypath = command
  have hbody : Triple (fun s => s.sent = []) (signMessageBody R c message keypath)
      (fun _ s => s.sent = requests c command) (fun _ s => s.sent = requests c command) := by
    rw [signMessageBody, hcommand]
    refine Triple.bind (Triple.mono (request_sent command []) (fun _ hs => hs) (fun _ _ h => h) ?_)
      fun _ => Triple.assume ?_
    · rintro _ s ⟨hs, error, hreply⟩
      rw [hs, requests, show Reply.get? (c.reply [command]) "error" = some error from hreply]
      rfl
    · intro hreply
      have htwice : requests c command = [command] ++ [command] := by
        rw [requests, show Reply.get? (c.reply [command]) "error" = none from hreply]
        rfl
      rw [htwice]
      refine Triple.bind (Triple.mono (request_sent command [command]) (fun _ hs => hs)
        (fun _ _ h => h.1) fun _ _ h => h.1) fun reply => keeps_run _
  exact hbody.after rfl

/-- Two different byte strings with one hash. -/
def Collide (R : Runtime) (a b : Bytes) : Prop := a ≠ b ∧ R.hash256 a = R.hash256 b

theorem head?_requests (command : Command) : (requests c command).head? = some command := by
  unfold requests
  cases Reply.get? (c.reply [command]) "error" with
  | none => rfl
  | some error => rfl

theorem requests_ne_nil (command : Command) : requests c command ≠ [] := by
  intro h
  have hhead := head?_requests (c := c) command
  rw [h] at hhead
  cases hhead

theorem eq_of_mem_requests {command command' : Command} (h : command' ∈ requests c command) :
    command' = command := by
  unfold requests at h
  cases hreply : Reply.get? (c.reply [command]) "error" with
  | none =>
    rw [hreply] at h
    exact List.eq_of_mem_replicate (n := 2) h
  | some error =>
    rw [hreply] at h
    exact List.mem_singleton.1 h

theorem requests_injective {command command' : Command} (h : requests c command = requests c command') :
    command = command' := by
  have hhead := congrArg List.head? h
  rw [head?_requests, head?_requests] at hhead
  exact Option.some.inj hhead

/-- The standard preimage of a text's encoding is what is hashed exactly for ASCII. -/
theorem toHash_text_iff {m : Str} (hm : (utf8 m).length ≤ maxBytes) :
    toHash (.text m) = toHash (.bytes (utf8 m)) ↔ Ascii m := by
  have hle := length_le_utf8 m
  have hmax : maxBytes < 2 ^ 64 := by decide
  rw [← length_utf8_eq_iff]
  constructor
  · intro h
    refine serCompactSize_injective (by omega) (by omega) ?_
    exact List.append_cancel_left (List.append_cancel_right h)
  · intro h
    simp only [toHash, Message.len, Message.encode, h]

/-- The hash sent for bytes is that of the standard preimage. A text is sent as its
encoding exactly if it is ASCII, but for a collision of the two preimages. -/
theorem signMessage_standard_iff (R : Runtime) (c : Client) (keypath : Str) (psbt : PSBT) :
    (∀ b, signMessageSent R c (.bytes b) keypath psbt ≠ [] ∧
      ∀ command ∈ signMessageSent R c (.bytes b) keypath psbt, command =
        signMessageCommand (R.hash256 (messageMagic ++ serCompactSize b.length ++ b)) keypath) ∧
    ∀ m, (utf8 m).length ≤ maxBytes →
      (signMessageSent R c (.text m) keypath psbt = signMessageSent R c (.bytes (utf8 m)) keypath psbt ↔
        Ascii m ∨ Collide R (toHash (.text m)) (toHash (.bytes (utf8 m)))) := by
  constructor
  · intro b
    rw [signMessageSent_eq]
    exact ⟨requests_ne_nil _, fun command h => eq_of_mem_requests h⟩
  · intro m hm
    rw [signMessageSent_eq, signMessageSent_eq, ← toHash_text_iff hm]
    constructor
    · intro h
      have hhash := signMessageCommand_injective (requests_injective h)
      by_cases heq : toHash (.text m) = toHash (.bytes (utf8 m))
      · exact Or.inl heq
      · exact Or.inr ⟨heq, hhash⟩
    · rintro (heq | ⟨-, hhash⟩)
      · rw [heq]
      · rw [hhash]

/-- A runtime whose digests are the beginnings of what is hashed. -/
def prefixes : Runtime := { Runtime.zeros with
  sha256 := fun b => (b ++ List.replicate 32 0).take 32
  sha256_length := fun b => by simp }

/-- A device on which everything is aborted. -/
def abortingClient : Client := sampleClient (errorReply (.int 600) "Aborted by user.")

theorem signMessage_standard_sample : (utf8 ['é']).length ≤ maxBytes ∧
    (signMessageSent prefixes abortingClient (.text ['é']) [] {} =
      signMessageSent prefixes abortingClient (.bytes (utf8 ['é'])) [] {} ↔
      Ascii ['é'] ∨ Collide prefixes (toHash (.text ['é'])) (toHash (.bytes (utf8 ['é'])))) :=
  ⟨by decide, (signMessage_standard_iff prefixes abortingClient [] {}).2 ['é'] (by decide)⟩

/-- One character of two bytes: its preimages and its requests differ. -/
theorem signMessage_text : toHash (.text ['é']) ≠ toHash (.bytes (utf8 ['é'])) ∧
    ¬∀ R c keypath psbt m, signMessageSent R c (.text m) keypath psbt =
      signMessageSent R c (.bytes (utf8 m)) keypath psbt := by
  refine ⟨by decide, fun h => ?_⟩
  have heq := h prefixes abortingClient [] {} ['é']
  rw [signMessageSent_eq, signMessageSent_eq] at heq
  exact absurd (signMessageCommand_injective (requests_injective heq)) (by decide)

end Dbb

end Hwi
