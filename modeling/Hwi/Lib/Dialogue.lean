import Hwi.Lib.Procedure

/-! Dialogues: a party that asks, goes on with each reply, and ends with a value.
`serve` is a host that replies until it has what it wants. A dialogue that the host
leaves is not heard of again. -/

namespace Hwi

/-- A party that asks `q`s and is told `a`s. -/
inductive Dialogue (q a α : Type)
  | done (x : α)
  | ask (question : q) (next : a → Dialogue q a α)

namespace Dialogue

variable {q a α β γ ε σ : Type}

def bind : Dialogue q a α → (α → Dialogue q a β) → Dialogue q a β
  | done x, k => k x
  | ask r next, k => ask r fun reply => (next reply).bind k

instance : Monad (Dialogue q a) where
  pure := done
  bind := bind

/-- Ask one thing. -/
def request (r : q) : Dialogue q a a := ask r done

@[simp] theorem ask_bind (r : q) (next : a → Dialogue q a α) (k : α → Dialogue q a β) :
    (ask r next >>= k) = ask r fun reply => next reply >>= k := rfl

theorem bind_assoc (p : Dialogue q a α) (f : α → Dialogue q a β) (g : β → Dialogue q a γ) :
    (p >>= f) >>= g = p >>= fun x => f x >>= g := by
  induction p with
  | done x => rfl
  | ask r next ih =>
    simp only [ask_bind, ih]

theorem bind_done (p : Dialogue q a α) : p >>= done = p := by
  induction p with
  | done x => rfl
  | ask r next ih =>
    simp only [ask_bind, ih]

/-- What is asked with some replies, the question after the last of them included. -/
def asked : Dialogue q a α → List a → List q
  | done _, _ => []
  | ask r _, [] => [r]
  | ask r next, reply :: replies => r :: (next reply).asked replies

/-- A host that replies to questions, `none` where it leaves, and that has something to
do when the other party ends. -/
def serve (host : q → Procedure ε σ (Option a)) (ended : α → Procedure ε σ Unit) :
    Dialogue q a α → Procedure ε σ Unit
  | done x => ended x
  | ask r next => do
    match ← host r with
    | none => return ()
    | some reply => serve host ended (next reply)

variable {host : q → Procedure ε σ (Option a)} {ended : α → Procedure ε σ Unit}

/-! ### Invariants of a host -/

/-- The invariant knows the questions and the replies so far. It holds after each reply,
`Q` is what holds when the host leaves, and `E` what holds when it raises: then the last
question has no reply, unless the other party had ended. -/
theorem triple_serve {I Q : List q → List a → σ → Prop} {E : List q → List a → ε → σ → Prop}
    (hhost : ∀ questions replies r, Procedure.Triple (I questions replies) (host r)
      (fun reply? => reply?.elim (Q (questions ++ [r]) replies)
        fun reply => I (questions ++ [r]) (replies ++ [reply])) (E (questions ++ [r]) replies))
    (hended : ∀ questions replies x, Procedure.Triple (I questions replies) (ended x)
      (fun _ => Q questions replies) (E questions replies))
    (p : Dialogue q a α) (questions : List q) (replies : List a) :
    Procedure.Triple (I questions replies) (serve host ended p)
      (fun _ s => ∃ rest, Q (questions ++ p.asked rest) (replies ++ rest) s)
      (fun e s => ∃ rest, E (questions ++ p.asked rest) (replies ++ rest) e s) := by
  induction p generalizing questions replies with
  | done x =>
    refine (hended questions replies x).mono (fun s hs => hs) (fun _ s hs => ?_)
      fun e s hs => ?_
    · refine ⟨[], ?_⟩
      rwa [asked, List.append_nil, List.append_nil]
    · refine ⟨[], ?_⟩
      rwa [asked, List.append_nil, List.append_nil]
  | ask r next ih =>
    rw [serve]
    refine Procedure.Triple.bind ((hhost questions replies r).mono (fun s hs => hs)
      (fun _ s hs => hs) fun e s hs => ⟨[], ?_⟩) fun reply? => ?_
    · rwa [asked, List.append_nil]
    · cases reply? with
      | none =>
        refine Procedure.Triple.pure fun s hs => ⟨[], ?_⟩
        rwa [asked, List.append_nil]
      | some reply =>
        refine (ih reply (questions ++ [r]) (replies ++ [reply])).mono (fun s hs => hs) ?_ ?_
        · intro _ s hs
          obtain ⟨rest, hs⟩ := hs
          refine ⟨reply :: rest, ?_⟩
          rwa [asked, List.append_cons questions, List.append_cons replies]
        · intro e s hs
          obtain ⟨rest, hs⟩ := hs
          refine ⟨reply :: rest, ?_⟩
          rwa [asked, List.append_cons questions, List.append_cons replies]

/-! ### What a party learns from a host -/

/-- From `s` the host tells the party `x` and is then in `s'`, whatever the party goes on
with. -/
def Tells (host : q → Procedure ε σ (Option a)) (p : Dialogue q a α) (s : σ) (x : α) (s' : σ) : Prop :=
  ∀ (ω : Type) (ended : ω → Procedure ε σ Unit) (k : α → Dialogue q a ω),
    (serve host ended (p >>= k)).run s = (serve host ended (k x)).run s'

theorem tells_pure (x : α) (s : σ) : Tells host (pure x) s x s := fun _ _ _ => rfl

theorem tells_request {r : q} {reply : a} {s s' : σ} (h : (host r).run s = .ok (some reply) s') :
    Tells host (request r) s reply s' := by
  intro ω ended k
  change (serve host ended (ask r k)).run s = _
  rw [serve, EStateM.run_bind, h]

theorem Tells.bind {p : Dialogue q a α} {f : α → Dialogue q a β} {s s' s'' : σ} {x : α} {y : β}
    (hp : Tells host p s x s') (hf : Tells host (f x) s' y s'') : Tells host (p >>= f) s y s'' := by
  intro ω ended k
  rw [bind_assoc, hp ω ended fun x => f x >>= k]
  exact hf ω ended k

theorem Tells.bind_pure {p : Dialogue q a α} {f : α → β} {s s' : σ} {x : α}
    (hp : Tells host p s x s') : Tells host (p >>= fun x => pure (f x)) s (f x) s' :=
  hp.bind (tells_pure (f x) s')

/-- One question after the other, for the items of a list. -/
def forEach (f : β → Dialogue q a α) : List β → Dialogue q a (List α)
  | [] => pure []
  | b :: l => do
    let x ← f b
    let xs ← forEach f l
    return x :: xs

/-- The states between are a function of the items that are done. -/
theorem tells_forEach {f : β → Dialogue q a α} {g : β → α} (after : List β → σ) {l : List β}
    (h : ∀ done b rest, l = done ++ b :: rest →
      Tells host (f b) (after done) (g b) (after (done ++ [b]))) :
    Tells host (forEach f l) (after []) (l.map g) (after l) := by
  have hrest : ∀ rest done, l = done ++ rest →
      Tells host (forEach f rest) (after done) (rest.map g) (after (done ++ rest)) := by
    intro rest
    induction rest with
    | nil =>
      intro done _
      rw [List.append_nil]
      exact tells_pure [] (after done)
    | cons b rest ih =>
      intro done hl
      have hmore := ih (done ++ [b]) (by rw [hl, ← List.append_cons])
      rw [← List.append_cons] at hmore
      exact (h done b rest hl).bind hmore.bind_pure
  exact hrest l [] rfl

end Dialogue

end Hwi
