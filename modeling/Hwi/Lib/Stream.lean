import Mathlib.Data.List.Infix
import Mathlib.Tactic.Common

/-! Readers over a stream of tokens. A reader that fails leaves the stream
where the failing read left it, so a caller that catches the exception goes on
from there. `Exactly` says what a reader does on a complete encoding, `Shrinks`
that it never gives tokens back, and `readLoop` is the loop that reads keyed
records up to a stop. -/

namespace Hwi

variable {ε τ α β σ κ : Type}

/-- A reader over the tokens that are left. -/
abbrev Reader (ε τ α : Type) := EStateM ε (List τ) α

namespace Reader

@[simp] theorem pure_apply (a : α) (s : List τ) : (pure a : Reader ε τ α) s = .ok a s := rfl

@[simp] theorem throw_apply (e : ε) (s : List τ) : (throw e : Reader ε τ α) s = .error e s := rfl

theorem bind_apply (r : Reader ε τ α) (k : α → Reader ε τ β) (s : List τ) :
    (r >>= k) s = match r s with
      | .ok a s' => k a s'
      | .error e s' => .error e s' := by
  change EStateM.bind r k s = _
  unfold EStateM.bind
  cases r s <;> rfl

theorem bind_eq_ok {r : Reader ε τ α} {k : α → Reader ε τ β} {s s'' : List τ} {b : β} :
    (r >>= k) s = .ok b s'' ↔ ∃ a s', r s = .ok a s' ∧ k a s' = .ok b s'' := by
  rw [bind_apply]
  cases r s with
  | ok a s' => simp
  | error e s' => simp

/-- What is left of the stream after a read, successful or not. -/
def left : EStateM.Result ε (List τ) α → List τ
  | .ok _ s => s
  | .error _ s => s

/-- Run a pure check inside a reader. -/
def ofExcept : Except ε α → Reader ε τ α
  | .ok a => pure a
  | .error e => throw e

@[simp] theorem ofExcept_ok (a : α) : (ofExcept (.ok a) : Reader ε τ α) = pure a := rfl

@[simp] theorem ofExcept_error (e : ε) : (ofExcept (.error e : Except ε α) : Reader ε τ α) = throw e := rfl

theorem ofExcept_eq_ok {x : Except ε α} {s s' : List τ} {a : α} :
    (ofExcept x : Reader ε τ α) s = .ok a s' ↔ x = .ok a ∧ s' = s := by
  cases x with
  | ok b => simp [eq_comm]
  | error e => simp

/-- A check in the middle of a reader. -/
theorem ite_throw_eq_ok {c : Prop} [Decidable c] {e : ε} {k : PUnit → Reader ε τ β} {r : Reader ε τ β}
    {s s' : List τ} {b : β} :
    (if c then ((throw e : Reader ε τ PUnit) >>= k) else r) s = .ok b s' ↔ ¬c ∧ r s = .ok b s' := by
  split_ifs with h
  · simp [bind_apply, h]
  · simp [h]

/-! ### Reading exactly one encoding -/

/-- On a stream that starts with `ts` the reader takes `ts` and returns `a`. -/
def Exactly (r : Reader ε τ α) (ts : List τ) (a : α) : Prop :=
  ∀ rest, r (ts ++ rest) = .ok a rest

theorem Exactly.run {r : Reader ε τ α} {ts : List τ} {a : α} (h : Exactly r ts a) :
    r ts = .ok a [] := by simpa using h []

theorem exactly_pure (a : α) : Exactly (pure a : Reader ε τ α) [] a := fun _ => rfl

theorem Exactly.bind {r : Reader ε τ α} {k : α → Reader ε τ β} {ts us : List τ} {a : α} {b : β}
    (h : Exactly r ts a) (hk : Exactly (k a) us b) : Exactly (r >>= k) (ts ++ us) b := by
  intro rest
  rw [List.append_assoc, bind_apply, h]
  exact hk rest

theorem Exactly.bind_pure {r : Reader ε τ α} {f : α → β} {ts : List τ} {a : α}
    (h : Exactly r ts a) : Exactly (r >>= fun a => pure (f a)) ts (f a) := by
  simpa using h.bind (k := fun a => pure (f a)) (exactly_pure (f a))

theorem Exactly.bind_nil {r : Reader ε τ α} {k : α → Reader ε τ β} {ts : List τ} {a : α} {b : β}
    (h : Exactly r ts a) (hk : Exactly (k a) [] b) : Exactly (r >>= k) ts b := by
  simpa using h.bind hk

theorem exactly_ofExcept {x : Except ε α} {a : α} (h : x = .ok a) :
    Exactly (ofExcept x : Reader ε τ α) [] a := by
  subst h
  exact exactly_pure a

theorem Exactly.ofExcept_bind {x : Except ε α} {k : α → Reader ε τ β} {ts : List τ} {a : α} {b : β}
    (hx : x = .ok a) (h : Exactly (k a) ts b) : Exactly (ofExcept x >>= k) ts b := by
  subst hx
  exact h

/-- Read `n` items one after the other. -/
def readN (r : Reader ε τ α) : ℕ → Reader ε τ (List α)
  | 0 => pure []
  | n + 1 => do
    let a ← r
    let as ← readN r n
    pure (a :: as)

/-- Encodings written one after the other are read back one after the other. -/
theorem exactly_readN {r : Reader ε τ α} {g : α → List τ} {l : List α}
    (h : ∀ a ∈ l, Exactly r (g a) a) : Exactly (readN r l.length) (l.flatMap g) l := by
  induction l with
  | nil => exact exactly_pure []
  | cons a t ih =>
    rw [List.flatMap_cons]
    exact (h a (by simp)).bind (ih fun b hb => h b (by simp [hb])).bind_pure

/-! ### Readers that check what they took -/

/-- When the reader succeeds it has taken exactly one encoding of its result. -/
def Determined (r : Reader ε τ α) : Prop :=
  ∀ s a s', r s = .ok a s' → ∃ ts, s = ts ++ s' ∧ Exactly r ts a

theorem determined_pure (a : α) : Determined (pure a : Reader ε τ α) := by
  intro s b s' h
  cases h
  exact ⟨[], rfl, exactly_pure a⟩

theorem Determined.bind {r : Reader ε τ α} {k : α → Reader ε τ β} (h : Determined r)
    (hk : ∀ a, Determined (k a)) : Determined (r >>= k) := by
  intro s b s'' hr
  obtain ⟨a, s', ha, hb⟩ := Reader.bind_eq_ok.1 hr
  obtain ⟨ts, rfl, hts⟩ := h s a s' ha
  obtain ⟨us, rfl, hus⟩ := hk a s' b s'' hb
  exact ⟨ts ++ us, (List.append_assoc ..).symm, hts.bind hus⟩

/-! ### Readers only take tokens away -/

/-- The reader never gives tokens back, whether or not it fails. -/
def Shrinks (r : Reader ε τ α) : Prop := ∀ s, left (r s) <:+ s

theorem Shrinks.ok {r : Reader ε τ α} (h : Shrinks r) {s s' : List τ} {a : α}
    (hr : r s = .ok a s') : s' <:+ s := by
  have := h s
  rwa [hr] at this

theorem shrinks_pure (a : α) : Shrinks (pure a : Reader ε τ α) := fun _ => List.suffix_refl _

theorem shrinks_throw (e : ε) : Shrinks (throw e : Reader ε τ α) := fun _ => List.suffix_refl _

theorem shrinks_ofExcept (x : Except ε α) : Shrinks (ofExcept x : Reader ε τ α) := by
  cases x with
  | ok a => exact shrinks_pure a
  | error e => exact shrinks_throw e

theorem Shrinks.bind {r : Reader ε τ α} {k : α → Reader ε τ β} (h : Shrinks r)
    (hk : ∀ a, Shrinks (k a)) : Shrinks (r >>= k) := by
  intro s
  rw [bind_apply]
  cases hr : r s with
  | ok a s' => exact (hk a s').trans (h.ok hr)
  | error e s' =>
    have := h s
    rwa [hr] at this

theorem Shrinks.readN {r : Reader ε τ α} (h : Shrinks r) (n : ℕ) : Shrinks (readN r n) := by
  induction n with
  | zero => exact shrinks_pure []
  | succ n ih => exact h.bind fun a => ih.bind fun as => shrinks_pure (a :: as)

end Reader

/-! ### The loop that reads keyed records -/

section Loop

open Reader

/-- Read keys until `nextKey` stops, handing each key, with the keys read
before it, to `handle`, which reads the rest of the record. The first argument
bounds the number of records; a stream has fewer records than tokens. -/
def readLoop (nextKey : List τ → Option κ × List τ) (handle : κ → List κ → σ → Reader ε τ σ) :
    ℕ → σ → List κ → Reader ε τ σ
  | 0, st, _ => pure st
  | n + 1, st, seen => fun s =>
    match nextKey s with
    | (none, s') => .ok st s'
    | (some k, s') => (handle k seen st >>= fun st' => readLoop nextKey handle n st' (k :: seen)) s'

/-- The runs of the loop that end normally, with the keys they read. -/
inductive ReadRun (nextKey : List τ → Option κ × List τ) (handle : κ → List κ → σ → Reader ε τ σ) :
    σ → List κ → List τ → List κ → σ → List τ → Prop
  | stop {st seen s s'} : nextKey s = (none, s') → ReadRun nextKey handle st seen s [] st s'
  | step {st seen s k s₁ st₁ s₂ ks st' s'} : nextKey s = (some k, s₁) →
      handle k seen st s₁ = .ok st₁ s₂ → ReadRun nextKey handle st₁ (k :: seen) s₂ ks st' s' →
      ReadRun nextKey handle st seen s (k :: ks) st' s'

variable {nextKey : List τ → Option κ × List τ} {handle : κ → List κ → σ → Reader ε τ σ}

/-- A key takes at least one token. -/
def KeyAdvances (nextKey : List τ → Option κ × List τ) : Prop :=
  ∀ s k s', nextKey s = (some k, s') → s'.length < s.length

theorem readLoop_succ {n : ℕ} {st : σ} {seen : List κ} {s : List τ} :
    readLoop nextKey handle (n + 1) st seen s = match nextKey s with
      | (none, s') => .ok st s'
      | (some k, s') =>
        (handle k seen st >>= fun st' => readLoop nextKey handle n st' (k :: seen)) s' := rfl

/-- With a bound above the number of tokens the loop ends normally exactly when
it has a run. -/
theorem readLoop_eq_ok (hkey : KeyAdvances nextKey) (hshrink : ∀ k seen st, Shrinks (handle k seen st))
    {n : ℕ} {st : σ} {seen : List κ} {s : List τ} (hn : s.length < n) {st' : σ} {s' : List τ} :
    readLoop nextKey handle n st seen s = .ok st' s' ↔
      ∃ ks, ReadRun nextKey handle st seen s ks st' s' := by
  induction n generalizing st seen s with
  | zero => omega
  | succ n ih =>
    rw [readLoop_succ]
    rcases hk : nextKey s with ⟨_ | k, s₁⟩
    · constructor
      · intro h
        cases h
        exact ⟨[], .stop hk⟩
      · rintro ⟨ks, h | ⟨hk', _, _⟩⟩
        · simp_all
        · simp_all
    · have hlt := hkey _ _ _ hk
      simp only [Reader.bind_eq_ok]
      constructor
      · rintro ⟨st₁, s₂, hh, hloop⟩
        have hle := ((hshrink k seen st).ok hh).length_le
        obtain ⟨ks, hrun⟩ := (ih (by omega)).1 hloop
        exact ⟨k :: ks, .step hk hh hrun⟩
      · rintro ⟨ks, h | ⟨hk', hh, hrun⟩⟩
        · simp_all
        · rw [hk] at hk'
          obtain ⟨rfl, rfl⟩ : k = _ ∧ s₁ = _ := by simpa using hk'
          have hle := ((hshrink k seen st).ok hh).length_le
          exact ⟨_, _, hh, (ih (by omega)).2 ⟨_, hrun⟩⟩

end Loop

end Hwi
