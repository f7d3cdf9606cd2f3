import Hwi.Lib.Stream

/-! Where readers raise: `Raises P r s` says that on the stream `s` the reader
raises an exception with `P`, `LoopFault` where the loop over keyed records does. -/

namespace Hwi

variable {ε τ α β σ κ : Type}

namespace Reader

/-- On the stream the reader raises an exception with `P`. -/
def Raises (P : ε → Prop) (r : Reader ε τ α) (s : List τ) : Prop :=
  ∃ e s', r s = .error e s' ∧ P e

variable {P : ε → Prop} {r : Reader ε τ α} {s : List τ}

theorem not_raises_pure {a : α} : ¬Raises P (pure a : Reader ε τ α) s := by
  rintro ⟨e, s', h, -⟩
  cases h

theorem raises_throw {e : ε} : Raises P (throw e : Reader ε τ α) s ↔ P e := by
  constructor
  · rintro ⟨e', s', h, he⟩
    cases h
    exact he
  · intro h
    exact ⟨e, s, rfl, h⟩

theorem raises_ofExcept {x : Except ε α} :
    Raises P (ofExcept x : Reader ε τ α) s ↔ ∃ e, x = .error e ∧ P e := by
  cases x with
  | ok a => simp [not_raises_pure]
  | error e => simp [raises_throw]

/-- A reader raises in its first part, or in its second after the first returns. -/
theorem raises_bind {k : α → Reader ε τ β} :
    Raises P (r >>= k) s ↔ Raises P r s ∨ ∃ a s', r s = .ok a s' ∧ Raises P (k a) s' := by
  unfold Raises
  rw [bind_apply]
  cases r s with
  | ok a s' => simp
  | error e s' => simp

theorem raises_ofExcept_bind {x : Except ε α} {k : α → Reader ε τ β} :
    Raises P (ofExcept x >>= k) s ↔ (∃ e, x = .error e ∧ P e) ∨ ∃ a, x = .ok a ∧ Raises P (k a) s := by
  rw [raises_bind, raises_ofExcept]
  refine or_congr_right ?_
  simp only [ofExcept_eq_ok]
  constructor
  · rintro ⟨a, s', ⟨hx, rfl⟩, hk⟩
    exact ⟨a, hx, hk⟩
  · rintro ⟨a, hx, hk⟩
    exact ⟨a, s, ⟨hx, rfl⟩, hk⟩

/-- A reader that ends with a computation that does not raise. -/
theorem raises_bind_pure {f : α → β} : Raises P (r >>= fun a => pure (f a)) s ↔ Raises P r s := by
  rw [raises_bind]
  constructor
  · rintro (h | ⟨a, s', -, h⟩)
    · exact h
    · exact absurd h not_raises_pure
  · exact Or.inl

theorem not_raises_of_ok {a : α} {s' : List τ} (h : r s = .ok a s') : ¬Raises P r s := by
  rintro ⟨e, s'', he, -⟩
  rw [h] at he
  cases he

/-- A check in the middle of a reader. -/
theorem raises_ite_throw {c : Prop} [Decidable c] {e : ε} {k : PUnit → Reader ε τ β}
    {r : Reader ε τ β} :
    Raises P (if c then ((throw e : Reader ε τ PUnit) >>= k) else r) s ↔
      (c ∧ P e) ∨ (¬c ∧ Raises P r s) := by
  split_ifs with h
  · simp only [h, true_and, not_true_eq_false, false_and, or_false, raises_bind, raises_throw]
    refine or_iff_left ?_
    rintro ⟨a, s', h, -⟩
    cases h
  · simp [h]

/-- Every exception the reader raises has `P`. -/
def OnlyRaises (P : ε → Prop) (r : Reader ε τ α) : Prop := ∀ s e s', r s = .error e s' → P e

theorem onlyRaises_pure (a : α) : OnlyRaises P (pure a : Reader ε τ α) := by
  intro s e s' h
  cases h

theorem onlyRaises_ofExcept {x : Except ε α} (h : ∀ e, x = .error e → P e) :
    OnlyRaises P (ofExcept x : Reader ε τ α) := by
  intro s e s' he
  cases x with
  | ok a => cases he
  | error e' =>
    cases he
    exact h _ rfl

theorem OnlyRaises.bind {k : α → Reader ε τ β} (h : OnlyRaises P r)
    (hk : ∀ a, OnlyRaises P (k a)) : OnlyRaises P (r >>= k) := by
  intro s e s'' he
  rw [bind_apply] at he
  cases hr : r s with
  | ok a s' =>
    rw [hr] at he
    exact hk a s' e s'' he
  | error e' s' =>
    rw [hr] at he
    cases he
    exact h s _ _ hr

theorem OnlyRaises.readN (h : OnlyRaises P r) (n : ℕ) : OnlyRaises P (readN r n) := by
  induction n with
  | zero => exact onlyRaises_pure []
  | succ n ih => exact h.bind fun a => ih.bind fun as => onlyRaises_pure (a :: as)

/-- Such a reader raises where it does not return. -/
theorem OnlyRaises.raises_iff (h : OnlyRaises P r) : Raises P r s ↔ ∀ a s', r s ≠ .ok a s' := by
  constructor
  · intro hr a s' hok
    exact not_raises_of_ok hok hr
  · intro hno
    cases hr : r s with
    | ok a s' => exact absurd hr (hno a s')
    | error e s' => exact ⟨e, s', hr, h s e _ hr⟩

end Reader

/-! ### The loop over keyed records -/

section Loop

open Reader

/-- The loop gets to a record with a fault, the records before it being read. -/
inductive LoopFault (nextKey : List τ → Option κ × List τ)
    (handle : κ → List κ → σ → Reader ε τ σ) (fault : κ → List κ → σ → List τ → Prop) :
    σ → List κ → List τ → Prop
  | here {st seen s k s₁} : nextKey s = (some k, s₁) → fault k seen st s₁ →
      LoopFault nextKey handle fault st seen s
  | later {st seen s k s₁ st₁ s₂} : nextKey s = (some k, s₁) →
      handle k seen st s₁ = .ok st₁ s₂ → LoopFault nextKey handle fault st₁ (k :: seen) s₂ →
      LoopFault nextKey handle fault st seen s

variable {nextKey : List τ → Option κ × List τ} {handle : κ → List κ → σ → Reader ε τ σ}
  {fault : κ → List κ → σ → List τ → Prop} {P : ε → Prop}

/-- With a bound above the number of tokens the loop raises exactly where it gets
to a fault. -/
theorem raises_readLoop (hkey : KeyAdvances nextKey)
    (hshrink : ∀ k seen st, Shrinks (handle k seen st))
    (hfault : ∀ k seen st s, Raises P (handle k seen st) s ↔ fault k seen st s) {n : ℕ} {st : σ}
    {seen : List κ} {s : List τ} (hn : s.length < n) :
    Raises P (readLoop nextKey handle n st seen) s ↔ LoopFault nextKey handle fault st seen s := by
  induction n generalizing st seen s with
  | zero => omega
  | succ n ih =>
    have hloop : Raises P (readLoop nextKey handle (n + 1) st seen) s ↔
        ∃ k s₁, nextKey s = (some k, s₁) ∧
          Raises P (handle k seen st >>= fun st' => readLoop nextKey handle n st' (k :: seen)) s₁ := by
      unfold Raises
      rw [readLoop_succ]
      rcases hk : nextKey s with ⟨_ | k, s₁⟩
      · simp
      · constructor
        · intro h
          exact ⟨k, s₁, rfl, h⟩
        · rintro ⟨k', s', heq, h⟩
          cases heq
          exact h
    rw [hloop]
    constructor
    · rintro ⟨k, s₁, hk, h⟩
      have hlt := hkey _ _ _ hk
      rcases raises_bind.1 h with h | ⟨st₁, s₂, hh, h⟩
      · exact .here hk ((hfault ..).1 h)
      · have hle := ((hshrink k seen st).ok hh).length_le
        exact .later hk hh ((ih (by omega)).1 h)
    · intro h
      cases h with
      | here hk h => exact ⟨_, _, hk, raises_bind.2 (Or.inl ((hfault ..).2 h))⟩
      | later hk hh h =>
        have hlt := hkey _ _ _ hk
        have hle := (Shrinks.ok (hshrink _ _ _) hh).length_le
        exact ⟨_, _, hk, raises_bind.2 (Or.inr ⟨_, _, hh, (ih (by omega)).2 h⟩)⟩

end Loop

end Hwi
