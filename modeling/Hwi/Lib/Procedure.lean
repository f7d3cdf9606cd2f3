import Mathlib.Data.List.Basic
import Mathlib.Tactic.Common

/-! Procedures: computations that change a state and may raise, the state being
what it is by then. `Triple` says what holds when a procedure returns and what
holds when it raises, `Keeps` that it preserves an invariant either way. -/

namespace Hwi

abbrev Procedure (ε σ α : Type) := EStateM ε σ α

namespace Procedure

variable {ε σ α β : Type}

/-- Run a pure computation inside a procedure. -/
def ofExcept : Except ε α → Procedure ε σ α
  | .ok a => pure a
  | .error e => throw e

@[simp] theorem run_ofExcept_ok (a : α) (s : σ) :
    (ofExcept (.ok a) : Procedure ε σ α).run s = .ok a s := rfl

@[simp] theorem run_ofExcept_error (e : ε) (s : σ) :
    (ofExcept (.error e) : Procedure ε σ α).run s = .error e s := rfl

theorem run_bind_eq_ok {x : Procedure ε σ α} {k : α → Procedure ε σ β} {s s'' : σ} {b : β} :
    (x >>= k).run s = .ok b s'' ↔ ∃ a s', x.run s = .ok a s' ∧ (k a).run s' = .ok b s'' := by
  rw [EStateM.run_bind]
  cases x.run s with
  | ok a s' => simp
  | error e s' => simp

theorem run_get_bind (k : σ → Procedure ε σ β) (s : σ) :
    ((get : Procedure ε σ σ) >>= k).run s = (k s).run s := rfl

theorem run_modify_bind (f : σ → σ) (k : PUnit → Procedure ε σ β) (s : σ) :
    ((modify f : Procedure ε σ PUnit) >>= k).run s = (k ⟨⟩).run (f s) := rfl

/-- A loop that only changes the state goes through the list. -/
theorem run_forM_modify (l : List α) (f : α → σ → σ) (s : σ) :
    (forM l fun x => (modify (f x) : Procedure ε σ PUnit)).run s = .ok ⟨⟩ (l.foldl (fun s x => f x s) s) := by
  induction l generalizing s with
  | nil => rfl
  | cons x l ih =>
    rw [List.forM_cons, run_modify_bind, List.foldl_cons]
    exact ih (f x s)

theorem run_set_bind (t : σ) (k : PUnit → Procedure ε σ β) (s : σ) :
    ((set t : Procedure ε σ PUnit) >>= k).run s = (k ⟨⟩).run t := rfl

theorem run_ofExcept_ok_bind (a : α) (k : α → Procedure ε σ β) (s : σ) :
    (ofExcept (.ok a) >>= k).run s = (k a).run s := rfl

theorem run_ofExcept_bind_eq_ok {r : Except ε α} {k : α → Procedure ε σ β} {s s' : σ} {b : β} :
    (ofExcept r >>= k).run s = .ok b s' ↔ ∃ a, r = .ok a ∧ (k a).run s = .ok b s' := by
  cases r with
  | ok a =>
    refine ⟨fun h => ⟨a, rfl, h⟩, ?_⟩
    rintro ⟨a', ha, h⟩
    cases ha
    exact h
  | error e =>
    constructor
    · intro h
      cases h
    · rintro ⟨a, ha, -⟩
      cases ha

theorem run_ite_throw_bind_eq_ok {c : Prop} [Decidable c] {e : ε} {k : PUnit → Procedure ε σ β}
    {x : Procedure ε σ β} {s s' : σ} {b : β} :
    (if c then (throw e : Procedure ε σ PUnit) >>= k else x).run s = .ok b s' ↔
      ¬c ∧ x.run s = .ok b s' := by
  split_ifs with h
  · refine ⟨fun hx => ?_, fun hx => absurd h hx.1⟩
    cases hx
  · exact (and_iff_right h).symm

/-- From a state with `P` the procedure returns with `Q` or raises with `E`. -/
def Triple (P : σ → Prop) (x : Procedure ε σ α) (Q : α → σ → Prop) (E : ε → σ → Prop) : Prop :=
  ∀ s, P s → match x.run s with
    | .ok a s' => Q a s'
    | .error e s' => E e s'

variable {P : σ → Prop} {Q : α → σ → Prop} {E : ε → σ → Prop} {x : Procedure ε σ α}

theorem Triple.ok (h : Triple P x Q E) {s s' : σ} {a : α} (hs : P s) (hx : x.run s = .ok a s') :
    Q a s' := by
  have hrun := h s hs
  rw [hx] at hrun
  exact hrun

theorem Triple.error (h : Triple P x Q E) {s s' : σ} {e : ε} (hs : P s)
    (hx : x.run s = .error e s') : E e s' := by
  have hrun := h s hs
  rw [hx] at hrun
  exact hrun

theorem Triple.pure {a : α} (h : ∀ s, P s → Q a s) : Triple P (pure a : Procedure ε σ α) Q E := h

theorem Triple.throw {e : ε} (h : ∀ s, P s → E e s) :
    Triple P (throw e : Procedure ε σ α) Q E := h

theorem Triple.bind {k : α → Procedure ε σ β} {M : α → σ → Prop} {Q : β → σ → Prop}
    (hx : Triple P x M E) (hk : ∀ a, Triple (M a) (k a) Q E) : Triple P (x >>= k) Q E := by
  intro s hs
  have hrun := hx s hs
  rw [EStateM.run_bind]
  cases h : x.run s with
  | ok a s' =>
    rw [h] at hrun
    exact hk a s' hrun
  | error e s' =>
    rw [h] at hrun
    exact hrun

theorem Triple.mono {P' : σ → Prop} {Q' : α → σ → Prop} {E' : ε → σ → Prop} (h : Triple P x Q E)
    (hP : ∀ s, P' s → P s) (hQ : ∀ a s, Q a s → Q' a s) (hE : ∀ e s, E e s → E' e s) :
    Triple P' x Q' E' := by
  intro s hs
  have hrun := h s (hP s hs)
  cases hx : x.run s with
  | ok a s' =>
    rw [hx] at hrun
    exact hQ a s' hrun
  | error e s' =>
    rw [hx] at hrun
    exact hE e s' hrun

theorem Triple.and {P' : σ → Prop} {Q' : α → σ → Prop} {E' : ε → σ → Prop} (h : Triple P x Q E)
    (h' : Triple P' x Q' E') : Triple (fun s => P s ∧ P' s) x (fun a s => Q a s ∧ Q' a s)
      (fun e s => E e s ∧ E' e s) := by
  intro s hs
  have hrun := h s hs.1
  have hrun' := h' s hs.2
  cases hx : x.run s with
  | ok a s' =>
    rw [hx] at hrun hrun'
    exact ⟨hrun, hrun'⟩
  | error e s' =>
    rw [hx] at hrun hrun'
    exact ⟨hrun, hrun'⟩

/-- From a given state, what is returned or raised is what the run returns or raises. -/
theorem Triple.with_run {s₀ : σ} (h : Triple (· = s₀) x Q E) : Triple (· = s₀) x
    (fun a s => Q a s ∧ x.run s₀ = .ok a s) (fun e s => E e s ∧ x.run s₀ = .error e s) := by
  rintro s rfl
  have hrun := h s rfl
  cases hx : x.run s with
  | ok a s' =>
    rw [hx] at hrun
    exact ⟨hrun, rfl⟩
  | error e s' =>
    rw [hx] at hrun
    exact ⟨hrun, rfl⟩

/-- A part of the precondition that is not about the state. -/
theorem Triple.assume {p : Prop} (h : p → Triple P x Q E) : Triple (fun s => P s ∧ p) x Q E :=
  fun s hs => h hs.2 s hs.1

/-- A state that is read is the state the rest starts from. -/
theorem Triple.get_bind {k : σ → Procedure ε σ β} {Q : β → σ → Prop}
    (h : ∀ a, P a → Triple (· = a) (k a) Q E) : Triple P (get >>= k) Q E := fun s hs => h s hs s rfl

theorem Triple.modify_bind {f : σ → σ} {k : PUnit → Procedure ε σ β} {M : σ → Prop} {Q : β → σ → Prop}
    (hf : ∀ s, P s → M (f s)) (hk : Triple M (k ⟨⟩) Q E) : Triple P (modify f >>= k) Q E :=
  fun s hs => hk (f s) (hf s hs)

theorem Triple.ofExcept_bind {r : Except ε α} {k : α → Procedure ε σ β} {Q : β → σ → Prop}
    (hok : ∀ a, r = .ok a → Triple P (k a) Q E) (herr : ∀ e s, r = .error e → P s → E e s) :
    Triple P (Procedure.ofExcept r >>= k) Q E := by
  cases r with
  | ok a => exact hok a rfl
  | error e => exact fun s hs => herr e s rfl hs

theorem Triple.ofExcept {r : Except ε α} (hok : ∀ a s, r = .ok a → P s → Q a s)
    (herr : ∀ e s, r = .error e → P s → E e s) : Triple P (Procedure.ofExcept r) Q E := by
  cases r with
  | ok a => exact fun s hs => hok a s rfl hs
  | error e => exact fun s hs => herr e s rfl hs

theorem Triple.adaptExcept {f : ε → ε} (h : Triple P x Q fun e => E (f e)) :
    Triple P (EStateM.adaptExcept f x) Q E := by
  intro s hs
  have hrun := h s hs
  simp only [EStateM.run, EStateM.adaptExcept] at hrun ⊢
  cases hx : x s with
  | ok a s' =>
    rw [hx] at hrun
    exact hrun
  | error e s' =>
    rw [hx] at hrun
    exact hrun

/-- A loop whose precondition says which part of the list is done. -/
theorem Triple.forM {I : List α → σ → Prop} {E : ε → σ → Prop} {f : α → Procedure ε σ PUnit}
    {l : List α} (h : ∀ done a, a ∈ l → Triple (I done) (f a) (fun _ => I (done ++ [a])) E)
    (done : List α) : Triple (I done) (forM l f) (fun _ => I (done ++ l)) E := by
  induction l generalizing done with
  | nil =>
    rw [List.append_nil]
    exact Triple.pure fun s hs => hs
  | cons a l ih =>
    rw [List.forM_cons]
    refine Triple.bind (h done a List.mem_cons_self) fun _ => ?_
    have hrest := ih (fun done b hb => h done b (List.mem_cons_of_mem _ hb)) (done ++ [a])
    rwa [List.append_assoc] at hrest

/-- The state a procedure leaves, whether it returns or raises. -/
def after (x : Procedure ε σ α) (s : σ) : σ :=
  match x.run s with
  | .ok _ s' => s'
  | .error _ s' => s'

theorem Triple.after {I : σ → Prop} (h : Triple P x (fun _ => I) (fun _ => I)) {s : σ} (hs : P s) :
    I (x.after s) := by
  have hrun := h s hs
  unfold Procedure.after
  cases hx : x.run s with
  | ok a s' =>
    rw [hx] at hrun
    exact hrun
  | error e s' =>
    rw [hx] at hrun
    exact hrun

/-! ### Invariants -/

/-- The invariant holds after the procedure, also when it raises. -/
def Keeps (P : σ → Prop) (x : Procedure ε σ α) : Prop := Triple P x (fun _ => P) (fun _ => P)

theorem Keeps.bind {k : α → Procedure ε σ β} (hx : Keeps P x) (hk : ∀ a, Keeps P (k a)) :
    Keeps P (x >>= k) := Triple.bind hx hk

theorem keeps_pure (a : α) : Keeps P (pure a : Procedure ε σ α) := fun _ hs => hs

theorem keeps_throw (e : ε) : Keeps P (throw e : Procedure ε σ α) := fun _ hs => hs

theorem keeps_get : Keeps P (get : Procedure ε σ σ) := fun _ hs => hs

theorem keeps_modify {f : σ → σ} (h : ∀ s, P s → P (f s)) :
    Keeps P (modify f : Procedure ε σ PUnit) := h

theorem keeps_ofExcept (r : Except ε α) : Keeps P (ofExcept r) := by
  cases r with
  | ok a => exact keeps_pure a
  | error e => exact keeps_throw e

theorem keeps_adaptExcept {f : ε → ε} (hx : Keeps P x) : Keeps P (EStateM.adaptExcept f x) :=
  Triple.adaptExcept hx

theorem keeps_tryCatch {handler : ε → Procedure ε σ α} (hx : Keeps P x)
    (hh : ∀ e, Keeps P (handler e)) : Keeps P (tryCatch x handler) := by
  intro s hs
  have hrun := hx s hs
  change match EStateM.tryCatch x handler s with | .ok _ s' => P s' | .error _ s' => P s'
  simp only [EStateM.run, EStateM.tryCatch] at hrun ⊢
  cases h : x s with
  | ok a s' =>
    rw [h] at hrun
    exact hrun
  | error e s' =>
    rw [h] at hrun
    exact hh e s' hrun

theorem keeps_ite {c : Prop} [Decidable c] {y : Procedure ε σ α} (hx : Keeps P x)
    (hy : Keeps P y) : Keeps P (if c then x else y) := by
  split_ifs
  · exact hx
  · exact hy

/-- A loop preserves what its body preserves. -/
theorem keeps_forM {l : List α} {f : α → Procedure ε σ PUnit} (h : ∀ a ∈ l, Keeps P (f a)) :
    Keeps P (forM l f) := by
  induction l with
  | nil => exact keeps_pure _
  | cons a l ih =>
    rw [List.forM_cons]
    exact (h a List.mem_cons_self).bind fun _ => ih fun b hb => h b (List.mem_cons_of_mem _ hb)

end Procedure

end Hwi
