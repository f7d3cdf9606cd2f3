import Mathlib.Data.List.Basic
import Mathlib.Tactic.Common

/-! Lists related position by position. -/

namespace Hwi

variable {α β : Type}

/-- Lists of one length whose elements at each position are related. -/
def Indexed (r : ℕ → α → β → Prop) (l : List α) (l' : List β) : Prop :=
  ∀ i, Option.Rel (r i) l[i]? l'[i]?

variable {r r' : ℕ → α → β → Prop} {l : List α} {l' : List β}

namespace Indexed

theorem left (h : Indexed r l l') {i : ℕ} {a : α} (ha : l[i]? = some a) :
    ∃ b, l'[i]? = some b ∧ r i a b := by
  have hi := h i
  rw [ha] at hi
  cases hb : l'[i]? with
  | none => rw [hb] at hi; cases hi
  | some b =>
    rw [hb] at hi
    cases hi with
    | some hab => exact ⟨b, rfl, hab⟩

theorem right (h : Indexed r l l') {i : ℕ} {b : β} (hb : l'[i]? = some b) :
    ∃ a, l[i]? = some a ∧ r i a b := by
  have hi := h i
  rw [hb] at hi
  cases ha : l[i]? with
  | none => rw [ha] at hi; cases hi
  | some a =>
    rw [ha] at hi
    cases hi with
    | some hab => exact ⟨a, rfl, hab⟩

theorem eq_none_iff (h : Indexed r l l') (i : ℕ) : l[i]? = none ↔ l'[i]? = none := by
  have hi := h i
  cases ha : l[i]? with
  | none =>
    rw [ha] at hi
    generalize l'[i]? = o' at hi ⊢
    cases hi
    exact ⟨fun _ => rfl, fun _ => rfl⟩
  | some a =>
    obtain ⟨b, hb, -⟩ := h.left ha
    rw [hb]
    exact ⟨nofun, nofun⟩

theorem length_eq (h : Indexed r l l') : l.length = l'.length := by
  apply Nat.le_antisymm
  · exact List.getElem?_eq_none_iff.1 ((h.eq_none_iff _).2 (List.getElem?_eq_none (Nat.le_refl _)))
  · exact List.getElem?_eq_none_iff.1 ((h.eq_none_iff _).1 (List.getElem?_eq_none (Nat.le_refl _)))

/-- A change of the elements on the right, each at its position. -/
theorem change (h : Indexed r l l') {m : List β} {f : ℕ → β → β}
    (hm : ∀ i, m[i]? = l'[i]?.map (f i))
    (hr : ∀ i a b, l[i]? = some a → r i a b → r' i a (f i b)) : Indexed r' l m := by
  intro i
  rw [hm]
  have hi := h i
  cases ha : l[i]? with
  | none =>
    rw [ha] at hi
    generalize l'[i]? = o' at hi ⊢
    cases hi
    exact .none
  | some a =>
    obtain ⟨b, hb, hab⟩ := h.left ha
    rw [hb]
    exact .some (hr i a b ha hab)

theorem mono (h : Indexed r l l') (hr : ∀ i a b, r i a b → r' i a b) : Indexed r' l l' :=
  h.change (f := fun _ b => b) (fun i => by simp) fun i a b _ => hr i a b

theorem map (h : Indexed r l l') {f : β → β} (hr : ∀ i a b, r i a b → r' i a (f b)) :
    Indexed r' l (l'.map f) :=
  h.change (f := fun _ => f) (fun i => by simp) fun i a b _ => hr i a b

theorem modify (h : Indexed r l l') {k : ℕ} {f : β → β}
    (hk : ∀ a b, l[k]? = some a → r k a b → r' k a (f b))
    (hr : ∀ i a b, i ≠ k → r i a b → r' i a b) : Indexed r' l (l'.modify k f) := by
  refine h.change (f := fun i b => if k = i then f b else b) (fun i => ?_) fun i a b ha hab => ?_
  · rw [List.getElem?_modify]
    rfl
  · split_ifs with hi
    · subst hi
      exact hk a b ha hab
    · exact hr i a b (Ne.symm hi) hab

theorem refl {r : ℕ → α → α → Prop} (h : ∀ i a, l[i]? = some a → r i a a) : Indexed r l l := by
  intro i
  cases ha : l[i]? with
  | none => exact .none
  | some a => exact .some (h i a ha)

theorem comp {γ : Type} {l'' : List γ} {q : ℕ → β → γ → Prop} (h : Indexed r l l')
    (h' : Indexed q l' l'') : Indexed (fun i a c => ∃ b, r i a b ∧ q i b c) l l'' := by
  intro i
  have hi := h' i
  cases ha : l[i]? with
  | none =>
    have hb := h i
    rw [ha] at hb
    generalize l'[i]? = o at hb hi
    cases hb
    generalize l''[i]? = o' at hi ⊢
    cases hi
    exact .none
  | some a =>
    obtain ⟨b, hb, hab⟩ := h.left ha
    obtain ⟨c, hc, hbc⟩ := h'.left hb
    rw [hc]
    exact .some ⟨b, hab, hbc⟩

/-- Lists related to the pairs of elements and positions. -/
theorem of_forall₂_zipIdx {r : α × ℕ → β → Prop} {k : ℕ} (h : List.Forall₂ r (l.zipIdx k) l') :
    Indexed (fun i a b => r (a, k + i) b) l l' := by
  induction l generalizing k l' with
  | nil =>
    cases h
    exact fun i => .none
  | cons a l ih =>
    cases h with
    | cons hab hrest =>
      intro i
      cases i with
      | zero => exact .some hab
      | succ i =>
        have hi := ih hrest i
        simp only [Nat.add_assoc k 1 i, Nat.add_comm 1 i] at hi
        exact hi

end Indexed

end Hwi
