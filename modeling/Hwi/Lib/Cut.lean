import Mathlib.Data.List.Basic
import Mathlib.Tactic.Common

/-! A list cut at the first occurrence of an element, at the last, and into slices of one
length, and lists joined by a separator. -/

namespace Hwi

variable {α : Type} [DecidableEq α]

/-- The parts before and after the first `a`. -/
def cut (a : α) : List α → Option (List α × List α)
  | [] => none
  | x :: l => if x = a then some ([], l) else (cut a l).map fun p => (x :: p.1, p.2)

/-- The parts before and after the last `a`. -/
def cutLast (a : α) (l : List α) : Option (List α × List α) :=
  (cut a l.reverse).map fun p => (p.2.reverse, p.1.reverse)

variable {a : α}

@[simp] theorem cut_append_cons {l : List α} (h : a ∉ l) (l' : List α) :
    cut a (l ++ a :: l') = some (l, l') := by
  induction l with
  | nil => simp [cut]
  | cons x l ih =>
    have hx : x ≠ a := fun hx => h (hx ▸ List.mem_cons_self)
    rw [List.cons_append, cut, if_neg hx, ih fun hl => h (List.mem_cons_of_mem x hl)]
    rfl

theorem cut_eq_none {l : List α} : cut a l = none ↔ a ∉ l := by
  induction l with
  | nil => simp [cut]
  | cons x l ih =>
    rw [cut]
    split_ifs with hx
    · simp [hx]
    · rw [Option.map_eq_none_iff, ih, List.mem_cons, not_or]
      exact ⟨fun h => ⟨Ne.symm hx, h⟩, fun h => h.2⟩

theorem cut_eq_some {l b c : List α} : cut a l = some (b, c) ↔ l = b ++ a :: c ∧ a ∉ b := by
  constructor
  · intro h
    induction l generalizing b with
    | nil => simp [cut] at h
    | cons x l ih =>
      rw [cut] at h
      split_ifs at h with hx
      · obtain ⟨rfl, rfl⟩ := Prod.mk.inj (Option.some.inj h)
        simp [hx]
      · obtain ⟨p, hp, hbc⟩ := Option.map_eq_some_iff.1 h
        obtain ⟨rfl, rfl⟩ := Prod.mk.inj hbc
        obtain ⟨hl, hmem⟩ := ih hp
        exact ⟨by rw [hl, List.cons_append], by simp [hmem, Ne.symm hx]⟩
  · rintro ⟨rfl, h⟩
    exact cut_append_cons h c

@[simp] theorem cutLast_append_cons (l : List α) {l' : List α} (h : a ∉ l') :
    cutLast a (l ++ a :: l') = some (l, l') := by
  have hrev : (l ++ a :: l').reverse = l'.reverse ++ a :: l.reverse := by simp
  rw [cutLast, hrev, cut_append_cons (by simpa using h)]
  simp

omit [DecidableEq α] in
theorem dropWhile_eq_self {q : α → Bool} {l : List α} (h : ∀ b ∈ l, q b = false) :
    l.dropWhile q = l := by
  cases l with
  | nil => rfl
  | cons b l => rw [List.dropWhile_cons_of_neg (by simp [h b List.mem_cons_self])]

omit [DecidableEq α] in
theorem mem_intercalate {sep : List α} {ls : List (List α)} (h : a ∈ List.intercalate sep ls) :
    a ∈ sep ∨ ∃ l ∈ ls, a ∈ l := by
  induction ls with
  | nil => cases h
  | cons l ls ih =>
    by_cases hls : ls = []
    · rw [hls, List.intercalate_singleton] at h
      exact Or.inr ⟨l, List.mem_cons_self, h⟩
    · rw [List.intercalate_cons_of_ne_nil hls] at h
      simp only [List.mem_append] at h
      rcases h with (h | h) | h
      · exact Or.inr ⟨l, List.mem_cons_self, h⟩
      · exact Or.inl h
      · rcases ih h with h | ⟨l', hl', h⟩
        · exact Or.inl h
        · exact Or.inr ⟨l', List.mem_cons_of_mem l hl', h⟩

/-- The slices of a list, one after the other, are the list. -/
theorem flatten_slices {β : Type} (n m : ℕ) (l : List β) (h : l.length ≤ n * m) :
    ((List.range m).map fun k => (l.drop (n * k)).take n).flatten = l := by
  induction m generalizing l with
  | zero => exact (List.eq_nil_of_length_eq_zero (Nat.le_zero.1 h)).symm
  | succ m ih =>
    have hrest := ih (l.drop n) (by rw [List.length_drop, Nat.mul_succ] at *; omega)
    rw [List.range_succ_eq_map, List.map_cons, List.map_map, List.flatten_cons, Nat.mul_zero, List.drop_zero]
    conv_rhs => rw [← List.take_append_drop n l, ← hrest]
    congr 2
    apply List.map_congr_left
    intro k _
    rw [Function.comp_apply, List.drop_drop, Nat.mul_succ, Nat.add_comm]

end Hwi
