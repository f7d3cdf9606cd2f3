import Mathlib.Data.List.Induction
import Mathlib.Data.Nat.Bitwise
import Mathlib.Tactic.Common

/-! Shift registers over the field of two elements: a step takes a state and a
symbol, both numbers, and is linear in exclusive or. What enters after a state has
been told apart keeps it apart, so two messages that differ in a short burst end in
different states. -/

namespace Hwi

/-- A step that is linear in exclusive or. -/
def XorLinear (step : ℕ → ℕ → ℕ) : Prop :=
  ∀ a b x y, step (a ^^^ b) (x ^^^ y) = step a x ^^^ step b y

/-- A register of some width whose step forgets nothing. -/
structure ShiftRegister (width symbol : ℕ) (step : ℕ → ℕ → ℕ) : Prop where
  linear : XorLinear step
  bounded : ∀ a x, a < 2 ^ width → x < 2 ^ symbol → step a x < 2 ^ width
  kernel : ∀ a, a < 2 ^ width → step a 0 = 0 → a = 0
  /-- While there is room, symbols are only moved up. -/
  shift : ∀ a x, a < 2 ^ (width - symbol) → x < 2 ^ symbol → step a x = a * 2 ^ symbol + x
  fits : symbol ≤ width

variable {width symbol : ℕ} {step : ℕ → ℕ → ℕ}

/-- The part of a state that comes from where it started, and the part that comes from
the message. -/
theorem XorLinear.foldl (h : XorLinear step) (a b : ℕ) (w : List ℕ) :
    w.foldl step (a ^^^ b) = (w.map fun _ => 0).foldl step a ^^^ w.foldl step b := by
  induction w generalizing a b with
  | nil => rfl
  | cons x w ih =>
    have hstep : step (a ^^^ b) x = step a 0 ^^^ step b x := by
      rw [← h a b 0 x, Nat.zero_xor]
    rw [List.foldl_cons, List.map_cons, List.foldl_cons, List.foldl_cons, hstep, ih]

namespace ShiftRegister

theorem foldl_bounded (h : ShiftRegister width symbol step) {a : ℕ} (ha : a < 2 ^ width) {w : List ℕ}
    (hw : ∀ x ∈ w, x < 2 ^ symbol) : w.foldl step a < 2 ^ width := by
  induction w generalizing a with
  | nil => exact ha
  | cons x w ih =>
    exact ih (h.bounded a x ha (hw x List.mem_cons_self)) fun y hy => hw y (List.mem_cons_of_mem x hy)

theorem step_injective (h : ShiftRegister width symbol step) {a b x : ℕ} (ha : a < 2 ^ width)
    (hb : b < 2 ^ width) (heq : step a x = step b x) : a = b := by
  have hzero : step (a ^^^ b) 0 = 0 := by
    have hlinear := h.linear a b x x
    rwa [Nat.xor_self, heq, Nat.xor_self] at hlinear
  exact Nat.xor_eq_zero_iff.1 (h.kernel _ (Nat.xor_lt_two_pow ha hb) hzero)

/-- What follows keeps states apart. -/
theorem foldl_injective (h : ShiftRegister width symbol step) {a b : ℕ} (ha : a < 2 ^ width)
    (hb : b < 2 ^ width) {v : List ℕ} (hv : ∀ x ∈ v, x < 2 ^ symbol)
    (heq : v.foldl step a = v.foldl step b) : a = b := by
  induction v generalizing a b with
  | nil => exact heq
  | cons x v ih =>
    have hx := hv x List.mem_cons_self
    have hstep := ih (h.bounded a x ha hx) (h.bounded b x hb hx)
      (fun y hy => hv y (List.mem_cons_of_mem x hy)) heq
    exact h.step_injective ha hb hstep

/-- A message that has room is kept as it is. -/
theorem foldl_zero_lt (h : ShiftRegister width symbol step) {w : List ℕ}
    (hlen : symbol * w.length ≤ width) (hw : ∀ x ∈ w, x < 2 ^ symbol) :
    w.foldl step 0 < 2 ^ (symbol * w.length) := by
  induction w using List.reverseRecOn with
  | nil => simp
  | append_singleton w x ih =>
    rw [List.length_append, List.length_singleton, Nat.mul_succ] at hlen ⊢
    have hinit := ih (by omega) fun y hy => hw y (List.mem_append_left _ hy)
    have hx := hw x (List.mem_append_right _ List.mem_cons_self)
    have hroom : w.foldl step 0 < 2 ^ (width - symbol) :=
      hinit.trans_le (Nat.pow_le_pow_right (by omega) (by omega))
    rw [List.foldl_append, List.foldl_cons, List.foldl_nil, h.shift _ x hroom hx]
    calc w.foldl step 0 * 2 ^ symbol + x
        < (w.foldl step 0 + 1) * 2 ^ symbol := by rw [Nat.add_one_mul]; exact Nat.add_lt_add_left hx _
      _ ≤ 2 ^ (symbol * w.length) * 2 ^ symbol := Nat.mul_le_mul_right _ hinit
      _ = 2 ^ (symbol * w.length + symbol) := (Nat.pow_add 2 _ _).symm

theorem foldl_zero_injective (h : ShiftRegister width symbol step) {w w' : List ℕ}
    (hlen : symbol * w.length ≤ width) (hsame : w.length = w'.length)
    (hw : ∀ x ∈ w, x < 2 ^ symbol) (hw' : ∀ x ∈ w', x < 2 ^ symbol)
    (heq : w.foldl step 0 = w'.foldl step 0) : w = w' := by
  induction w using List.reverseRecOn generalizing w' with
  | nil => exact (List.length_eq_zero_iff.1 hsame.symm).symm
  | append_singleton w x ih =>
    obtain ⟨w', x', rfl⟩ : ∃ v y, w' = v ++ [y] := by
      rcases List.eq_nil_or_concat w' with rfl | ⟨v, y, rfl⟩
      · simp at hsame
      · exact ⟨v, y, by simp⟩
    simp only [List.length_append, List.length_singleton, Nat.mul_succ, Nat.add_right_cancel_iff] at hlen hsame
    have hinit : ∀ y ∈ w, y < 2 ^ symbol := fun y hy => hw y (List.mem_append_left _ hy)
    have hinit' : ∀ y ∈ w', y < 2 ^ symbol := fun y hy => hw' y (List.mem_append_left _ hy)
    have hx := hw x (List.mem_append_right _ List.mem_cons_self)
    have hx' := hw' x' (List.mem_append_right _ List.mem_cons_self)
    have hroom : w.foldl step 0 < 2 ^ (width - symbol) :=
      (h.foldl_zero_lt (by omega) hinit).trans_le (Nat.pow_le_pow_right (by omega) (by omega))
    have hroom' : w'.foldl step 0 < 2 ^ (width - symbol) :=
      (h.foldl_zero_lt (by rw [← hsame]; omega) hinit').trans_le
        (Nat.pow_le_pow_right (by omega) (by rw [← hsame]; omega))
    simp only [List.foldl_append, List.foldl_cons, List.foldl_nil] at heq
    rw [h.shift _ x hroom hx, h.shift _ x' hroom' hx'] at heq
    have hlast : x = x' := by
      have hmod := congrArg (· % 2 ^ symbol) heq
      simpa [Nat.mul_add_mod_self_right, Nat.mod_eq_of_lt hx, Nat.mod_eq_of_lt hx'] using hmod
    subst hlast
    have hfirst : w.foldl step 0 = w'.foldl step 0 :=
      Nat.eq_of_mul_eq_mul_right (Nat.two_pow_pos symbol) (Nat.add_right_cancel heq)
    rw [ih (by omega) hsame hinit hinit' hfirst]

/-- A burst is detected whatever stands before and after it: as many symbols as the
register holds. -/
theorem burst_detected (h : ShiftRegister width symbol step) {a : ℕ} (ha : a < 2 ^ width)
    {u w w' v : List ℕ} (hu : ∀ x ∈ u, x < 2 ^ symbol) (hw : ∀ x ∈ w, x < 2 ^ symbol)
    (hw' : ∀ x ∈ w', x < 2 ^ symbol) (hv : ∀ x ∈ v, x < 2 ^ symbol)
    (hlen : symbol * w.length ≤ width) (hsame : w.length = w'.length)
    (heq : (u ++ w ++ v).foldl step a = (u ++ w' ++ v).foldl step a) : w = w' := by
  simp only [List.foldl_append] at heq
  have hstart := h.foldl_bounded ha hu
  have hburst : w.foldl step (u.foldl step a) = w'.foldl step (u.foldl step a) :=
    h.foldl_injective (h.foldl_bounded hstart hw) (h.foldl_bounded hstart hw') hv heq
  have hzeros : (w.map fun _ => 0) = w'.map fun _ => 0 := by
    rw [List.map_const', List.map_const', hsame]
  rw [← Nat.xor_zero (u.foldl step a), h.linear.foldl, h.linear.foldl, hzeros] at hburst
  exact h.foldl_zero_injective hlen hsame hw hw' (Nat.xor_right_injective hburst)

end ShiftRegister

end Hwi
