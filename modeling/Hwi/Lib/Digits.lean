import Mathlib.Data.Nat.Digits.Lemmas
import Mathlib.Tactic.Common
import Mathlib.Tactic.Ring

/-! Numbers by their digits in a base, the most significant digit first. -/

namespace Hwi

/-- The number with the digits of a list, the most significant first. -/
def ofBE (base : ℕ) (l : List ℕ) : ℕ := Nat.ofDigits base l.reverse

variable {base : ℕ}

@[simp] theorem ofBE_nil : ofBE base [] = 0 := rfl

@[simp] theorem ofBE_singleton (d : ℕ) : ofBE base [d] = d := by simp [ofBE]

theorem ofBE_append (l l' : List ℕ) :
    ofBE base (l ++ l') = ofBE base l * base ^ l'.length + ofBE base l' := by
  unfold ofBE
  rw [List.reverse_append, Nat.ofDigits_append, List.length_reverse]
  ring

theorem ofBE_cons (d : ℕ) (l : List ℕ) :
    ofBE base (d :: l) = d * base ^ l.length + ofBE base l := by
  rw [← List.singleton_append, ofBE_append, ofBE_singleton]

theorem ofBE_concat (l : List ℕ) (d : ℕ) : ofBE base (l ++ [d]) = ofBE base l * base + d := by
  rw [ofBE_append, ofBE_singleton, List.length_singleton, pow_one]

@[simp] theorem ofBE_replicate_zero_append (n : ℕ) (l : List ℕ) :
    ofBE base (List.replicate n 0 ++ l) = ofBE base l := by
  induction n with
  | zero => rfl
  | succ n ih => rw [List.replicate_succ, List.cons_append, ofBE_cons, ih, Nat.zero_mul, Nat.zero_add]

/-- Digits of one length are those of the number. -/
theorem ofBE_inj (hbase : 1 < base) {l l' : List ℕ} (hlen : l.length = l'.length)
    (h : ∀ d ∈ l, d < base) (h' : ∀ d ∈ l', d < base) (heq : ofBE base l = ofBE base l') : l = l' := by
  refine List.reverse_injective (Nat.ofDigits_inj_of_len_eq hbase ?_ ?_ ?_ heq)
  · rw [List.length_reverse, List.length_reverse, hlen]
  · exact fun d hd => h d (List.mem_reverse.1 hd)
  · exact fun d hd => h' d (List.mem_reverse.1 hd)

/-- Numbers with the same digits at every place are equal. -/
theorem eq_of_digits_eq {k m n : ℕ} (hm : m < base ^ k) (hn : n < base ^ k)
    (h : ∀ j < k, m / base ^ j % base = n / base ^ j % base) : m = n := by
  induction k generalizing m n with
  | zero => rw [Nat.lt_one_iff.1 hm, Nat.lt_one_iff.1 hn]
  | succ k ih =>
    have hlow := h 0 k.succ_pos
    rw [pow_zero, Nat.div_one, Nat.div_one] at hlow
    have hhigh : m / base = n / base := by
      refine ih (Nat.div_lt_of_lt_mul (pow_succ' base k ▸ hm))
        (Nat.div_lt_of_lt_mul (pow_succ' base k ▸ hn)) fun j hj => ?_
      rw [Nat.div_div_eq_div_mul, Nat.div_div_eq_div_mul, ← pow_succ']
      exact h (j + 1) (Nat.succ_lt_succ hj)
    rw [← Nat.div_add_mod m base, hlow, hhigh, Nat.div_add_mod]

theorem ofBE_digits (n : ℕ) : ofBE base (Nat.digits base n).reverse = n := by
  rw [ofBE, List.reverse_reverse, Nat.ofDigits_digits]

/-- Without a leading zero the digits are those of the number. -/
theorem digits_ofBE (hbase : 1 < base) {l : List ℕ} (h : ∀ d ∈ l, d < base)
    (hhead : ∀ d, l.head? = some d → d ≠ 0) : (Nat.digits base (ofBE base l)).reverse = l := by
  unfold ofBE
  rw [Nat.digits_ofDigits base hbase l.reverse (fun d hd => h d (List.mem_reverse.1 hd)),
    List.reverse_reverse]
  intro hne
  rw [List.getLast_reverse]
  exact hhead _ (List.head?_eq_some_head _)

theorem head?_reverse_digits_ne_zero {n d : ℕ} (h : (Nat.digits base n).reverse.head? = some d) :
    d ≠ 0 := by
  rw [List.head?_reverse] at h
  have hne : Nat.digits base n ≠ [] := by
    intro hnil
    rw [hnil] at h
    cases h
  rw [List.getLast?_eq_some_getLast hne] at h
  rw [← Option.some.inj h]
  exact Nat.getLast_digit_ne_zero base (Nat.digits_ne_nil_iff_ne_zero.1 hne)

/-! ### Leading elements -/

section Leading

variable {α : Type} [DecidableEq α] {a : α}

theorem exists_leading (a : α) (l : List α) :
    ∃ n rest, l = List.replicate n a ++ rest ∧ rest.head? ≠ some a := by
  induction l with
  | nil => exact ⟨0, [], rfl, by simp⟩
  | cons b l ih =>
    by_cases h : b = a
    · obtain ⟨n, rest, rfl, hhead⟩ := ih
      exact ⟨n + 1, rest, by rw [h, List.replicate_succ, List.cons_append], hhead⟩
    · exact ⟨0, b :: l, rfl, fun heq => h (Option.some.inj heq)⟩

theorem takeWhile_leading (n : ℕ) {l : List α} (h : l.head? ≠ some a) :
    (List.replicate n a ++ l).takeWhile (fun b => decide (b = a)) = List.replicate n a := by
  induction n with
  | zero =>
    cases l with
    | nil => rfl
    | cons b l =>
      rw [List.replicate_zero, List.nil_append, List.takeWhile_cons_of_neg]
      rw [decide_eq_true_iff]
      exact fun heq => h (congrArg some heq)
  | succ n ih =>
    rw [List.replicate_succ, List.cons_append, List.takeWhile_cons, if_pos (decide_eq_true rfl), ih]

end Leading

end Hwi
