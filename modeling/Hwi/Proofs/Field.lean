import Hwi.Lib.Primality
import Hwi.Spec.ExtendedKey
import Mathlib.Tactic.NormNum.Prime

/-! The field of the curve: its order is prime, and `pow` with a modulus is the power
in the field. -/

namespace Hwi

namespace Curve

/-! ### Powers -/

theorem powMod_range {n : ℕ} (hn : 0 < n) (bits : ℕ) (b : ℤ) (e : ℕ) :
    0 ≤ powMod n bits b e ∧ powMod n bits b e < n := by
  have hn' : (0 : ℤ) < n := by exact_mod_cast hn
  induction bits generalizing b e with
  | zero => exact ⟨Int.emod_nonneg _ hn'.ne', Int.emod_lt_of_pos _ hn'⟩
  | succ bits ih =>
    rw [powMod]
    split_ifs with hodd
    · exact ⟨Int.emod_nonneg _ hn'.ne', Int.emod_lt_of_pos _ hn'⟩
    · exact ih _ _

theorem powMod_cast (n : ℕ) {bits e : ℕ} (b : ℤ) (h : e < 2 ^ bits) :
    ((powMod n bits b e : ℤ) : ZMod n) = (b : ZMod n) ^ e := by
  induction bits generalizing b e with
  | zero =>
    obtain rfl : e = 0 := by simpa using h
    rw [powMod, ZMod.intCast_mod, Int.cast_one, pow_zero]
  | succ bits ih =>
    have hhalf : e / 2 < 2 ^ bits := by
      rw [pow_succ] at h
      omega
    have hsquare := ih (b * b % n) hhalf
    rw [ZMod.intCast_mod, Int.cast_mul, ← pow_two (b : ZMod n), ← pow_mul] at hsquare
    rw [powMod]
    split_ifs with hodd
    · rw [ZMod.intCast_mod, Int.cast_mul, hsquare, ← pow_succ']
      congr 1
      omega
    · rw [hsquare]
      congr 1
      omega

theorem pow_eq_one_iff {n : ℕ} (hn : 1 < n) {bits e : ℕ} (b : ℤ) (h : e < 2 ^ bits) :
    (b : ZMod n) ^ e = 1 ↔ powMod n bits b e = 1 := by
  have hrange := powMod_range (Nat.zero_lt_of_lt hn) bits b e
  rw [← powMod_cast n b h, ← Int.cast_one, ZMod.intCast_eq_intCast_iff', Int.emod_eq_of_lt hrange.1 hrange.2,
    Int.emod_eq_of_lt (by omega) (by exact_mod_cast hn)]

/-! ### The order of the field -/

/-- A number, a generator of its units and the prime factors of one less. -/
structure Certificate where
  n : ℕ
  base : ℤ
  factors : List ℕ

/-- What a certificate says, that its factors are prime apart. -/
def Certificate.Checks (c : Certificate) : Prop :=
  1 < c.n ∧ c.n < 2 ^ 256 ∧ c.factors.prod = c.n - 1 ∧ powMod c.n 256 c.base (c.n - 1) = 1 ∧
    ∀ q ∈ c.factors, powMod c.n 256 c.base ((c.n - 1) / q) ≠ 1

instance (c : Certificate) : Decidable c.Checks := inferInstanceAs (Decidable (_ ∧ _))

theorem Certificate.Checks.prime {c : Certificate} (h : c.Checks) (hprime : ∀ q ∈ c.factors, q.Prime) :
    c.n.Prime := by
  obtain ⟨hn, hlt, hprod, hone, hne⟩ := h
  have hexp : ∀ q, (c.n - 1) / q < 2 ^ 256 := fun q => (Nat.div_le_self _ _).trans_lt (by omega)
  refine prime_of_generator (c.base : ZMod c.n) hprime hprod
    ((pow_eq_one_iff hn c.base (by omega)).2 hone) ?_
  intro q hq hpow
  exact hne q hq ((pow_eq_one_iff hn c.base (hexp q)).1 hpow)

/-- `p`, as a natural number. -/
def order : ℕ := 2 ^ 256 - 2 ^ 32 - 977

theorem fieldOrder_eq : fieldOrder = order := by norm_num [fieldOrder, order]

theorem order_bounds : 2 ^ 255 < order ∧ order < 2 ^ 256 := by norm_num [order]

/-- The order, and the large factors on the way down to numbers that are quickly divided. -/
def certificates : List Certificate :=
  [⟨173378833005251801, 6, [2, 2, 2, 5, 5, 2621, 24809, 13331831]⟩,
    ⟨22149492674086928081353, 5, [2, 2, 2, 3, 5323, 173378833005251801]⟩,
    ⟨132896956044521568488119, 6, [2, 3, 22149492674086928081353]⟩,
    ⟨255515944373312847190720520512484175977, 3,
      [2, 2, 2, 7, 7, 11, 1627, 2657, 4423, 41201, 96557, 7240687, 107590001]⟩,
    ⟨205115282021455665897114700593932402728804164701536103180137503955397371, 10,
      [2, 3, 5, 29, 29, 31, 7723, 132896956044521568488119, 255515944373312847190720520512484175977]⟩,
    ⟨order, 3,
      [2, 3, 7, 13441, 205115282021455665897114700593932402728804164701536103180137503955397371]⟩]

theorem certificates_check : List.Forall Certificate.Checks certificates := by decide +kernel

theorem prime_order : order.Prime := by
  obtain ⟨h₁, h₂, h₃, h₄, h₅, horder⟩ := certificates_check
  have prime₁ := h₁.prime (by simp only [List.forall_mem_cons]; norm_num)
  have prime₂ := h₂.prime (by simp only [List.forall_mem_cons, prime₁]; norm_num)
  have prime₃ := h₃.prime (by simp only [List.forall_mem_cons, prime₂]; norm_num)
  have prime₄ := h₄.prime (by simp only [List.forall_mem_cons]; norm_num)
  have prime₅ := h₅.prime (by simp only [List.forall_mem_cons, prime₃, prime₄]; norm_num)
  exact horder.prime (by simp only [List.forall_mem_cons, prime₅]; norm_num)

instance : Fact order.Prime := ⟨prime_order⟩

/-- The field of the curve. -/
abbrev Field := ZMod order

/-! ### Reduced integers -/

/-- The integers that stand for the elements of the field. -/
def Reduced (x : ℤ) : Prop := 0 ≤ x ∧ x < fieldOrder

instance (x : ℤ) : Decidable (Reduced x) := inferInstanceAs (Decidable (_ ∧ _))

theorem cast_fieldOrder : ((fieldOrder : ℤ) : Field) = 0 := by
  rw [fieldOrder_eq, Int.cast_natCast]
  exact ZMod.natCast_self order

theorem reduced_mod (x : ℤ) : Reduced (x % fieldOrder) :=
  ⟨Int.emod_nonneg _ (by decide), Int.emod_lt_of_pos _ (by decide)⟩

@[simp] theorem cast_mod (x : ℤ) : ((x % fieldOrder : ℤ) : Field) = x := by
  rw [fieldOrder_eq]
  exact ZMod.intCast_mod x order

theorem cast_injective {x y : ℤ} (hx : Reduced x) (hy : Reduced y) (h : (x : Field) = y) : x = y := by
  rw [ZMod.intCast_eq_intCast_iff', ← fieldOrder_eq, Int.emod_eq_of_lt hx.1 hx.2,
    Int.emod_eq_of_lt hy.1 hy.2] at h
  exact h

theorem exists_reduced (a : Field) : ∃ x, Reduced x ∧ (x : Field) = a := by
  refine ⟨(a.val : ℤ), ⟨Int.natCast_nonneg _, ?_⟩, ?_⟩
  · rw [fieldOrder_eq]
    exact_mod_cast ZMod.val_lt a
  · rw [Int.cast_natCast]
    exact ZMod.natCast_zmod_val a

theorem reduced_powMod (b : ℤ) (e : ℕ) : Reduced (powMod fieldOrder 256 b e) := by
  unfold Reduced
  rw [fieldOrder_eq]
  exact powMod_range prime_order.pos 256 b e

theorem cast_powMod (b : ℤ) {e : ℕ} (h : e < 2 ^ 256) :
    ((powMod fieldOrder 256 b e : ℤ) : Field) = (b : Field) ^ e := by
  rw [fieldOrder_eq]
  exact powMod_cast order b h

/-- The power with the exponent `p - 2` is the inverse. -/
theorem cast_inverse (x : ℤ) : ((inverse x : ℤ) : Field) = (x : Field)⁻¹ := by
  have hexp : (fieldOrder - 2).toNat = order - 2 := by
    rw [fieldOrder_eq]
    omega
  unfold inverse
  rw [hexp, cast_powMod _ ((Nat.sub_le _ _).trans_lt order_bounds.2), cast_mod]
  by_cases hx : (x : Field) = 0
  · rw [hx, zero_pow (by norm_num [order]), inv_zero]
  · refine eq_inv_of_mul_eq_one_left ?_
    rw [← pow_succ]
    exact ZMod.pow_card_sub_one_eq_one hx

end Curve

end Hwi
