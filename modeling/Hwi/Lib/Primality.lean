import Mathlib.Data.List.Prime
import Mathlib.FieldTheory.Finite.Basic
import Mathlib.NumberTheory.LegendreSymbol.Basic
import Mathlib.NumberTheory.LucasPrimality

/-! Prime numbers from a generator of their units and the prime factors of one less, and
square roots modulo a prime. -/

namespace Hwi

/-- A number with an element of the order that only a prime has: the factors of one
less are prime, and none of them can be left out of the exponent. -/
theorem prime_of_generator {p : ℕ} (a : ZMod p) {factors : List ℕ} (hprime : ∀ q ∈ factors, q.Prime)
    (hprod : factors.prod = p - 1) (hone : a ^ (p - 1) = 1)
    (hne : ∀ q ∈ factors, a ^ ((p - 1) / q) ≠ 1) : p.Prime := by
  refine lucas_primality p a hone fun q hq hdvd => hne q ?_
  rw [← hprod, hq.prime.dvd_prod_iff] at hdvd
  obtain ⟨r, hr, hqr⟩ := hdvd
  rwa [(Nat.prime_dvd_prime_iff_eq hq (hprime r hr)).1 hqr]

/-- An element that is no power: for an exponent that divides the order of the units,
the rest of the order does not take it to one. -/
theorem pow_ne_of_pow_ne_one {p k m : ℕ} [Fact p.Prime] (hm : k * m = p - 1) {a : ZMod p}
    (ha : a ^ m ≠ 1) (x : ZMod p) (hx : x ≠ 0) : x ^ k ≠ a := by
  intro hk
  apply ha
  rw [← hk, ← pow_mul, hm]
  exact ZMod.pow_card_sub_one_eq_one hx

/-- For a prime that leaves three modulo four, a power is the root of every square. -/
theorem sq_root_iff {p : ℕ} [Fact p.Prime] (hp : p % 4 = 3) (a : ZMod p) :
    (a ^ ((p + 1) / 4)) ^ 2 = a ↔ IsSquare a := by
  constructor
  · intro h
    exact ⟨a ^ ((p + 1) / 4), by rw [← sq, h]⟩
  · intro h
    have hexp : (p + 1) / 4 * 2 = p / 2 + 1 := by omega
    rw [← pow_mul, hexp, pow_succ]
    by_cases ha : a = 0
    · rw [ha, mul_zero]
    · rw [(ZMod.euler_criterion p ha).1 h, one_mul]

end Hwi
