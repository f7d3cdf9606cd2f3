import Mathlib.Algebra.Order.Ring.Int
import Mathlib.Algebra.Order.Ring.Nat
import Mathlib.Tactic.Ring
import Mathlib.Tactic.NormNum
import Mathlib.Tactic.Positivity
import Mathlib.Tactic.Zify

/-! Little-endian integers of a fixed number of bytes, unsigned and in two's
complement. -/

namespace Hwi

/-- The `k` low bytes of `n`, least significant first. -/
def toLE : ℕ → ℕ → List UInt8
  | 0, _ => []
  | k + 1, n => UInt8.ofNat (n % 256) :: toLE k (n / 256)

/-- The number a byte string spells, least significant byte first. -/
def ofLE : List UInt8 → ℕ
  | [] => 0
  | b :: t => b.toNat + 256 * ofLE t

@[simp] theorem toLE_length (k n : ℕ) : (toLE k n).length = k := by
  induction k generalizing n with
  | zero => rfl
  | succ k ih => simp [toLE, ih]

theorem ofLE_lt (bs : List UInt8) : ofLE bs < 256 ^ bs.length := by
  induction bs with
  | nil => simp [ofLE]
  | cons b t ih =>
    have hb : b.toNat < 256 := b.toNat_lt
    simp only [ofLE, List.length_cons, pow_succ]
    omega

theorem ofLE_toLE_mod (k n : ℕ) : ofLE (toLE k n) = n % 256 ^ k := by
  induction k generalizing n with
  | zero => simp [toLE, ofLE, Nat.mod_one]
  | succ k ih =>
    rw [toLE, ofLE, ih, UInt8.toNat_ofNat_of_lt' (Nat.mod_lt _ (by decide)), pow_succ',
      Nat.mod_mul]

theorem ofLE_toLE {k n : ℕ} (h : n < 256 ^ k) : ofLE (toLE k n) = n := by
  rw [ofLE_toLE_mod, Nat.mod_eq_of_lt h]

theorem toLE_ofLE (bs : List UInt8) : toLE bs.length (ofLE bs) = bs := by
  induction bs with
  | nil => rfl
  | cons b t ih =>
    have hb : b.toNat < 256 := b.toNat_lt
    have hmod : (b.toNat + 256 * ofLE t) % 256 = b.toNat := by omega
    have hdiv : (b.toNat + 256 * ofLE t) / 256 = ofLE t := by omega
    rw [List.length_cons, toLE, ofLE, hmod, hdiv, ih, UInt8.ofNat_toNat]

theorem toLE_ofLE_of_length {k : ℕ} {bs : List UInt8} (h : bs.length = k) :
    toLE k (ofLE bs) = bs := h ▸ toLE_ofLE bs

theorem toLE_mod (k n : ℕ) : toLE k (n % 256 ^ k) = toLE k n := by
  rw [← ofLE_toLE_mod]
  exact toLE_ofLE_of_length (toLE_length k n)

theorem toLE_add (j k n : ℕ) : toLE (j + k) n = toLE j n ++ toLE k (n / 256 ^ j) := by
  induction j generalizing n with
  | zero => simp [toLE]
  | succ j ih =>
    rw [Nat.succ_add, toLE, toLE, ih, List.cons_append, Nat.div_div_eq_div_mul, ← pow_succ']

theorem ofLE_append (as bs : List UInt8) :
    ofLE (as ++ bs) = ofLE as + 256 ^ as.length * ofLE bs := by
  induction as with
  | nil => simp [ofLE]
  | cons a t ih =>
    rw [List.cons_append, ofLE, ofLE, ih, List.length_cons, pow_succ]
    ring

/-- The two's complement value of a byte string. -/
def ofSignedLE (bs : List UInt8) : ℤ :=
  if 2 * ofLE bs < 256 ^ bs.length then ofLE bs else (ofLE bs : ℤ) - 256 ^ bs.length

/-- The `k` bytes of an integer in two's complement. -/
def toSignedLE (k : ℕ) (i : ℤ) : List UInt8 := toLE k (i % 256 ^ k).toNat

/-- The integers `k` bytes can hold in two's complement. -/
def SignedFits (k : ℕ) (i : ℤ) : Prop := -(256 ^ k : ℤ) ≤ 2 * i ∧ 2 * i < 256 ^ k

instance (k : ℕ) (i : ℤ) : Decidable (SignedFits k i) := inferInstanceAs (Decidable (_ ∧ _))

@[simp] theorem toSignedLE_length (k : ℕ) (i : ℤ) : (toSignedLE k i).length = k := toLE_length _ _

theorem signedFits_ofSignedLE {k : ℕ} {bs : List UInt8} (h : bs.length = k) :
    SignedFits k (ofSignedLE bs) := by
  subst h
  have hlt : (ofLE bs : ℤ) < 256 ^ bs.length := by exact_mod_cast ofLE_lt bs
  unfold SignedFits ofSignedLE
  split_ifs with hs
  · have : (2 * ofLE bs : ℤ) < 256 ^ bs.length := by exact_mod_cast hs
    constructor <;> omega
  · have : (256 ^ bs.length : ℤ) ≤ 2 * ofLE bs := by exact_mod_cast not_lt.1 hs
    constructor <;> omega

theorem ofSignedLE_toSignedLE {k : ℕ} {i : ℤ} (h : SignedFits k i) :
    ofSignedLE (toSignedLE k i) = i := by
  obtain ⟨hlo, hhi⟩ := h
  have hpos : (0 : ℤ) < 256 ^ k := by positivity
  have hmod : (0 : ℤ) ≤ i % 256 ^ k := Int.emod_nonneg _ hpos.ne'
  have hof : (ofLE (toSignedLE k i) : ℤ) = i % 256 ^ k := by
    rw [toSignedLE, ofLE_toLE, Int.toNat_of_nonneg hmod]
    zify
    rw [Int.toNat_of_nonneg hmod]
    exact Int.emod_lt_of_pos _ hpos
  unfold ofSignedLE
  rw [toSignedLE_length]
  by_cases hi : 0 ≤ i
  · have he : i % 256 ^ k = i := Int.emod_eq_of_lt hi (by omega)
    rw [he] at hof
    rw [if_pos (by zify; omega), hof]
  · have he : i % 256 ^ k = i + 256 ^ k := by
      rw [← Int.add_emod_right]
      exact Int.emod_eq_of_lt (by omega) (by omega)
    rw [he] at hof
    rw [if_neg (by zify; omega), hof]
    omega

theorem toSignedLE_ofSignedLE {k : ℕ} {bs : List UInt8} (h : bs.length = k) :
    toSignedLE k (ofSignedLE bs) = bs := by
  subst h
  have hlt : (ofLE bs : ℤ) < 256 ^ bs.length := by exact_mod_cast ofLE_lt bs
  have hmod : (ofSignedLE bs % 256 ^ bs.length).toNat = ofLE bs := by
    unfold ofSignedLE
    split_ifs
    · rw [Int.emod_eq_of_lt (by omega) hlt, Int.toNat_natCast]
    · rw [Int.sub_emod_right, Int.emod_eq_of_lt (by omega) hlt, Int.toNat_natCast]
  rw [toSignedLE, hmod, toLE_ofLE]

end Hwi
