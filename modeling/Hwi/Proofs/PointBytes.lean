import Hwi.Proofs.Base58
import Hwi.Proofs.Curve
import Hwi.Proofs.Serialize
import Hwi.Spec.DerivePub

/-! Points as bytes: a compressed key is read back, and a key that is read is a point
where its `x` belongs to one. -/

namespace Hwi

namespace Curve

/-! ### Integers as bytes -/

theorem ofDigits_toNat (b : Bytes) : Nat.ofDigits 256 (b.map UInt8.toNat) = ofLE b := by
  induction b with
  | nil => rfl
  | cons c b ih => rw [List.map_cons, Nat.ofDigits_cons, ih, ofLE]

theorem toInt_reverse_toLE {n : ℕ} (h : n < 2 ^ 256) : Base58.toInt (toLE 32 n).reverse = n := by
  rw [Base58.toInt, List.reverse_reverse, ofDigits_toNat, ofLE_toLE (by simpa using h)]

/-! ### Square roots -/

theorem order_mod_four : order % 4 = 3 := by decide +kernel

theorem odd_fieldOrder : fieldOrder % 2 = 1 := by decide +kernel

theorem cubic_ne_zero (x : ℤ) : cubic x ≠ 0 := cube_add_seven_ne_zero _

/-- The candidate for a root that `deserialize_point` computes. -/
def root (x : ℤ) : ℤ :=
  powMod fieldOrder 256 ((x * x * x + 7) % fieldOrder) ((fieldOrder + 1) / 4).toNat

theorem cast_root (x : ℤ) : ((root x : ℤ) : Field) = cubic x ^ ((order + 1) / 4) := by
  have hexp : ((fieldOrder + 1) / 4).toNat = (order + 1) / 4 := by decide +kernel
  have hlt : (order + 1) / 4 < 2 ^ 256 := by decide +kernel
  have hcubic : ((x * x * x + 7 : ℤ) : Field) = cubic x := by
    unfold cubic
    push_cast
    ring
  unfold root
  rw [hexp, cast_powMod _ hlt, cast_mod, hcubic]

theorem cast_root_ne_zero (x : ℤ) : ((root x : ℤ) : Field) ≠ 0 := by
  rw [cast_root]
  exact pow_ne_zero _ (cubic_ne_zero x)

/-- The other root of a square. -/
theorem neg_root {y : ℤ} (hy : Reduced y) (hne : (y : Field) ≠ 0) :
    Reduced (fieldOrder - y) ∧ ((fieldOrder - y : ℤ) : Field) = -y ∧
      (fieldOrder - y) % 2 = 1 - y % 2 := by
  have hpos : y ≠ 0 := by
    rintro rfl
    exact hne Int.cast_zero
  have hodd := odd_fieldOrder
  obtain ⟨hlow, hhigh⟩ := hy
  refine ⟨⟨by omega, by omega⟩, ?_, by omega⟩
  rw [Int.cast_sub, cast_fieldOrder, zero_sub]

/-- What `deserialize_point` returns: the integer that follows the first byte, and one
of the two roots if there are any. -/
theorem deserializePoint_spec (header : UInt8) (b : Bytes) :
    ∃ y : ℤ, deserializePoint (header :: b) = .ok (some ((Base58.toInt b : ℤ), y)) ∧ Reduced y ∧
      y % 2 = header.toNat % 2 ∧ (y : Field) ≠ 0 ∧
      ((y : Field) ^ 2 = cubic (Base58.toInt b) ↔ IsSquare (cubic (Base58.toInt b))) := by
  set x : ℤ := (Base58.toInt b : ℤ) with hx
  have hroot : Reduced (root x) := reduced_powMod _ _
  have hsquare : ((root x : ℤ) : Field) ^ 2 = cubic x ↔ IsSquare (cubic x) := by
    rw [cast_root]
    exact sq_root_iff order_mod_four _
  obtain ⟨hneg, hcast, hparity⟩ := neg_root hroot (cast_root_ne_zero x)
  have heq : deserializePoint (header :: b) =
      .ok (some (x, if root x % 2 ≠ header.toNat % 2 then fieldOrder - root x else root x)) := rfl
  by_cases hsame : root x % 2 = header.toNat % 2
  · rw [if_neg (not_not.2 hsame)] at heq
    exact ⟨_, heq, hroot, hsame, cast_root_ne_zero x, hsquare⟩
  · rw [if_pos hsame] at heq
    refine ⟨_, heq, hneg, by omega, ?_, ?_⟩
    · rw [hcast]
      exact neg_ne_zero.2 (cast_root_ne_zero x)
    · rw [hcast, neg_sq]
      exact hsquare

/-! ### Keys -/

/-- The rest of the slice that `x` was read from has no `y`. -/
theorem bytesToPoint_uncompressed (b : Bytes) : ∃ msg, bytesToPoint (4 :: b) = .error (.valueError msg) := by
  have hslice : (((b.take 32).drop 33).take 32 : Bytes) = [] := by
    rw [List.drop_eq_nil_of_le, List.take_nil]
    rw [List.length_take]
    omega
  unfold bytesToPoint intHexlify
  dsimp only
  rw [if_pos rfl, hslice]
  by_cases hb : b.take 32 = []
  · rw [if_pos hb]
    exact ⟨_, rfl⟩
  · rw [if_neg hb]
    exact ⟨_, rfl⟩

theorem bytesToPoint_of_ne {header : UInt8} (h : header ≠ 4) (b : Bytes) :
    bytesToPoint (header :: b) = deserializePoint (header :: b) := by
  rw [bytesToPoint, if_neg h]

theorem onCurve_iff {x y : ℤ} (hx : 0 ≤ x) (hy : Reduced y)
    (hroot : (y : Field) ^ 2 = cubic x ↔ IsSquare (cubic x)) :
    OnCurve (some (x, y)) ↔ x < fieldOrder ∧ IsSquare (cubic x) := by
  rw [← hroot]
  constructor
  · rintro ⟨⟨-, hlt⟩, -, heq⟩
    exact ⟨hlt, equation_cast.1 heq⟩
  · rintro ⟨hlt, heq⟩
    exact ⟨⟨hx, hlt⟩, hy, equation_cast.2 heq⟩

/-- Two roots of one parity. -/
theorem eq_of_sq_eq {y y' : ℤ} (hy : Reduced y) (hy' : Reduced y') (hne : (y : Field) ≠ 0)
    (hsq : (y' : Field) ^ 2 = (y : Field) ^ 2) (hparity : y' % 2 = y % 2) : y' = y := by
  rcases sq_eq_sq_iff_eq_or_eq_neg.1 hsq with heq | heq
  · exact cast_injective hy' hy heq
  · obtain ⟨hneg, hcast, hother⟩ := neg_root hy hne
    have hflip := cast_injective hy' hneg (heq.trans hcast.symm)
    omega

theorem bytesToPoint_pointToBytes {x y : ℤ} (h : OnCurve (some (x, y))) :
    ∃ b, pointToBytes (some (x, y)) = .ok b ∧ bytesToPoint b = .ok (some (x, y)) := by
  obtain ⟨hx, hy, heq⟩ := h
  have heq := equation_cast.1 heq
  refine ⟨_, rfl, ?_⟩
  have hback : (Base58.toInt (toLE 32 x.toNat).reverse : ℤ) = x := by
    have hlt : x.toNat < 2 ^ 256 := by
      have hbound := order_bounds.2
      have hhigh := hx.2
      rw [fieldOrder_eq] at hhigh
      have := hx.1
      omega
    rw [toInt_reverse_toLE hlt]
    exact Int.toNat_of_nonneg hx.1
  have hheader : (if y % 2 = 1 then (0x03 : UInt8) else 0x02) ≠ 4 ∧
      ((if y % 2 = 1 then (0x03 : UInt8) else 0x02).toNat : ℤ) % 2 = y % 2 := by
    split_ifs with hodd
    · exact ⟨by decide, by rw [hodd]; rfl⟩
    · exact ⟨by decide, by rw [Int.emod_two_ne_one.1 hodd]; rfl⟩
  rw [bytesToPoint_of_ne hheader.1]
  obtain ⟨y', hpoint, hy', hparity, -, hroot⟩ := deserializePoint_spec
    (if y % 2 = 1 then 0x03 else 0x02) (toLE 32 x.toNat).reverse
  rw [hback] at hpoint hroot
  have hsquare : (y : Field) ^ 2 = cubic x := heq
  have hsame : y' = y := by
    refine eq_of_sq_eq hy hy' (y_ne_zero heq) ?_ (hparity.trans hheader.2)
    rw [hsquare]
    exact hroot.2 ⟨_, hsquare.symm.trans (sq _)⟩
  rw [hpoint, hsame]

/-- A compressed key decodes to the point it encodes, and what decodes is a point of
the curve just when `x` is reduced and belongs to one. -/
theorem bytesToPoint_exact :
    (∀ x y : ℤ, OnCurve (some (x, y)) →
      ∃ b, pointToBytes (some (x, y)) = .ok b ∧ bytesToPoint b = .ok (some (x, y))) ∧
    ∀ (b : Bytes) (P : Point), bytesToPoint b = .ok P →
      (OnCurve P ↔ (Base58.toInt b.tail : ℤ) < fieldOrder ∧ IsSquare (cubic (Base58.toInt b.tail))) := by
  refine ⟨fun x y => bytesToPoint_pointToBytes, fun b P h => ?_⟩
  match b, h with
  | header :: b, h =>
    have hheader : header ≠ 4 := by
      rintro rfl
      obtain ⟨msg, hmsg⟩ := bytesToPoint_uncompressed b
      rw [hmsg] at h
      cases h
    rw [bytesToPoint_of_ne hheader] at h
    obtain ⟨y, hpoint, hy, -, -, hroot⟩ := deserializePoint_spec header b
    rw [hpoint] at h
    cases h
    exact onCurve_iff (Int.natCast_nonneg _) hy hroot

/-- The coordinates of the generator. -/
def generatorX : ℤ := 0x79BE667EF9DCBBAC55A06295CE870B07029BFCDB2DCE28D959F2815B16F81798

def generatorY : ℤ := 0x483ADA7726A3C4655DA4FBFC0E1108A8FD17B448A68554199C47D08FFB10D4B8

theorem bytesToPoint_exact_sample :
    ∃ b, pointToBytes (some (generatorX, generatorY)) = .ok b ∧
      bytesToPoint b = .ok (some (generatorX, generatorY)) ∧
      (Base58.toInt b.tail : ℤ) < fieldOrder ∧ IsSquare (cubic (Base58.toInt b.tail)) := by
  have hG : OnCurve (some (generatorX, generatorY)) := by decide +kernel
  obtain ⟨hread, hcurve⟩ := bytesToPoint_exact
  obtain ⟨b, hb, hpoint⟩ := hread generatorX generatorY hG
  exact ⟨b, hb, hpoint, (hcurve b _ hpoint).1 hG⟩

/-- The uncompressed generator is not read, and the key `02`, `5` is read as a point
off the curve. -/
theorem bytesToPoint_not_exact :
    (¬ ∀ x y : ℤ, OnCurve (some (x, y)) →
      bytesToPoint (0x04 :: ((toLE 32 x.toNat).reverse ++ (toLE 32 y.toNat).reverse)) = .ok (some (x, y))) ∧
    ¬ ∀ (b : Bytes) (P : Point), b.length = 33 → bytesToPoint b = .ok P → OnCurve P := by
  constructor
  · intro h
    have hG : OnCurve (some (generatorX, generatorY)) := by decide +kernel
    obtain ⟨msg, hmsg⟩ := bytesToPoint_uncompressed
      ((toLE 32 generatorX.toNat).reverse ++ (toLE 32 generatorY.toNat).reverse)
    rw [h generatorX generatorY hG] at hmsg
    cases hmsg
  · intro h
    have hoff : (bytesToPoint (0x02 :: (List.replicate 31 0 ++ [5]))).toOption.any
        (fun P => !decide (OnCurve P)) = true := by decide +kernel
    obtain ⟨P, hP, hnot⟩ := (Option.any_eq_true _ _).1 hoff
    have hcurve := h _ P (by decide) (toOption_eq_some.1 hP)
    rw [decide_eq_true hcurve] at hnot
    cases hnot

end Curve

end Hwi
