import Hwi.Proofs.Field
import Mathlib.AlgebraicGeometry.EllipticCurve.Affine.Point

/-! The points of the curve are a group, of which `point_add` is the sum and
`point_mul` the multiple. -/

namespace Hwi

namespace Curve

/-! ### The curve -/

/-- The curve `y² = x³ + 7`. -/
def secp256k1 : WeierstrassCurve.Affine Field := ⟨0, 0, 0, 0, 7⟩

/-- The value of `x³ + 7` in the field. -/
def cubic (x : ℤ) : Field := (x : Field) ^ 3 + 7

theorem negY_eq (x y : Field) : secp256k1.negY x y = -y := by
  simp [WeierstrassCurve.Affine.negY, secp256k1]

theorem equation_iff (x y : Field) : secp256k1.Equation x y ↔ y ^ 2 = x ^ 3 + 7 := by
  rw [WeierstrassCurve.Affine.equation_iff]
  simp [secp256k1]

theorem small_ne_zero {n : ℕ} (hn : 0 < n) (hlt : n < 2 ^ 255) : (n : Field) ≠ 0 := by
  rw [Ne, ZMod.natCast_eq_zero_iff]
  intro hdvd
  have hle := Nat.le_of_dvd hn hdvd
  have hbound := order_bounds.1
  omega

theorem two_ne_zero : (2 : Field) ≠ 0 := small_ne_zero (n := 2) (by omega) (by norm_num)

/-- The number `-7` is not a cube. -/
theorem cube_add_seven_ne_zero (x : Field) : x ^ 3 + 7 ≠ 0 := by
  have hpow : ((-7 : ℤ) : Field) ^ ((order - 1) / 3) ≠ 1 := by
    have hlt : (order - 1) / 3 < 2 ^ 256 := by decide +kernel
    rw [Ne, pow_eq_one_iff prime_order.one_lt _ hlt]
    decide +kernel
  intro h
  have hcube : x ^ 3 = ((-7 : ℤ) : Field) := by
    rw [Int.cast_neg]
    exact eq_neg_of_add_eq_zero_left h
  refine pow_ne_of_pow_ne_one (by decide +kernel) hpow x ?_ hcube
  rintro rfl
  rw [zero_pow (by omega), zero_add] at h
  exact small_ne_zero (n := 7) (by omega) (by norm_num) h

/-- No point of the curve is its own opposite. -/
theorem y_ne_zero {x y : Field} (h : y ^ 2 = x ^ 3 + 7) : y ≠ 0 := by
  rintro rfl
  rw [zero_pow (by omega)] at h
  exact cube_add_seven_ne_zero x h.symm

theorem ne_neg {x y : Field} (h : y ^ 2 = x ^ 3 + 7) : y ≠ -y := by
  intro heq
  have hdouble : 2 * y = 0 := by
    rw [two_mul]
    exact add_eq_zero_iff_eq_neg.2 heq
  rcases mul_eq_zero.1 hdouble with h2 | hy
  · exact two_ne_zero h2
  · exact y_ne_zero h hy

theorem nonsingular_iff (x y : Field) : secp256k1.Nonsingular x y ↔ y ^ 2 = x ^ 3 + 7 := by
  rw [WeierstrassCurve.Affine.nonsingular_iff, equation_iff]
  refine ⟨fun h => h.1, fun h => ⟨h, Or.inr ?_⟩⟩
  simpa [secp256k1] using ne_neg h

/-! ### Points -/

/-- A point at infinity, or two reduced integers that satisfy the equation. -/
def OnCurve : Point → Prop
  | none => True
  | some (x, y) => Reduced x ∧ Reduced y ∧ (y * y - (x * x * x + 7)) % fieldOrder = 0

instance : DecidablePred OnCurve
  | none => inferInstanceAs (Decidable True)
  | some (_, _) => inferInstanceAs (Decidable (_ ∧ _ ∧ _))

/-- The points of the code that are points of the curve. -/
abbrev CurvePoint := {P : Point // OnCurve P}

theorem equation_cast {x y : ℤ} :
    (y * y - (x * x * x + 7)) % fieldOrder = 0 ↔ ((y : ℤ) : Field) ^ 2 = (x : Field) ^ 3 + 7 := by
  rw [← Int.dvd_iff_emod_eq_zero, fieldOrder_eq, ← ZMod.intCast_zmod_eq_zero_iff_dvd]
  push_cast
  rw [sub_eq_zero]
  ring_nf

/-- The element of the group that a point of the code stands for. -/
def toGroup : CurvePoint → secp256k1.Point
  | ⟨none, _⟩ => 0
  | ⟨some (x, y), h⟩ => .some (x : Field) (y : Field) ((nonsingular_iff _ _).2 (equation_cast.1 h.2.2))

/-- A point of the code and what it stands for. -/
inductive Represents : Point → secp256k1.Point → Prop
  | zero : Represents none 0
  | some {x y : ℤ} (hx : Reduced x) (hy : Reduced y) (h : secp256k1.Nonsingular (x : Field) (y : Field)) :
    Represents (some (x, y)) (.some (x : Field) (y : Field) h)

theorem represents_iff {P : Point} {g : secp256k1.Point} :
    Represents P g ↔ ∃ h : OnCurve P, toGroup ⟨P, h⟩ = g := by
  constructor
  · intro h
    cases h with
    | zero => exact ⟨trivial, rfl⟩
    | some hx hy h => exact ⟨⟨hx, hy, equation_cast.2 ((nonsingular_iff _ _).1 h)⟩, rfl⟩
  · rintro ⟨h, rfl⟩
    match P, h with
    | none, _ => exact .zero
    | Option.some (x, y), h => exact .some h.1 h.2.1 _

theorem represents_toGroup (P : CurvePoint) : Represents P.1 (toGroup P) := represents_iff.2 ⟨P.2, rfl⟩

theorem Represents.of_eq {x y : ℤ} (hx : Reduced x) (hy : Reduced y) {a b : Field}
    (h : secp256k1.Nonsingular a b) (ha : (x : Field) = a) (hb : (y : Field) = b) :
    Represents (Option.some (x, y)) (.some a b h) := by
  subst ha hb
  exact .some hx hy h

/-! ### Sums -/

/-- The slope of `point_add`: of the tangent in a point, or of the line through two. -/
def slope (x₁ y₁ x₂ y₂ : ℤ) : ℤ :=
  if x₁ = x₂ then 3 * x₁ * x₁ * inverse (2 * y₁) % fieldOrder
  else (y₂ - y₁) * inverse (x₂ - x₁) % fieldOrder

theorem cast_slope {x₁ y₁ x₂ y₂ : ℤ} (hx₁ : Reduced x₁) (hx₂ : Reduced x₂)
    (hsame : x₁ = x₂ → y₁ = y₂ ∧ (y₁ : Field) ≠ -y₁) :
    ((slope x₁ y₁ x₂ y₂ : ℤ) : Field) = secp256k1.slope (x₁ : Field) x₂ y₁ y₂ := by
  unfold slope
  split_ifs with hx
  · obtain ⟨rfl, hy⟩ := hsame hx
    subst hx
    rw [WeierstrassCurve.Affine.slope_of_Y_ne rfl ((negY_eq _ _).symm ▸ hy), negY_eq, cast_mod]
    push_cast
    rw [cast_inverse]
    push_cast
    simp only [secp256k1]
    rw [div_eq_mul_inv]
    ring_nf
  · have hne : (x₁ : Field) ≠ x₂ := fun heq => hx (cast_injective hx₁ hx₂ heq)
    rw [WeierstrassCurve.Affine.slope_of_X_ne hne, cast_mod]
    push_cast
    rw [cast_inverse]
    push_cast
    rw [← neg_sub (x₂ : Field), ← neg_sub (y₂ : Field), neg_div_neg_eq, div_eq_mul_inv]

/-- The third point on a line, mirrored. -/
theorem represents_line {x₁ y₁ x₂ y₂ lam : ℤ} {h₁ : secp256k1.Nonsingular (x₁ : Field) (y₁ : Field)}
    {h₂ : secp256k1.Nonsingular (x₂ : Field) (y₂ : Field)}
    (hsum : ¬((x₁ : Field) = x₂ ∧ (y₁ : Field) = secp256k1.negY x₂ y₂))
    (hlam : (lam : Field) = secp256k1.slope (x₁ : Field) x₂ y₁ y₂) :
    Represents (Option.some ((lam * lam - x₁ - x₂) % fieldOrder,
        (lam * (x₁ - (lam * lam - x₁ - x₂) % fieldOrder) - y₁) % fieldOrder))
      (.some _ _ h₁ + .some _ _ h₂) := by
  have haddX : (((lam * lam - x₁ - x₂) % fieldOrder : ℤ) : Field) =
      secp256k1.addX x₁ x₂ (secp256k1.slope x₁ x₂ y₁ y₂) := by
    rw [cast_mod, ← hlam]
    simp only [WeierstrassCurve.Affine.addX, secp256k1]
    push_cast
    ring
  rw [WeierstrassCurve.Affine.Point.add_some hsum]
  refine Represents.of_eq (reduced_mod _) (reduced_mod _) _ haddX ?_
  rw [cast_mod, WeierstrassCurve.Affine.addY, negY_eq, WeierstrassCurve.Affine.negAddY, ← haddX, ← hlam]
  push_cast
  ring

/-- The sum of two points. -/
theorem represents_pointAdd {P Q : Point} {g g' : secp256k1.Point} (hP : Represents P g)
    (hQ : Represents Q g') : Represents (pointAdd P Q) (g + g') := by
  cases hP with
  | zero =>
    rw [zero_add]
    exact hQ
  | @some x₁ y₁ hx₁ hy₁ h₁ =>
    cases hQ with
    | zero =>
      rw [add_zero]
      exact .some hx₁ hy₁ h₁
    | @some x₂ y₂ hx₂ hy₂ h₂ =>
      have hE₁ := (nonsingular_iff _ _).1 h₁
      have hE₂ := (nonsingular_iff _ _).1 h₂
      by_cases hinv : x₁ = x₂ ∧ y₁ ≠ y₂
      · obtain ⟨rfl, hy⟩ := hinv
        have hneg : (y₁ : Field) = -y₂ := by
          rcases sq_eq_sq_iff_eq_or_eq_neg.1 (hE₁.trans hE₂.symm) with heq | hneg
          · exact absurd (cast_injective hy₁ hy₂ heq) hy
          · exact hneg
        rw [pointAdd, if_pos ⟨rfl, hy⟩,
          WeierstrassCurve.Affine.Point.add_of_Y_eq rfl (hneg.trans (negY_eq _ _).symm)]
        exact .zero
      · rw [pointAdd, if_neg hinv]
        have hsame : x₁ = x₂ → y₁ = y₂ ∧ (y₁ : Field) ≠ -y₁ := fun hx =>
          ⟨not_not.1 fun hy => hinv ⟨hx, hy⟩, ne_neg hE₁⟩
        refine represents_line ?_ (cast_slope hx₁ hx₂ hsame)
        rintro ⟨hx, hy⟩
        obtain ⟨rfl, hne⟩ := hsame (cast_injective hx₁ hx₂ hx)
        rw [negY_eq] at hy
        exact hne hy

/-! ### Multiples -/

theorem mod_two_pow_succ (n bits : ℕ) : n % 2 ^ (bits + 1) = 2 * (n / 2 % 2 ^ bits) + n % 2 := by
  rw [pow_succ', Nat.mod_mul]
  omega

/-- The loop adds the doubled points of the binary digits that are set. -/
theorem represents_pointMulLoop (bits : ℕ) {n : ℕ} {R P : Point} {g h : secp256k1.Point}
    (hR : Represents R g) (hP : Represents P h) :
    Represents (pointMulLoop bits R P n) (g + (n % 2 ^ bits) • h) := by
  induction bits generalizing n R P g h with
  | zero =>
    rw [pow_zero, Nat.mod_one, zero_nsmul, add_zero]
    exact hR
  | succ bits ih =>
    have hstep : Represents (if n % 2 = 1 then pointAdd R P else R) (g + (n % 2) • h) := by
      split_ifs with hodd
      · rw [hodd, one_nsmul]
        exact represents_pointAdd hR hP
      · have heven : n % 2 = 0 := by omega
        rw [heven, zero_nsmul, add_zero]
        exact hR
    have hrest := ih (n := n / 2) hstep (represents_pointAdd hP hP)
    rw [← two_nsmul, ← mul_nsmul, add_assoc, ← add_nsmul] at hrest
    rw [pointMulLoop, mod_two_pow_succ, Nat.add_comm (2 * _)]
    exact hrest

theorem represents_pointMul {n : ℕ} (hn : n < 2 ^ 256) {P : Point} {g : secp256k1.Point}
    (hP : Represents P g) : Represents (pointMul P n) (n • g) := by
  have h := represents_pointMulLoop 256 (n := n) .zero hP
  rw [zero_add, Nat.mod_eq_of_lt hn] at h
  unfold pointMul
  exact h

/-! ### The group -/

theorem Represents.unique {P Q : Point} {g g' : secp256k1.Point} (hP : Represents P g)
    (hQ : Represents Q g') (h : g = g') : P = Q := by
  cases hP with
  | zero =>
    cases hQ with
    | zero => rfl
    | some _ _ _ => cases h
  | some hx₁ hy₁ _ =>
    cases hQ with
    | zero => cases h
    | some hx₂ hy₂ _ =>
      obtain ⟨hx, hy⟩ := WeierstrassCurve.Affine.Point.some.inj h
      rw [cast_injective hx₁ hx₂ hx, cast_injective hy₁ hy₂ hy]

theorem toGroup_injective : Function.Injective toGroup := fun P Q h =>
  Subtype.ext ((represents_toGroup P).unique (represents_toGroup Q) h)

theorem toGroup_surjective : Function.Surjective toGroup := by
  intro g
  cases g with
  | zero => exact ⟨⟨none, trivial⟩, rfl⟩
  | some a b h =>
    obtain ⟨x, hx, rfl⟩ := exists_reduced a
    obtain ⟨y, hy, rfl⟩ := exists_reduced b
    obtain ⟨hP, hg⟩ := represents_iff.1 (.some hx hy h)
    exact ⟨_, hg⟩

/-- The points of the code are the group of the curve, with `point_add` for its sum
and `point_mul` for its multiples. -/
theorem point_group : Function.Bijective toGroup ∧
    (∀ P Q : CurvePoint, ∃ h : OnCurve (pointAdd P.1 Q.1),
      toGroup ⟨pointAdd P.1 Q.1, h⟩ = toGroup P + toGroup Q) ∧
    (∀ (P : CurvePoint) (n : ℕ), n < 2 ^ 256 → ∃ h : OnCurve (pointMul P.1 n),
      toGroup ⟨pointMul P.1 n, h⟩ = n • toGroup P) ∧
    ∀ (P : CurvePoint) (a b : ℕ), a + b < 2 ^ 256 →
      pointAdd (pointMul P.1 a) (pointMul P.1 b) = pointMul P.1 (a + b) := by
  refine ⟨⟨toGroup_injective, toGroup_surjective⟩, fun P Q => ?_, fun P n hn => ?_, fun P a b hab => ?_⟩
  · exact represents_iff.1 (represents_pointAdd (represents_toGroup P) (represents_toGroup Q))
  · exact represents_iff.1 (represents_pointMul hn (represents_toGroup P))
  · have hsum := represents_pointAdd
      (represents_pointMul (n := a) (by omega) (represents_toGroup P))
      (represents_pointMul (n := b) (by omega) (represents_toGroup P))
    rw [← add_nsmul] at hsum
    exact hsum.unique (represents_pointMul hab (represents_toGroup P)) rfl

/-- The generator. -/
def generator : CurvePoint := ⟨G, by decide +kernel⟩

/-- A multiple of the generator is the point at infinity exactly for the multiples of the order of
the generator. `point_mul` takes the lowest 256 bits of the number. -/
theorem pointMul_generator_eq_none_iff (n : ℕ) :
    pointMul G n = none ↔ addOrderOf (toGroup generator) ∣ n % 2 ^ 256 := by
  have h := represents_pointMulLoop 256 (n := n) .zero (represents_toGroup generator)
  rw [zero_add] at h
  rw [addOrderOf_dvd_iff_nsmul_eq_zero]
  constructor
  · intro hnone
    have hzero : Represents none ((n % 2 ^ 256) • toGroup generator) := by
      rw [← hnone]
      exact h
    generalize (n % 2 ^ 256) • toGroup generator = g at hzero
    cases hzero
    rfl
  · intro hzero
    exact Represents.unique h .zero hzero

theorem point_group_sample :
    pointAdd (pointMul generator.1 1) (pointMul generator.1 2) = pointMul generator.1 (1 + 2) := by
  obtain ⟨-, -, -, hadd⟩ := point_group
  exact hadd generator 1 2 (by norm_num)

end Curve

end Hwi
