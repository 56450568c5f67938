import Mathlib.AlgebraicGeometry.EllipticCurve.Affine.Point
import WalletAuth.Proofs.Secp256k1.Field
import WalletAuth.Secp256k1.Point

/-! The points in coordinates are those of the Weierstrass curve `y² = x³ + 7` over the coordinate
field. The chord and tangent rules compute its group law, and doubling along the bits of a
multiplier computes multiples in that group. -/

open WeierstrassCurve.Affine

namespace WalletAuth.Secp256k1

/-- The curve. -/
def curve : WeierstrassCurve.Affine (ZMod fieldOrder) where
  a₁ := 0
  a₂ := 0
  a₃ := 0
  a₄ := 0
  a₆ := 7

theorem equation_iff_mul_self (x y : ZMod fieldOrder) :
    curve.Equation x y ↔ y * y = x * x * x + 7 := by
  rw [equation_iff]
  simp only [curve, zero_mul, add_zero]
  rw [sq, pow_succ, sq]

theorem cast_ne_zero {value : Nat} (hpos : 0 < value) (hlt : value < fieldOrder) :
    (value : ZMod fieldOrder) ≠ 0 := by
  rw [Ne, ZMod.natCast_eq_zero_iff]
  exact Nat.not_dvd_of_pos_of_lt hpos hlt

theorem discriminant_ne_zero : curve.Δ ≠ 0 := by
  have hvalue : curve.Δ = -((21168 : Nat) : ZMod fieldOrder) := by
    simp only [WeierstrassCurve.Δ, WeierstrassCurve.b₂, WeierstrassCurve.b₄, WeierstrassCurve.b₆,
      WeierstrassCurve.b₈, curve]
    push_cast
    ring
  rw [hvalue, Ne, neg_eq_zero]
  exact cast_ne_zero (by decide) (by decide)

theorem nonsingular_of_mul_self {x y : ZMod fieldOrder} (h : y * y = x * x * x + 7) :
    curve.Nonsingular x y :=
  (equation_iff_nonsingular_of_Δ_ne_zero discriminant_ne_zero).mp ((equation_iff_mul_self x y).mpr h)

/-! ### Points in coordinates -/

@[simp]
theorem residue_literal (value : Nat) [value.AtLeastTwo] :
    residue (ofNat(value) : FieldElement) = (ofNat(value) : ZMod fieldOrder) :=
  residue_ofNat value

namespace Point

/-- A point of the curve in coordinates. -/
def ofCurve : curve.Point → Point
  | .zero => infinity
  | .some x y _ => affine (ofResidue x) (ofResidue y)

@[simp]
theorem ofCurve_zero : ofCurve 0 = infinity := rfl

@[simp]
theorem ofCurve_some {x y : ZMod fieldOrder} (h : curve.Nonsingular x y) :
    ofCurve (.some x y h) = affine (ofResidue x) (ofResidue y) := rfl

theorem ofCurve_injective : Function.Injective ofCurve := by
  intro P Q h
  rcases P with _ | ⟨x, y, hxy⟩ <;> rcases Q with _ | ⟨u, v, huv⟩
  · rfl
  · exact absurd h (by simp [ofCurve])
  · exact absurd h (by simp [ofCurve])
  · simp only [ofCurve, affine.injEq] at h
    obtain rfl := ofResidue_injective h.1
    obtain rfl := ofResidue_injective h.2
    rfl

@[simp]
theorem ofCurve_eq_infinity_iff {P : curve.Point} : ofCurve P = infinity ↔ P = 0 := by
  rw [← ofCurve_zero, ofCurve_injective.eq_iff]

theorem residue_cubic (x : FieldElement) :
    residue (cubic x) = residue x * residue x * residue x + 7 := by
  rw [cubic, residue_add, residue_mul, residue_mul, residue_literal]

/-- The points in coordinates that satisfy the equation are those of the curve. -/
theorem onCurve_iff {point : Point} : point.OnCurve ↔ ∃ P, ofCurve P = point := by
  constructor
  · intro h
    cases point with
    | infinity => exact ⟨0, rfl⟩
    | affine x y =>
        have heq : residue y * residue y = residue x * residue x * residue x + 7 := by
          rw [← residue_cubic, ← residue_mul, show y * y = cubic x from h]
        exact ⟨.some _ _ (nonsingular_of_mul_self heq), by simp⟩
  · rintro ⟨P, rfl⟩
    rcases P with _ | ⟨x, y, hxy⟩
    · trivial
    · apply residue_injective
      rw [residue_cubic, residue_mul, residue_ofResidue, residue_ofResidue]
      exact (equation_iff_mul_self x y).mp hxy.left

/-! ### The group law -/

theorem ofCurve_neg (P : curve.Point) : ofCurve (-P) = -ofCurve P := by
  rcases P with _ | ⟨x, y, hxy⟩
  · rfl
  · rw [Point.neg_some, ofCurve_some, ofCurve_some]
    have hy : ofResidue (curve.negY x y) = -ofResidue y := by
      rw [ofResidue_eq_iff, residue_neg, residue_ofResidue]
      simp [curve]
    rw [hy]
    rfl

theorem reflectThird_ofResidue (slope x₁ y₁ x₂ : ZMod fieldOrder) :
    reflectThird (ofResidue slope) (ofResidue x₁) (ofResidue y₁) (ofResidue x₂) =
      affine (ofResidue (curve.addX x₁ x₂ slope)) (ofResidue (curve.addY x₁ x₂ y₁ slope)) := by
  have hx : ofResidue slope * ofResidue slope - ofResidue x₁ - ofResidue x₂ =
      ofResidue (curve.addX x₁ x₂ slope) := by
    symm
    rw [ofResidue_eq_iff]
    simp only [addX, curve, residue_sub, residue_mul, residue_ofResidue]
    ring
  rw [reflectThird, hx]
  congr 1
  symm
  rw [ofResidue_eq_iff]
  simp only [addY, negAddY, negY, addX, curve, residue_sub, residue_mul, residue_ofResidue]
  ring

/-- The chord and tangent rules are the sum of the group. -/
theorem ofCurve_add (P Q : curve.Point) : ofCurve (P + Q) = ofCurve P + ofCurve Q := by
  rcases P with _ | ⟨x₁, y₁, h₁⟩
  · exact congrArg ofCurve (zero_add Q)
  rcases Q with _ | ⟨x₂, y₂, h₂⟩
  · exact congrArg ofCurve (add_zero _)
  show _ = add (affine (ofResidue x₁) (ofResidue y₁)) (affine (ofResidue x₂) (ofResidue y₂))
  have hopposite : ofResidue y₁ = -ofResidue y₂ ↔ y₁ = curve.negY x₂ y₂ := by
    rw [ofResidue_eq_iff, residue_neg, residue_ofResidue]
    simp [curve]
  rw [add]
  by_cases hx : x₁ = x₂
  · rw [if_pos (congrArg ofResidue hx)]
    by_cases hy : y₁ = curve.negY x₂ y₂
    · rw [if_pos (hopposite.mpr hy), Point.add_of_Y_eq hx hy, ofCurve_zero]
    · rw [if_neg (mt hopposite.mp hy), Point.add_of_Y_ne hy, ofCurve_some, slope_of_Y_ne hx hy,
        ← reflectThird_ofResidue]
      congr 1
      rw [ofResidue_eq_iff]
      simp only [residue_mul, residue_literal, FieldElement.residue_inverse, residue_ofResidue,
        negY, curve]
      ring
  · rw [if_neg (mt (ofResidue_injective ·) hx), Point.add_of_X_ne hx, ofCurve_some,
      slope_of_X_ne hx, ← reflectThird_ofResidue]
    congr 1
    rw [ofResidue_eq_iff, residue_mul, residue_sub, FieldElement.residue_inverse, residue_sub]
    simp only [residue_ofResidue]
    rfl

theorem foldl_double (P : curve.Point) (read : Nat) (written : List Bool) :
    written.foldl
      (fun acc bit => if bit then acc + acc + ofCurve P else acc + acc) (ofCurve (read • P)) =
      ofCurve (bitsOnto read written • P) := by
  induction written generalizing read with
  | nil => rfl
  | cons bit written ih =>
      have hdouble : ofCurve (read • P) + ofCurve (read • P) = ofCurve ((2 * read) • P) := by
        rw [← ofCurve_add, ← add_nsmul, two_mul]
      cases bit with
      | false =>
          rw [List.foldl_cons, if_neg Bool.false_ne_true, hdouble]
          exact ih (2 * read)
      | true =>
          rw [List.foldl_cons, if_pos rfl, hdouble, ← ofCurve_add, ← succ_nsmul]
          exact ih (2 * read + 1)

/-- Doubling along the bits of the multiplier gives the multiple of the group. -/
theorem multiple_ofCurve (k : Scalar) (P : curve.Point) :
    multiple k (ofCurve P) = ofCurve (k.val • P) := by
  have hfold := foldl_double P 0 (bits 256 k.val)
  rw [zero_nsmul, ofCurve_zero,
    bitsOnto_zero_bits (k.isLt.trans (by decide : groupOrder < 2 ^ 256))] at hfold
  exact hfold

end Point

end WalletAuth.Secp256k1
