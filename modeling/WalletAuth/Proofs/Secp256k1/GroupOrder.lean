import Mathlib.Algebra.Module.ZMod
import Mathlib.GroupTheory.Perm.Cycle.Type
import WalletAuth.Proofs.Secp256k1.Curve

/-! The group of secp256k1 has prime order. The base point has that order; no abscissa has more than
two points, so the group is at most twice as large; and it has no element of order two, since the
curve does not meet the axis. Hence every multiple of the order vanishes, and scalars act on
points. -/

open WeierstrassCurve.Affine

namespace WalletAuth.Secp256k1

/-! ### The base point -/

theorem base_mul_self :
    (0x483ADA7726A3C4655DA4FBFC0E1108A8FD17B448A68554199C47D08FFB10D4B8 : ZMod fieldOrder) *
        0x483ADA7726A3C4655DA4FBFC0E1108A8FD17B448A68554199C47D08FFB10D4B8 =
      0x79BE667EF9DCBBAC55A06295CE870B07029BFCDB2DCE28D959F2815B16F81798 *
        0x79BE667EF9DCBBAC55A06295CE870B07029BFCDB2DCE28D959F2815B16F81798 *
        0x79BE667EF9DCBBAC55A06295CE870B07029BFCDB2DCE28D959F2815B16F81798 + 7 := by
  decide +kernel

/-- The base point of the curve. -/
def base : curve.Point :=
  .some 0x79BE667EF9DCBBAC55A06295CE870B07029BFCDB2DCE28D959F2815B16F81798
    0x483ADA7726A3C4655DA4FBFC0E1108A8FD17B448A68554199C47D08FFB10D4B8
    (nonsingular_of_mul_self base_mul_self)

theorem ofCurve_base : Point.ofCurve base = Point.generator := rfl

theorem base_ne_zero : base ≠ 0 := Point.some_ne_zero _

theorem multiple_last_generator : Point.generator.multiple (-1) = -Point.generator := by
  decide +kernel

theorem nsmul_eq_zero_of_pred {G : Type} [AddGroup G] {n : Nat} {g : G} (hn : 0 < n)
    (h : (n - 1) • g = -g) : n • g = 0 := by
  calc n • g = (n - 1 + 1) • g := by rw [Nat.sub_add_cancel hn]
    _ = 0 := by rw [succ_nsmul, h, neg_add_cancel]

theorem groupOrder_nsmul_base : groupOrder • base = 0 := by
  refine nsmul_eq_zero_of_pred (by decide) (Point.ofCurve_injective ?_)
  rw [Point.ofCurve_neg, ofCurve_base, ← multiple_last_generator, ← ofCurve_base,
    Point.multiple_ofCurve]
  rfl

theorem addOrderOf_base : addOrderOf base = groupOrder :=
  addOrderOf_eq_prime groupOrder_nsmul_base base_ne_zero

/-! ### How many points there are -/

/-- What tells the points apart: an abscissa and the parity of the ordinate. -/
def pointCode : curve.Point → Option (ZMod fieldOrder × Bool)
  | .zero => none
  | .some x y _ => some (x, isOdd (ofResidue y))

theorem isOdd_ofResidue_neg {y : ZMod fieldOrder} (hy : y ≠ 0) :
    isOdd (ofResidue (-y)) = !isOdd (ofResidue y) := by
  have hneg : ofResidue (-y) = -ofResidue y := by
    rw [ofResidue_eq_iff, residue_neg, residue_ofResidue]
  rw [hneg]
  exact isOdd_neg fun h => hy (by rw [ofResidue_eq_iff.mp h, residue_zero])

theorem pointCode_injective : Function.Injective pointCode := by
  intro P Q h
  rcases P with _ | ⟨x, y, hxy⟩ <;> rcases Q with _ | ⟨u, v, huv⟩
  · rfl
  · exact absurd h (by simp [pointCode])
  · exact absurd h (by simp [pointCode])
  · simp only [pointCode, Option.some.injEq, Prod.mk.injEq] at h
    obtain ⟨rfl, hparity⟩ := h
    rcases Y_eq_of_X_eq hxy.left huv.left rfl with rfl | hopposite
    · rfl
    · have hneg : y = -v := by simpa [curve] using hopposite
      by_cases hv : v = 0
      · simp [hneg, hv]
      · rw [hneg, isOdd_ofResidue_neg hv] at hparity
        exact absurd hparity (by simp)

instance : Finite curve.Point := Finite.of_injective pointCode pointCode_injective

theorem card_le : Nat.card curve.Point ≤ 2 * fieldOrder + 1 := by
  have hcode := Nat.card_le_card_of_injective pointCode pointCode_injective
  rw [Finite.card_option, Nat.card_prod, Nat.card_zmod, Nat.card_eq_fintype_card (α := Bool),
    Fintype.card_bool] at hcode
  omega

/-- The curve does not meet the axis: the opposite of seven is no cube. -/
theorem cubic_ne_zero (x : ZMod fieldOrder) : x * x * x + 7 ≠ 0 := by
  intro h
  have hcube : x ^ 3 = ((fieldOrder - 7 : Nat) : ZMod fieldOrder) := by
    rw [Nat.cast_sub (by decide), ZMod.natCast_self, zero_sub, pow_succ, sq]
    exact eq_neg_of_add_eq_zero_left h
  have hx : x ≠ 0 := by
    rintro rfl
    rw [zero_pow (by decide)] at hcube
    exact cast_ne_zero (by decide) (by decide) hcube.symm
  have hfermat : ((fieldOrder - 7 : Nat) : ZMod fieldOrder) ^ ((fieldOrder - 1) / 3) = 1 := by
    rw [← hcube, ← pow_mul]
    exact ZMod.pow_card_sub_one_eq_one hx
  rw [cast_pow_eq_one_iff (by decide) _ (by decide)] at hfermat
  exact absurd hfermat (by decide +kernel)

theorem y_ne_zero {x y : ZMod fieldOrder} (h : curve.Nonsingular x y) : y ≠ 0 := by
  rintro rfl
  have heq := (equation_iff_mul_self x 0).mp h.left
  exact cubic_ne_zero x (heq.symm.trans (mul_zero 0))

/-- No point is its own opposite but the one at infinity. -/
theorem eq_zero_of_eq_neg {P : curve.Point} (h : P = -P) : P = 0 := by
  rcases P with _ | ⟨x, y, hxy⟩
  · rfl
  · rw [Point.neg_some, Point.some.injEq] at h
    have hopposite : y = -y := by simpa [curve] using h.right
    have hparity := isOdd_ofResidue_neg (y_ne_zero hxy)
    rw [← hopposite] at hparity
    exact absurd hparity (by simp)

theorem card_eq : Nat.card curve.Point = groupOrder := by
  obtain ⟨index, hindex⟩ : groupOrder ∣ Nat.card curve.Point :=
    addOrderOf_base ▸ addOrderOf_dvd_natCard base
  have hle := card_le
  have hpos : 0 < Nat.card curve.Point := Nat.card_pos
  have heven : index ≠ 2 := by
    rintro rfl
    obtain ⟨P, hP⟩ := exists_prime_addOrderOf_dvd_card' 2 (hindex ▸ Nat.dvd_mul_left 2 groupOrder)
    have hdouble : P + P = 0 := by rw [← two_nsmul, ← hP, addOrderOf_nsmul_eq_zero]
    rw [eq_zero_of_eq_neg (eq_neg_of_add_eq_zero_left hdouble), addOrderOf_zero] at hP
    exact absurd hP (by decide)
  rw [hindex] at hle hpos ⊢
  have hlt : index < 3 := by
    by_contra hge
    exact absurd ((Nat.mul_le_mul_left groupOrder (Nat.le_of_not_lt hge)).trans hle) (by decide)
  have hne : index ≠ 0 := fun h => by simp [h] at hpos
  rw [show index = 1 by omega, Nat.mul_one]

/-! ### Scalars -/

theorem groupOrder_nsmul (P : curve.Point) : groupOrder • P = 0 := by
  rw [← card_eq]
  exact card_nsmul_eq_zero'

/-- Scalars act on points. -/
instance : Module (ZMod groupOrder) curve.Point := AddCommGroup.zmodModule groupOrder_nsmul

theorem Point.multiple_eq_smul (k : Scalar) (P : curve.Point) :
    Point.multiple k (Point.ofCurve P) = Point.ofCurve (residue k • P) := by
  rw [Point.multiple_ofCurve, residue, Nat.cast_smul_eq_nsmul]

end WalletAuth.Secp256k1
