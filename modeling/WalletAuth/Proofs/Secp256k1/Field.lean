import Mathlib.FieldTheory.Finite.Basic
import WalletAuth.Proofs.Secp256k1.Primality

/-! Numbers below an order are the elements of the prime field of that order. Reading a number as
its residue commutes with all operations, inverses and square roots included, so equations between
numbers are equations in the field. -/

namespace WalletAuth.Secp256k1

/-! ### Residues -/

section Residue

variable {m : Nat}

/-- The residue of a number below the modulus. -/
def residue (a : Fin m) : ZMod m := (a.val : ZMod m)

@[simp]
theorem val_residue (a : Fin m) : (residue a).val = a.val := ZMod.val_cast_of_lt a.isLt

@[simp]
theorem residue_add (a b : Fin m) : residue (a + b) = residue a + residue b := by
  rw [residue, Fin.val_add, ZMod.natCast_mod, Nat.cast_add]
  rfl

@[simp]
theorem residue_mul (a b : Fin m) : residue (a * b) = residue a * residue b := by
  rw [residue, Fin.val_mul, ZMod.natCast_mod, Nat.cast_mul]
  rfl

@[simp]
theorem residue_neg (a : Fin m) : residue (-a) = -residue a := by
  rw [residue, Fin.val_neg', ZMod.natCast_mod, Nat.cast_sub a.isLt.le, ZMod.natCast_self, zero_sub]
  rfl

@[simp]
theorem residue_sub (a b : Fin m) : residue (a - b) = residue a - residue b := by
  rw [residue, Fin.sub_def, ZMod.natCast_mod, Nat.cast_add, Nat.cast_sub b.isLt.le,
    ZMod.natCast_self, zero_sub, neg_add_eq_sub]
  rfl

theorem residue_power {a : Fin m} {exponent : Nat} (hm : 1 < m) (hexponent : exponent < 2 ^ 256) :
    residue (power a exponent) = residue a ^ exponent := by
  have hmod : residue (power a exponent) = ((powerMod m a.val exponent % m : Nat) : ZMod m) := rfl
  rw [hmod, powerMod_eq a.val hm hexponent, ZMod.natCast_mod, ZMod.natCast_mod, Nat.cast_pow]
  rfl

variable [NeZero m]

/-- The number below the modulus with a given residue. -/
def ofResidue (x : ZMod m) : Fin m := ⟨x.val, x.val_lt⟩

@[simp]
theorem val_ofResidue (x : ZMod m) : (ofResidue x).val = x.val := rfl

@[simp]
theorem residue_ofResidue (x : ZMod m) : residue (ofResidue x) = x := ZMod.natCast_zmod_val x

@[simp]
theorem ofResidue_residue (a : Fin m) : ofResidue (residue a) = a := Fin.ext (val_residue a)

theorem residue_injective : Function.Injective (residue : Fin m → ZMod m) :=
  Function.LeftInverse.injective ofResidue_residue

theorem ofResidue_injective : Function.Injective (ofResidue : ZMod m → Fin m) :=
  Function.LeftInverse.injective residue_ofResidue

theorem ofResidue_eq_iff {x : ZMod m} {a : Fin m} : ofResidue x = a ↔ x = residue a :=
  ⟨fun h => by rw [← h, residue_ofResidue], fun h => by rw [h, ofResidue_residue]⟩

theorem residue_ofNat (value : Nat) : residue (Fin.ofNat m value) = (value : ZMod m) := by
  rw [residue, Fin.val_ofNat, ZMod.natCast_mod]

@[simp]
theorem residue_zero : residue (0 : Fin m) = 0 := by
  rw [residue, Fin.val_zero, Nat.cast_zero]

@[simp]
theorem residue_eq_zero_iff {a : Fin m} : residue a = 0 ↔ a = 0 := by
  rw [← residue_zero, residue_injective.eq_iff]

end Residue

/-! ### Inverses -/

/-- Fermat: the power of an element by two less than the order is its inverse. -/
theorem zmod_inv_eq_pow {p : Nat} [Fact p.Prime] (hp : 2 < p) (x : ZMod p) : x⁻¹ = x ^ (p - 2) := by
  by_cases hx : x = 0
  · rw [hx, inv_zero, zero_pow (by omega)]
  · have hpower : x ^ (p - 2) * x = 1 := by
      rw [← pow_succ, show p - 2 + 1 = p - 1 by omega, ZMod.pow_card_sub_one_eq_one hx]
    exact (eq_inv_of_mul_eq_one_left hpower).symm

theorem residue_inverse {p : Nat} [NeZero p] [Fact p.Prime] (hp : 2 < p) (hbound : p ≤ 2 ^ 256)
    (a : Fin p) : residue (inverse a) = (residue a)⁻¹ := by
  rw [inverse, residue_power (by omega) (by omega), zmod_inv_eq_pow hp]

@[simp]
theorem FieldElement.residue_inverse (a : FieldElement) : residue (inverse a) = (residue a)⁻¹ :=
  Secp256k1.residue_inverse (by decide) (by decide) a

@[simp]
theorem Scalar.residue_inverse (a : Scalar) : residue (inverse a) = (residue a)⁻¹ :=
  Secp256k1.residue_inverse (by decide) (by decide) a

/-! ### Square roots -/

theorem mul_self_of_squareRoot? {value root : FieldElement} (h : squareRoot? value = some root) :
    root * root = value := by
  simp only [squareRoot?, Option.ite_none_right_eq_some, Option.some.injEq] at h
  obtain ⟨hsquare, rfl⟩ := h
  exact hsquare

/-- A square has a root, and a root that is found is one of the two there are. -/
theorem exists_squareRoot? (y : FieldElement) :
    ∃ root, squareRoot? (y * y) = some root ∧ (root = y ∨ root = -y) := by
  have hfermat : residue y ^ fieldOrder = residue y := ZMod.pow_card (residue y)
  have hroot : residue (power (y * y) ((fieldOrder + 1) / 4)) =
      residue y ^ ((fieldOrder + 1) / 2) := by
    rw [residue_power (by decide) (by decide), residue_mul, ← sq, ← pow_mul]
    rfl
  have hsquare : power (y * y) ((fieldOrder + 1) / 4) * power (y * y) ((fieldOrder + 1) / 4) =
      y * y := by
    apply residue_injective
    rw [residue_mul, residue_mul, hroot, ← pow_add]
    rw [show (fieldOrder + 1) / 2 + (fieldOrder + 1) / 2 = fieldOrder + 1 by decide, pow_succ,
      hfermat]
  refine ⟨_, if_pos hsquare, ?_⟩
  have hcases := mul_self_eq_mul_self_iff.mp
    ((residue_mul _ _).symm.trans ((congrArg residue hsquare).trans (residue_mul _ _)))
  rcases hcases with h | h
  · exact Or.inl (residue_injective h)
  · exact Or.inr (residue_injective (h.trans (residue_neg y).symm))

/-! ### Parity -/

theorem FieldElement.neg_val {y : FieldElement} (hy : y ≠ 0) : (-y).val = fieldOrder - y.val := by
  have hpos : 0 < y.val := Nat.pos_of_ne_zero fun h => hy (Fin.ext h)
  rw [Fin.val_neg', Nat.mod_eq_of_lt (by omega)]

/-- Of an element and its opposite exactly one is odd, since the order is. -/
theorem isOdd_neg {y : FieldElement} (hy : y ≠ 0) : isOdd (-y) = !isOdd y := by
  have hlt := y.isLt
  have horder : fieldOrder % 2 = 1 := by decide
  rw [isOdd, isOdd, FieldElement.neg_val hy]
  rcases Nat.mod_two_eq_zero_or_one y.val with h | h
  · rw [h, show (fieldOrder - y.val) % 2 = 1 by omega]
    rfl
  · rw [h, show (fieldOrder - y.val) % 2 = 0 by omega]
    rfl

end WalletAuth.Secp256k1
