import WalletAuth.Proofs.Secp256k1.GroupOrder
import WalletAuth.Secp256k1.Ecdsa

/-! Recovering a key is the division `r⁻¹ (s R - z G)` in the group of the curve. Turning `s` over
reflects the nonce point, which leaves `s R` alone, so it neither loses a signature nor adds one;
and the key that is found always verifies the signature in its lower-half form. -/

open WeierstrassCurve.Affine

namespace WalletAuth.Secp256k1

/-! ### Nonce points -/

/-- The point with a given abscissa whose ordinate is odd or even as told. -/
def IsPointAt (x : Nat) (oddY : Bool) : curve.Point → Prop
  | .zero => False
  | .some u v _ => u.val = x ∧ v.val % 2 = oddY.toNat

theorem isOdd_eq_iff {y : FieldElement} {oddY : Bool} : isOdd y = oddY ↔ y.val % 2 = oddY.toNat := by
  rw [isOdd]
  rcases Nat.mod_two_eq_zero_or_one y.val with h | h <;> cases oddY <;> simp [h]

theorem isOdd_ofResidue_iff {v : ZMod fieldOrder} {oddY : Bool} :
    isOdd (ofResidue v) = oddY ↔ v.val % 2 = oddY.toNat :=
  isOdd_eq_iff

theorem isPointAt_iff {x : FieldElement} {oddY : Bool} {R : curve.Point} :
    IsPointAt x.val oddY R ↔ ∃ y, Point.ofCurve R = .affine x y ∧ isOdd y = oddY := by
  constructor
  · intro h
    rcases R with _ | ⟨u, v, huv⟩
    · exact h.elim
    · have hx : ofResidue u = x := Fin.ext h.left
      exact ⟨ofResidue v, by rw [Point.ofCurve_some, hx], isOdd_ofResidue_iff.mpr h.right⟩
  · rintro ⟨y, hR, hodd⟩
    rcases R with _ | ⟨u, v, huv⟩
    · exact absurd hR (by simp [Point.ofCurve])
    · rw [Point.ofCurve_some, Point.affine.injEq] at hR
      obtain ⟨rfl, rfl⟩ := hR
      exact ⟨rfl, isOdd_ofResidue_iff.mp hodd⟩

theorem IsPointAt.lt {x : Nat} {oddY : Bool} {R : curve.Point} (h : IsPointAt x oddY R) :
    x < fieldOrder := by
  rcases R with _ | ⟨u, v, huv⟩
  · exact h.elim
  · exact h.left ▸ u.val_lt

theorem IsPointAt.unique {x : Nat} {oddY : Bool} {R R' : curve.Point} (h : IsPointAt x oddY R)
    (h' : IsPointAt x oddY R') : R = R' := by
  rcases R with _ | ⟨u, v, huv⟩
  · exact h.elim
  rcases R' with _ | ⟨u', v', huv'⟩
  · exact h'.elim
  apply pointCode_injective
  rw [pointCode, pointCode, ZMod.val_injective _ (h.left.trans h'.left.symm),
    isOdd_ofResidue_iff.mpr h.right, isOdd_ofResidue_iff.mpr h'.right]

theorem IsPointAt.neg {x : Nat} {oddY : Bool} {R : curve.Point} (h : IsPointAt x oddY R) :
    IsPointAt x (!oddY) (-R) := by
  rcases R with _ | ⟨u, v, huv⟩
  · exact h.elim
  · refine ⟨h.left, isOdd_ofResidue_iff.mp ?_⟩
    rw [show curve.negY u v = -v by simp [curve], isOdd_ofResidue_neg (y_ne_zero huv),
      isOdd_ofResidue_iff.mpr h.right]

theorem isOdd_neg_of_onCurve {x y : FieldElement} (h : y * y = Point.cubic x) :
    isOdd (-y) = !isOdd y := by
  obtain ⟨P, hP⟩ := Point.onCurve_iff.mp (show (Point.affine x y).OnCurve from h)
  rcases P with _ | ⟨u, v, huv⟩
  · exact absurd hP (by simp [Point.ofCurve])
  · rw [Point.ofCurve_some, Point.affine.injEq] at hP
    refine isOdd_neg fun hy => y_ne_zero huv ?_
    rw [← residue_ofResidue v, hP.right, hy, residue_zero]

/-- Lifting an abscissa finds the point there, if there is one. -/
theorem Point.ofX?_eq_some_iff {x : FieldElement} {oddY : Bool} {point : Point} :
    ofX? x oddY = some point ↔ ∃ R, IsPointAt x.val oddY R ∧ ofCurve R = point := by
  rw [ofX?, Option.map_eq_some_iff]
  constructor
  · rintro ⟨root, hroot, rfl⟩
    have hsquare := mul_self_of_squareRoot? hroot
    obtain ⟨P, hP⟩ := onCurve_iff.mp (show (affine x root).OnCurve from hsquare)
    have hpoint : IsPointAt x.val (isOdd root) P := isPointAt_iff.mpr ⟨root, hP, rfl⟩
    by_cases hodd : isOdd root = oddY
    · exact ⟨P, hodd ▸ hpoint, by rw [if_pos hodd, hP]⟩
    · have hflip : (!isOdd root) = oddY := by
        cases oddY <;> cases h : isOdd root <;> simp_all
      refine ⟨-P, hflip ▸ hpoint.neg, ?_⟩
      rw [if_neg hodd, ofCurve_neg, hP]
      rfl
  · rintro ⟨R, hR, rfl⟩
    obtain ⟨y, hy, hodd⟩ := isPointAt_iff.mp hR
    have hsquare : y * y = cubic x := by
      have hcurve := onCurve_iff.mpr ⟨R, hy⟩
      exact hcurve
    obtain ⟨root, hroot, hsign⟩ := exists_squareRoot? y
    refine ⟨root, hsquare ▸ hroot, ?_⟩
    rw [hy]
    rcases hsign with rfl | rfl
    · rw [if_pos hodd]
    · have hneg : - -y = y := residue_injective (by rw [residue_neg, residue_neg, neg_neg])
      rw [if_neg (by rw [isOdd_neg_of_onCurve hsquare, hodd]; cases oddY <;> simp), hneg]

/-! ### The textbook recovery -/

/-- The key that SEC 1 recovers from the hash `z`, the scalars `r` and `s` of a signature and the
mark of its nonce point: `r⁻¹ (s R - z G)`, unless that is the point at infinity. -/
structure Recovers (z r s : Nat) (id : RecoveryId) (Q : curve.Point) : Prop where
  r_range : 1 ≤ r ∧ r < groupOrder
  s_range : 1 ≤ s ∧ s < groupOrder
  abscissa_lt : r + groupOrder * id.reducedX.toNat < fieldOrder
  quotient : ∃ R, IsPointAt (r + groupOrder * id.reducedX.toNat) id.oddY R ∧
    Q = (r : ZMod groupOrder)⁻¹ • ((s : ZMod groupOrder) • R - (z : ZMod groupOrder) • base)
  ne_zero : Q ≠ 0

theorem noncePoint?_eq_some_iff {signature : Signature} {id : RecoveryId} {point : Point} :
    noncePoint? signature id = some point ↔
      ∃ R, IsPointAt (signature.r.val + groupOrder * id.reducedX.toNat) id.oddY R ∧
        Point.ofCurve R = point := by
  have habscissa : (if id.reducedX then signature.r.val + groupOrder else signature.r.val) =
      signature.r.val + groupOrder * id.reducedX.toNat := by
    cases id.reducedX <;> simp
  simp only [noncePoint?, habscissa]
  by_cases hlt : signature.r.val + groupOrder * id.reducedX.toNat < fieldOrder
  · rw [dif_pos hlt]
    exact Point.ofX?_eq_some_iff
  · rw [dif_neg hlt]
    constructor
    · exact fun h => absurd h (by simp)
    · rintro ⟨R, hR, -⟩
      exact absurd hR.lt hlt

section Recover

variable {z : Scalar} {signature : Signature} {id : RecoveryId} {R : curve.Point}

theorem one_le_val {value : Scalar} (h : value ≠ 0) : 1 ≤ value.val :=
  Nat.pos_of_ne_zero fun hzero => h (Fin.ext hzero)

theorem residue_r_ne_zero (signature : Signature) : residue signature.r ≠ 0 :=
  mt residue_eq_zero_iff.mp signature.r_ne_zero

theorem residue_s_ne_zero (signature : Signature) : residue signature.s ≠ 0 :=
  mt residue_eq_zero_iff.mp signature.s_ne_zero

/-- The key a nonce point belongs to. -/
def recoveredPoint (z : Scalar) (signature : Signature) (R : curve.Point) : curve.Point :=
  (residue signature.r)⁻¹ • (residue signature.s • R - residue z • base)

theorem multiple_add_multiple_eq (z : Scalar) (signature : Signature) (R : curve.Point) :
    Point.generator.multiple (-(inverse signature.r * z)) +
        (Point.ofCurve R).multiple (inverse signature.r * signature.s) =
      Point.ofCurve (recoveredPoint z signature R) := by
  rw [← ofCurve_base, Point.multiple_eq_smul, Point.multiple_eq_smul, ← Point.ofCurve_add,
    residue_neg, residue_mul, residue_mul, Scalar.residue_inverse, recoveredPoint, smul_sub,
    smul_smul, smul_smul, neg_smul, neg_add_eq_sub]

theorem smul_add_smul_quotient {K V : Type} [Field K] [AddCommGroup V] [Module K V] {r s : K}
    (hr : r ≠ 0) (hs : s ≠ 0) (z : K) (G R : V) :
    (z * s⁻¹) • G + (r * s⁻¹) • r⁻¹ • (s • R - z • G) = R := by
  rw [smul_smul, mul_right_comm, mul_inv_cancel₀ hr, one_mul, smul_sub, smul_smul, smul_smul,
    inv_mul_cancel₀ hs, one_smul, mul_comm z, add_sub_cancel]

/-- The two multiples that verification adds up make the nonce point again. -/
theorem verification_sum_eq (z : Scalar) (signature : Signature) (R : curve.Point) :
    Point.generator.multiple (z * inverse signature.s) +
        (Point.ofCurve (recoveredPoint z signature R)).multiple
          (signature.r * inverse signature.s) =
      Point.ofCurve R := by
  rw [← ofCurve_base, Point.multiple_eq_smul, Point.multiple_eq_smul, ← Point.ofCurve_add,
    residue_mul, residue_mul, Scalar.residue_inverse, recoveredPoint,
    smul_add_smul_quotient (residue_r_ne_zero signature) (residue_s_ne_zero signature)]

theorem verify_recoveredPoint (hlow : signature.s.isHigh = false)
    (hR : IsPointAt (signature.r.val + groupOrder * id.reducedX.toNat) id.oddY R) :
    PublicKey.verify ⟨Point.ofCurve (recoveredPoint z signature R)⟩ z signature = true := by
  rcases R with _ | ⟨u, v, huv⟩
  · exact hR.elim
  · have hr : Scalar.reduce u.val = signature.r := by
      apply Fin.ext
      rw [hR.left, Scalar.reduce, Fin.val_ofNat, Nat.add_mul_mod_self_left,
        Nat.mod_eq_of_lt signature.r.isLt]
    simp only [PublicKey.verify, hlow, verification_sum_eq, Point.ofCurve_some, val_ofResidue, hr]
    simp

/-- For a signature in its lower-half form the verification of the key that was found never
fails. -/
theorem recover?_of_low (hlow : signature.s.isHigh = false)
    (hR : IsPointAt (signature.r.val + groupOrder * id.reducedX.toNat) id.oddY R) :
    recover? z signature id =
      if recoveredPoint z signature R = 0 then none
      else some ⟨Point.ofCurve (recoveredPoint z signature R)⟩ := by
  have hnonce : noncePoint? signature id = some (Point.ofCurve R) :=
    noncePoint?_eq_some_iff.mpr ⟨R, hR, rfl⟩
  rw [recover?, hnonce]
  simp only [Option.bind_some, multiple_add_multiple_eq, verify_recoveredPoint hlow hR,
    Bool.and_true]
  by_cases hzero : recoveredPoint z signature R = 0 <;> simp [hzero]

/-! ### The lower-half form -/

theorem isHigh_neg {s : Scalar} (h : s.isHigh = true) : (-s).isHigh = false := by
  have hhigh : groupOrder / 2 < s.val := of_decide_eq_true h
  have hlt := s.isLt
  apply decide_eq_false
  intro hneg
  rw [Fin.val_neg', Nat.mod_eq_of_lt (by omega)] at hneg
  omega

theorem isHigh_normalize (signature : Signature) (id : RecoveryId) :
    (signature.normalize id).1.s.isHigh = false := by
  rw [Signature.normalize]
  by_cases hhigh : signature.s.isHigh = true
  · rw [if_pos hhigh]
    exact isHigh_neg hhigh
  · rw [if_neg hhigh]
    exact Bool.eq_false_of_not_eq_true hhigh

theorem normalize_r (signature : Signature) (id : RecoveryId) :
    (signature.normalize id).1.r = signature.r := by
  rw [Signature.normalize]
  split <;> rfl

theorem normalize_reducedX (signature : Signature) (id : RecoveryId) :
    (signature.normalize id).2.reducedX = id.reducedX := by
  rw [Signature.normalize]
  split <;> rfl

/-- Turning `s` over reflects the nonce point, and the key stays: `(-s) (-R) = s R`. -/
theorem exists_isPointAt_normalize {x : Nat} (z : Scalar) (signature : Signature)
    (hR : IsPointAt x id.oddY R) :
    ∃ R', IsPointAt x (signature.normalize id).2.oddY R' ∧
      recoveredPoint z (signature.normalize id).1 R' = recoveredPoint z signature R := by
  rw [Signature.normalize]
  split
  · refine ⟨-R, hR.neg, ?_⟩
    simp only [recoveredPoint]
    rw [residue_neg, neg_smul, smul_neg, neg_neg]
  · exact ⟨R, hR, rfl⟩

theorem exists_isPointAt_of_normalize {x : Nat}
    (hR : IsPointAt x (signature.normalize id).2.oddY R) : ∃ R', IsPointAt x id.oddY R' := by
  rw [Signature.normalize] at hR
  split at hR
  · exact ⟨-R, by simpa [RecoveryId.flip] using hR.neg⟩
  · exact ⟨R, hR⟩

theorem recovers_iff (hash : Nat) (signature : Signature) (id : RecoveryId) (Q : curve.Point) :
    Recovers hash signature.r.val signature.s.val id Q ↔
      ∃ R, IsPointAt (signature.r.val + groupOrder * id.reducedX.toNat) id.oddY R ∧
        Q = recoveredPoint (Scalar.reduce hash) signature R ∧ Q ≠ 0 := by
  have hpoint (R : curve.Point) : recoveredPoint (Scalar.reduce hash) signature R =
      (signature.r.val : ZMod groupOrder)⁻¹ •
        ((signature.s.val : ZMod groupOrder) • R - (hash : ZMod groupOrder) • base) := by
    rw [recoveredPoint, Scalar.reduce, residue_ofNat]
    rfl
  constructor
  · rintro ⟨-, -, -, ⟨R, hR, rfl⟩, hzero⟩
    exact ⟨R, hR, (hpoint R).symm, hzero⟩
  · rintro ⟨R, hR, rfl, hzero⟩
    exact ⟨⟨one_le_val signature.r_ne_zero, signature.r.isLt⟩,
      ⟨one_le_val signature.s_ne_zero, signature.s.isLt⟩, hR.lt, ⟨R, hR, hpoint R⟩, hzero⟩

/-- Recovery from the lower-half form is the textbook recovery from the signature as it was sent. -/
theorem recover?_normalize_eq_some_iff (hash : Nat) (signature : Signature) (id : RecoveryId)
    (key : PublicKey) :
    recover? (Scalar.reduce hash) (signature.normalize id).1 (signature.normalize id).2 = some key ↔
      ∃ Q, Recovers hash signature.r.val signature.s.val id Q ∧ ⟨Point.ofCurve Q⟩ = key := by
  by_cases hpoint :
      ∃ R, IsPointAt (signature.r.val + groupOrder * id.reducedX.toNat) id.oddY R
  · obtain ⟨R, hR⟩ := hpoint
    obtain ⟨R', hR', hsame⟩ := exists_isPointAt_normalize (Scalar.reduce hash) signature hR
    rw [← normalize_r signature id, ← normalize_reducedX signature id] at hR'
    rw [recover?_of_low (isHigh_normalize signature id) hR', hsame]
    constructor
    · intro h
      split at h
      · exact absurd h (by simp)
      · rename_i hzero
        exact ⟨_, (recovers_iff ..).mpr ⟨R, hR, rfl, hzero⟩, Option.some.inj h⟩
    · rintro ⟨Q, hQ, rfl⟩
      obtain ⟨R₁, hR₁, rfl, hzero⟩ := (recovers_iff ..).mp hQ
      rw [hR₁.unique hR] at hzero ⊢
      rw [if_neg hzero]
  · have hnone : noncePoint? (signature.normalize id).1 (signature.normalize id).2 = none := by
      rw [Option.eq_none_iff_forall_ne_some]
      intro point h
      obtain ⟨R, hR, -⟩ := noncePoint?_eq_some_iff.mp h
      rw [normalize_r, normalize_reducedX] at hR
      exact hpoint (exists_isPointAt_of_normalize hR)
    rw [recover?, hnone]
    constructor
    · exact fun h => absurd h (by simp)
    · rintro ⟨Q, hQ, -⟩
      obtain ⟨R, hR, -⟩ := (recovers_iff ..).mp hQ
      exact absurd ⟨R, hR⟩ hpoint

end Recover

end WalletAuth.Secp256k1
