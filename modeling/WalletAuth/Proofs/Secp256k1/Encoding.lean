import WalletAuth.Proofs.Encoding.Hex
import WalletAuth.Proofs.Secp256k1.Recovery

/-! How scalars, signatures and keys are written. A pair of halves is a signature exactly when both
are between one and the group order; a key is named by one text only, 66 lower-case digits. -/

open WeierstrassCurve.Affine

namespace WalletAuth.Secp256k1

/-! ### Scalars and signatures -/

theorem Scalar.ofBytes?_eq_some_iff {bs : Bytes} {value : Scalar} :
    ofBytes? bs = some value ↔ bs.toNat = value.val := by
  rw [ofBytes?]
  by_cases hlt : bs.toNat < groupOrder
  · rw [dif_pos hlt, Option.some.injEq, Fin.ext_iff]
  · rw [dif_neg hlt]
    exact iff_of_false (by simp) fun h => hlt (h ▸ value.isLt)

theorem Scalar.toNat_toBytes (value : Scalar) : value.toBytes.toNat = value.val :=
  Bytes.toNat_ofNat (value.isLt.trans (by decide : groupOrder < 256 ^ 32))

theorem Scalar.length_toBytes (value : Scalar) : value.toBytes.length = 32 :=
  Bytes.length_ofNat 32 value.val

namespace Signature

theorem ofScalars?_eq_some_iff {r s : Scalar} {signature : Signature} :
    ofScalars? r s = some signature ↔ signature.r = r ∧ signature.s = s := by
  rw [ofScalars?]
  constructor
  · intro h
    split at h
    · rw [Option.some.injEq] at h
      exact h ▸ ⟨rfl, rfl⟩
    · exact absurd h (by simp)
  · rintro ⟨rfl, rfl⟩
    rw [dif_pos ⟨signature.r_ne_zero, signature.s_ne_zero⟩]

theorem ofBytes?_eq_some_iff {bs : Bytes} {signature : Signature} :
    ofBytes? bs = some signature ↔
      Bytes.toNat (bs.take 32) = signature.r.val ∧ Bytes.toNat (bs.drop 32) = signature.s.val := by
  simp only [ofBytes?, Option.bind_eq_some_iff, Scalar.ofBytes?_eq_some_iff, ofScalars?_eq_some_iff]
  constructor
  · rintro ⟨r, hr, s, hs, rfl, rfl⟩
    exact ⟨hr, hs⟩
  · rintro ⟨hr, hs⟩
    exact ⟨signature.r, hr, signature.s, hs, rfl, rfl⟩

/-- Two halves in range make a signature. -/
theorem exists_ofBytes? (bs : Bytes) (hr : 1 ≤ Bytes.toNat (bs.take 32))
    (hr' : Bytes.toNat (bs.take 32) < groupOrder) (hs : 1 ≤ Bytes.toNat (bs.drop 32))
    (hs' : Bytes.toNat (bs.drop 32) < groupOrder) : ∃ signature, ofBytes? bs = some signature := by
  have hne {value : Nat} (hpos : 1 ≤ value) (hlt : value < groupOrder) :
      (⟨value, hlt⟩ : Scalar) ≠ 0 := fun h => absurd (congrArg Fin.val h) (by simp; omega)
  exact ⟨⟨⟨_, hr'⟩, ⟨_, hs'⟩, hne hr hr', hne hs hs'⟩, ofBytes?_eq_some_iff.mpr ⟨rfl, rfl⟩⟩

/-- A signature that was written reads back. -/
theorem ofBytes?_toBytes (signature : Signature) : ofBytes? signature.toBytes = some signature := by
  have hlength := signature.r.length_toBytes
  rw [ofBytes?_eq_some_iff, toBytes, List.take_left' hlength, List.drop_left' hlength,
    Scalar.toNat_toBytes, Scalar.toNat_toBytes]
  exact ⟨rfl, rfl⟩

end Signature

theorem RecoveryId.toNat_lt (id : RecoveryId) : id.toNat < 4 := by
  obtain ⟨oddY, reducedX⟩ := id
  cases oddY <;> cases reducedX <;> decide

/-- Only the two lowest bits are looked at, so a number added above them does no harm. -/
theorem RecoveryId.ofNat_add_toNat (id : RecoveryId) : ofNat (4 + id.toNat) = id := by
  obtain ⟨oddY, reducedX⟩ := id
  cases oddY <;> cases reducedX <;> decide

/-! ### Keys -/

/-- The text of a point: 66 lower-case digits that write the parity of the ordinate in the first
byte and then the abscissa. The point at infinity has none. -/
def IsCompressedText (text : String) : curve.Point → Prop
  | .zero => False
  | .some x y _ =>
    text.length = 66 ∧ Hex.IsLowerText text ∧ ∃ abscissa : Bytes,
      Hex.decode? (Bytes.ofString text) = some (UInt8.ofNat (2 + y.val % 2) :: abscissa) ∧
        abscissa.toNat = x.val

theorem compressed_ofCurve_some {x y : ZMod fieldOrder} (h : curve.Nonsingular x y) :
    (Point.ofCurve (.some x y h)).compressed =
      UInt8.ofNat (2 + y.val % 2) :: Bytes.ofNat 32 x.val := by
  rw [Point.ofCurve_some, Point.compressed, isOdd, val_ofResidue, val_ofResidue]
  rcases Nat.mod_two_eq_zero_or_one y.val with hparity | hparity <;> rw [hparity] <;> rfl

theorem length_of_decode? {text : String} {bs : Bytes} (hlower : Hex.IsLowerText text)
    (h : Hex.decode? (Bytes.ofString text) = some bs) : text.length = 2 * bs.length := by
  rw [← Hex.encodeText_of_decode? hlower h, Hex.length_encodeText]

theorem PublicKey.hex_ne_empty (key : PublicKey) : key.hex ≠ "" := by
  have hlength : key.hex.length = 2 * key.point.compressed.length := Hex.length_encodeText _
  intro hempty
  rw [hempty] at hlength
  cases hpoint : key.point with
  | infinity => simp [hpoint, Point.compressed] at hlength
  | affine x y => simp [hpoint, Point.compressed] at hlength

/-- A finite point has exactly one text, the one that is written for its key. -/
theorem isCompressedText_iff {text : String} {Q : curve.Point} :
    IsCompressedText text Q ↔ Q ≠ 0 ∧ PublicKey.hex ⟨Point.ofCurve Q⟩ = text := by
  rcases Q with _ | ⟨x, y, hxy⟩
  · exact iff_of_false id fun h => h.left rfl
  have hx : x.val < 256 ^ 32 := x.val_lt.trans (by decide)
  rw [PublicKey.hex, compressed_ofCurve_some]
  constructor
  · rintro ⟨hlength, hlower, abscissa, hdecode, habscissa⟩
    have hwidth : abscissa.length = 32 := by
      have hbytes := length_of_decode? hlower hdecode
      rw [List.length_cons] at hbytes
      omega
    refine ⟨Point.some_ne_zero hxy, ?_⟩
    rw [← habscissa, ← hwidth, Bytes.ofNat_toNat, Hex.encodeText_of_decode? hlower hdecode]
  · rintro ⟨-, rfl⟩
    refine ⟨?_, Hex.isLowerText_encodeText _, Bytes.ofNat 32 x.val, ?_, Bytes.toNat_ofNat hx⟩
    · rw [Hex.length_encodeText, List.length_cons, Bytes.length_ofNat]
    · rw [Hex.ofString_encodeText, Hex.decode?_encode]

/-- A text names at most one point: its first byte holds the parity of the ordinate, the others the
abscissa. -/
theorem IsCompressedText.unique {text : String} {Q Q' : curve.Point} (h : IsCompressedText text Q)
    (h' : IsCompressedText text Q') : Q' = Q := by
  rcases Q with _ | ⟨x, y, hxy⟩
  · exact h.elim
  rcases Q' with _ | ⟨x', y', hxy'⟩
  · exact h'.elim
  obtain ⟨-, -, abscissa, hdecode, hx⟩ := h
  obtain ⟨-, -, abscissa', hdecode', hx'⟩ := h'
  rw [hdecode, Option.some.injEq, List.cons.injEq] at hdecode'
  obtain ⟨hfirst, rfl⟩ := hdecode'
  have hparity : y'.val % 2 = y.val % 2 := by
    have hnumber := congrArg UInt8.toNat hfirst
    rw [Bytes.toNat_byte (by omega), Bytes.toNat_byte (by omega)] at hnumber
    omega
  have hpoint : IsPointAt x.val (isOdd (ofResidue y)) (.some x y hxy) :=
    ⟨rfl, isOdd_ofResidue_iff.mp rfl⟩
  have hpoint' : IsPointAt x.val (isOdd (ofResidue y)) (.some x' y' hxy') :=
    ⟨hx'.symm.trans hx, hparity.trans hpoint.right⟩
  exact hpoint'.unique hpoint

end WalletAuth.Secp256k1
