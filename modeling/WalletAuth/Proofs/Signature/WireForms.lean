import WalletAuth.Proofs.Signature.Signing

/-! The forms one signature travels in. The flag for a compressed key lies above the bits of the code
that recovery reads, and `s` and its opposite share one lower-half form: exactly one of the two is
high, and turning it over flips back the parity that came with it. So the flag may be toggled and the
signature reflected, and the signer stays the same. -/

namespace WalletAuth

namespace Secp256k1

/-! ### Reflection -/

theorem Scalar.val_neg_of_ne_zero {s : Scalar} (h : s ≠ 0) : (-s).val = groupOrder - s.val := by
  have hpos := one_le_val h
  rw [Fin.val_neg', Nat.mod_eq_of_lt (by omega)]

/-- The group order is odd, so of a scalar and its opposite exactly one is high. -/
theorem Scalar.isHigh_neg_eq_not {s : Scalar} (h : s ≠ 0) : (-s).isHigh = !s.isHigh := by
  have hodd : groupOrder = 2 * (groupOrder / 2) + 1 := by decide
  have hlt := s.isLt
  rw [isHigh, isHigh, val_neg_of_ne_zero h, ← decide_not]
  exact decide_eq_decide.mpr (by omega)

theorem RecoveryId.flip_flip (id : RecoveryId) : id.flip.flip = id := by
  rw [flip, flip, Bool.not_not]

theorem Signature.neg_s_ne_zero (signature : Signature) : -signature.s ≠ 0 :=
  Scalar.neg_ne_zero signature.s_ne_zero

/-- The signature with the opposite `s`. -/
def Signature.reflect (signature : Signature) : Signature :=
  ⟨signature.r, -signature.s, signature.r_ne_zero, signature.neg_s_ne_zero⟩

theorem Signature.reflect_reflect (signature : Signature) : signature.reflect.reflect = signature := by
  obtain ⟨r, s, hr, hs⟩ := signature
  simp [reflect]

theorem Signature.normalize_eq (signature : Signature) (id : RecoveryId) :
    signature.normalize id =
      if signature.s.isHigh then (signature.reflect, id.flip) else (signature, id) := rfl

/-- A signature and its reflection have the same lower-half form. -/
theorem Signature.normalize_reflect (signature : Signature) (id : RecoveryId) :
    signature.reflect.normalize id.flip = signature.normalize id := by
  have hhigh : signature.reflect.s.isHigh = !signature.s.isHigh :=
    Scalar.isHigh_neg_eq_not signature.s_ne_zero
  rw [normalize_eq, normalize_eq, hhigh, reflect_reflect, RecoveryId.flip_flip]
  cases signature.s.isHigh <;> rfl

/-! ### Marks -/

theorem RecoveryId.ofNat_xor_four (value : Nat) : ofNat (value ^^^ 4) = ofNat value := by
  have hparity : Nat.testBit 4 0 = false := rfl
  have hreduced : Nat.testBit 4 1 = false := rfl
  simp only [ofNat, Nat.testBit_xor, hparity, hreduced, Bool.xor_false]

theorem RecoveryId.ofNat_xor_one (value : Nat) : ofNat (value ^^^ 1) = (ofNat value).flip := by
  have hparity : Nat.testBit 1 0 = true := rfl
  have hreduced : Nat.testBit 1 1 = false := rfl
  simp only [ofNat, flip, Nat.testBit_xor, hparity, hreduced, Bool.xor_true, Bool.xor_false]

end Secp256k1

open Secp256k1

namespace CompactSignature

/-! ### Forms -/

/-- A code with bits of its distance from the first code turned over. -/
def turnCode (mask : Nat) (code : UInt8) : UInt8 :=
  UInt8.ofNat (firstCode + ((code.toNat - firstCode) ^^^ mask))

/-- The form that says the opposite about the compression of the key. -/
def toggled (signature : CompactSignature) : CompactSignature where
  bytes := turnCode compressedFlag signature.recoveryCode :: signature.bytes.drop 1
  length_bytes := by simp [signature.length_bytes]

/-- The form with `s` taken from the group order and the parity of the nonce point turned over. -/
def reflected (signature : CompactSignature) : CompactSignature where
  bytes := turnCode 1 signature.recoveryCode ::
    ((signature.bytes.drop 1).take 32 ++ Bytes.ofNat 32 (groupOrder - signature.sNumber))
  length_bytes := by simp [signature.length_bytes, Bytes.length_ofNat]

/-- The four forms of a signature: its flag toggled or not, reflected or not. -/
def wireForms (signature : CompactSignature) : List CompactSignature :=
  [signature, signature.toggled, signature.reflected, signature.toggled.reflected]

variable {signature : CompactSignature}

/-! ### Halves -/

theorem sNumber_toggled (signature : CompactSignature) :
    signature.toggled.sNumber = signature.sNumber := by
  show Bytes.toNat ((signature.bytes.drop 1).drop 32) = _
  rw [List.drop_drop, sNumber]

theorem rNumber_reflected (signature : CompactSignature) :
    signature.reflected.rNumber = signature.rNumber := by
  have hlength : ((signature.bytes.drop 1).take 32).length = 32 := by
    simp [signature.length_bytes]
  show Bytes.toNat (((signature.bytes.drop 1).take 32 ++ _).take 32) = _
  rw [List.take_left' hlength, rNumber]

theorem sNumber_reflected (signature : CompactSignature) :
    signature.reflected.sNumber = groupOrder - signature.sNumber := by
  have hlength : ((signature.bytes.drop 1).take 32).length = 32 := by
    simp [signature.length_bytes]
  have hwidth : groupOrder < 256 ^ 32 := by decide
  show Bytes.toNat (((signature.bytes.drop 1).take 32 ++ _).drop 32) = _
  rw [List.drop_left' hlength, Bytes.toNat_ofNat (by omega)]

/-- The halves of the reflected form are those of the reflected signature. -/
theorem ofBytes?_drop_one_reflected (hs : signature.sNumber < groupOrder) :
    Signature.ofBytes? (signature.reflected.bytes.drop 1) =
      (Signature.ofBytes? (signature.bytes.drop 1)).map Signature.reflect := by
  ext pair
  rw [ofBytes?_drop_one_iff, Option.map_eq_some_iff, rNumber_reflected, sNumber_reflected]
  constructor
  · rintro ⟨hr, hopposite⟩
    have hneg : (-pair.s).val = groupOrder - pair.s.val := Scalar.val_neg_of_ne_zero pair.s_ne_zero
    refine ⟨pair.reflect, ofBytes?_drop_one_iff.mpr ⟨hr, ?_⟩, pair.reflect_reflect⟩
    show signature.sNumber = (-pair.s).val
    omega
  · rintro ⟨sent, hsent, rfl⟩
    obtain ⟨hr, hsame⟩ := ofBytes?_drop_one_iff.mp hsent
    rw [hsame]
    exact ⟨hr, (Scalar.val_neg_of_ne_zero sent.s_ne_zero).symm⟩

/-! ### Recovery -/

section Code

variable (hfirst : 27 ≤ signature.recoveryCode.toNat) (hlast : signature.recoveryCode.toNat ≤ 34)

include hfirst hlast

theorem toNat_turnCode {mask : Nat} (hmask : mask < 8) :
    (turnCode mask signature.recoveryCode).toNat =
        27 + ((signature.recoveryCode.toNat - 27) ^^^ mask) ∧
      (turnCode mask signature.recoveryCode).toNat ≤ 34 := by
  have hxor : (signature.recoveryCode.toNat - 27) ^^^ mask < 2 ^ 3 :=
    Nat.xor_lt_two_pow (by omega) hmask
  have hcode : (turnCode mask signature.recoveryCode).toNat =
      27 + ((signature.recoveryCode.toNat - 27) ^^^ mask) :=
    Bytes.toNat_byte (show 27 + ((signature.recoveryCode.toNat - 27) ^^^ mask) < 256 by omega)
  omega

theorem recoveryCode_toggled :
    signature.toggled.recoveryCode.toNat = 27 + ((signature.recoveryCode.toNat - 27) ^^^ 4) ∧
      signature.toggled.recoveryCode.toNat ≤ 34 :=
  toNat_turnCode hfirst hlast (show 4 < 8 by decide)

theorem recoveryCode_reflected :
    signature.reflected.recoveryCode.toNat = 27 + ((signature.recoveryCode.toNat - 27) ^^^ 1) ∧
      signature.reflected.recoveryCode.toNat ≤ 34 :=
  toNat_turnCode hfirst hlast (show 1 < 8 by decide)

theorem recover?_of_code (hash : Bytes) :
    signature.recover? hash =
      (Signature.ofBytes? (signature.bytes.drop 1)).bind fun sent =>
        let made := sent.normalize (RecoveryId.ofNat (signature.recoveryCode.toNat - 27))
        Secp256k1.recover? (Scalar.reduce hash.toNat) made.1 made.2 :=
  if_pos ⟨hfirst, hlast⟩

/-- The flag lies above the two bits that recovery reads. -/
theorem recover?_toggled (hash : Bytes) : signature.toggled.recover? hash = signature.recover? hash := by
  obtain ⟨hcode, hle⟩ := recoveryCode_toggled hfirst hlast
  rw [recover?_of_code hfirst hlast, recover?_of_code (by omega) hle, hcode,
    Nat.add_sub_cancel_left, RecoveryId.ofNat_xor_four]
  rfl

/-- The parity is turned over together with `s`, which leaves the lower-half form as it was. -/
theorem recover?_reflected (hs : signature.sNumber < groupOrder) (hash : Bytes) :
    signature.reflected.recover? hash = signature.recover? hash := by
  obtain ⟨hcode, hle⟩ := recoveryCode_reflected hfirst hlast
  rw [recover?_of_code hfirst hlast, recover?_of_code (by omega) hle, hcode,
    Nat.add_sub_cancel_left, RecoveryId.ofNat_xor_one, ofBytes?_drop_one_reflected hs,
    Option.bind_map]
  simp only [Function.comp_def, Signature.normalize_reflect]

theorem recover?_of_mem_wireForms (hs : signature.sNumber < groupOrder) (hash : Bytes) :
    ∀ form ∈ signature.wireForms, form.recover? hash = signature.recover? hash := by
  obtain ⟨hcode, hle⟩ := recoveryCode_toggled hfirst hlast
  have htoggled : signature.toggled.sNumber < groupOrder := sNumber_toggled signature ▸ hs
  intro form hform
  simp only [wireForms, List.mem_cons, List.not_mem_nil, or_false] at hform
  rcases hform with rfl | rfl | rfl | rfl
  · rfl
  · exact recover?_toggled hfirst hlast hash
  · exact recover?_reflected hfirst hlast hs hash
  · rw [recover?_reflected (by omega) hle htoggled, recover?_toggled hfirst hlast]

end Code

/-- All four forms of a signature are given the same answer, the same signer or none, and this for a
low `s` and for a high one. -/
theorem recoverSigner_wireForms
    (hcode : 27 ≤ signature.recoveryCode.toNat ∧ signature.recoveryCode.toNat ≤ 34)
    (hs : signature.sNumber < groupOrder) (message : Bytes) :
    ∀ form ∈ signature.wireForms,
      recoverSigner (some message) (some form.bytes) =
        recoverSigner (some message) (some signature.bytes) := by
  intro form hform
  rw [recoverSigner_bytes, recoverSigner_bytes,
    recover?_of_mem_wireForms hcode.left hcode.right hs _ form hform]

/-- The high form of a signature that was made low, with the flag left out. -/
theorem recoverSigner_wireForms_sign :
    ∃ signature : CompactSignature,
      (27 ≤ signature.recoveryCode.toNat ∧ signature.recoveryCode.toNat ≤ 34) ∧
      signature.sNumber < groupOrder ∧ groupOrder / 2 < signature.toggled.reflected.sNumber ∧
      recoverSigner (some (Bytes.ofString "Sign")) (some signature.toggled.reflected.bytes) =
        .ok (some (SigningKey.publicKey ⟨7, by decide⟩)) := by
  obtain ⟨signature, hsign⟩ := exists_sign_seven
  obtain ⟨_, nonce, pair, id, hmessage, hmade, rfl⟩ := exists_of_sign hsign
  obtain rfl := Option.some.inj hmessage
  have hid := id.toNat_lt
  have hcode := recoveryCode_ofSignature pair id
  have hnumber : (ofSignature pair id).sNumber = pair.s.val := sNumber_ofSignature pair id
  have hlow : ¬groupOrder / 2 < pair.s.val := of_decide_eq_false (isHigh_of_signWith? hmade)
  have hodd : groupOrder = 2 * (groupOrder / 2) + 1 := by decide
  have hs : (ofSignature pair id).sNumber < groupOrder := by omega
  have hrange : 27 ≤ (ofSignature pair id).recoveryCode.toNat ∧
      (ofSignature pair id).recoveryCode.toNat ≤ 34 := by omega
  refine ⟨ofSignature pair id, hrange, hs, ?_, ?_⟩
  · rw [sNumber_reflected, sNumber_toggled]
    omega
  · rw [recoverSigner_wireForms hrange hs _ _ (by simp [wireForms]), recoverSigner_bytes,
      recover?_of_signWith? hmade]

end CompactSignature

end WalletAuth
