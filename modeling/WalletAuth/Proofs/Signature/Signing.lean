import WalletAuth.Proofs.Encoding.Base64Url
import WalletAuth.Proofs.Signature.Recovery

/-! A signer is recovered from its own signatures. The nonce point is `k G`, and
`r⁻¹ (s (k G) - z G)` with `s = k⁻¹ (z + r d)` is `d G`, the public half of the key; the mark that
is sent along says which of the points at `r` the nonce point is. -/

open WeierstrassCurve.Affine

namespace WalletAuth

namespace Secp256k1

variable {key : SigningKey} {hash : Nat} {nonce : Scalar} {pair : Signature} {id : RecoveryId}

/-- The point of a public key. -/
def SigningKey.publicPoint (key : SigningKey) : curve.Point :=
  residue key.secret • base

theorem SigningKey.publicKey_eq (key : SigningKey) :
    key.publicKey = ⟨Point.ofCurve key.publicPoint⟩ := by
  rw [publicKey, publicPoint, ← Point.multiple_eq_smul, ofCurve_base]

theorem SigningKey.publicPoint_ne_zero (key : SigningKey) : key.publicPoint ≠ 0 :=
  smul_ne_zero (mt residue_eq_zero_iff.mp key.secret_ne_zero) base_ne_zero

theorem inv_smul_sub_smul {K V : Type} [Field K] [AddCommGroup V] [Module K V] {k r : K}
    (hk : k ≠ 0) (hr : r ≠ 0) (z d : K) (G : V) :
    r⁻¹ • ((k⁻¹ * (z + r * d)) • k • G - z • G) = d • G := by
  rw [smul_smul, mul_right_comm, inv_mul_cancel₀ hk, one_mul, add_smul, add_sub_cancel_left,
    smul_smul, ← mul_assoc, inv_mul_cancel₀ hr, one_mul]

/-- The field order is below twice the group order, so an abscissa is reduced at most once. -/
theorem reduce_add_mul_toNat (x : FieldElement) :
    (Scalar.reduce x.val).val + groupOrder * (decide (groupOrder ≤ x.val)).toNat = x.val := by
  have hdouble : fieldOrder < groupOrder + groupOrder := by decide
  have hlt := x.isLt
  rw [Scalar.reduce, Fin.val_ofNat]
  by_cases hle : groupOrder ≤ x.val
  · rw [decide_eq_true hle, Bool.toNat_true, Nat.mod_eq_sub_mod hle, Nat.mod_eq_of_lt (by omega)]
    omega
  · rw [decide_eq_false hle, Bool.toNat_false, Nat.mod_eq_of_lt (by omega)]
    omega

/-- What signing has at hand before the signature is turned to its lower-half form. -/
theorem exists_of_signWith? {z : Scalar} (h : key.signWith? z nonce = some (pair, id)) :
    ∃ (made : Signature) (mark : RecoveryId) (R : curve.Point),
      made.normalize mark = (pair, id) ∧
        IsPointAt (made.r.val + groupOrder * mark.reducedX.toNat) mark.oddY R ∧
          recoveredPoint z made R = key.publicPoint := by
  have hnonce : Point.generator.multiple nonce = Point.ofCurve (residue nonce • base) := by
    rw [← Point.multiple_eq_smul, ofCurve_base]
  rw [SigningKey.signWith?] at h
  split at h
  · exact absurd h (by simp)
  rename_i x y hpoint
  obtain ⟨made, hmade, hpair⟩ := Option.map_eq_some_iff.mp h
  obtain ⟨hr, hs⟩ := Signature.ofScalars?_eq_some_iff.mp hmade
  have haffine : Point.ofCurve (residue nonce • base) = .affine x y := hnonce ▸ hpoint
  have hk : residue nonce ≠ 0 := by
    intro hzero
    have hinfinity : Point.ofCurve (residue nonce • base) = .infinity := by
      rw [Point.ofCurve_eq_infinity_iff, hzero]
      exact zero_smul (ZMod groupOrder) base
    exact absurd (haffine.symm.trans hinfinity) (by simp)
  refine ⟨made, _, residue nonce • base, hpair, ?_, ?_⟩
  · rw [hr, reduce_add_mul_toNat]
    exact isPointAt_iff.mpr ⟨y, haffine, rfl⟩
  · have hresidue : residue made.s =
        (residue nonce)⁻¹ * (residue z + residue made.r * residue key.secret) := by
      rw [hs, hr, residue_mul, residue_add, residue_mul, Scalar.residue_inverse]
    rw [recoveredPoint, hresidue, inv_smul_sub_smul hk (residue_r_ne_zero made)]
    rfl

/-- The textbook recovers the signer. -/
theorem recovers_of_signWith? (h : key.signWith? (Scalar.reduce hash) nonce = some (pair, id)) :
    Recovers hash pair.r.val pair.s.val id key.publicPoint := by
  obtain ⟨made, mark, R, hpair, hR, hpoint⟩ := exists_of_signWith? h
  obtain ⟨R', hR', hsame⟩ :=
    exists_isPointAt_normalize (Scalar.reduce hash) made hR
  rw [← normalize_r made mark, ← normalize_reducedX made mark, hpair] at hR'
  rw [hpair, hpoint] at hsame
  exact (recovers_iff ..).mpr ⟨R', hR', hsame.symm, key.publicPoint_ne_zero⟩

theorem isHigh_of_signWith? {z : Scalar} (h : key.signWith? z nonce = some (pair, id)) :
    pair.s.isHigh = false := by
  obtain ⟨made, mark, -, hpair, -, -⟩ := exists_of_signWith? h
  have hlow := isHigh_normalize made mark
  rwa [hpair] at hlow

end Secp256k1

open Secp256k1

namespace CompactSignature

variable (pair : Signature) (id : RecoveryId)

theorem recoveryCode_ofSignature :
    (ofSignature pair id).recoveryCode.toNat = 27 + (4 + id.toNat) := by
  have hid := id.toNat_lt
  show (UInt8.ofNat (27 + 4 + id.toNat)).toNat = _
  rw [Bytes.toNat_byte (by omega), Nat.add_assoc]

theorem ofBytes?_drop_one_ofSignature :
    Signature.ofBytes? ((ofSignature pair id).bytes.drop 1) = some pair :=
  Signature.ofBytes?_toBytes pair

theorem rNumber_ofSignature : (ofSignature pair id).rNumber = pair.r.val :=
  (ofBytes?_drop_one_iff.mp (ofBytes?_drop_one_ofSignature pair id)).left

theorem sNumber_ofSignature : (ofSignature pair id).sNumber = pair.s.val :=
  (ofBytes?_drop_one_iff.mp (ofBytes?_drop_one_ofSignature pair id)).right

/-- The code that is sent lies four above the mark of the nonce point, which changes nothing in the
bits that recovery reads. -/
theorem recoversPoint_ofSignature {hash : Bytes} {Q : curve.Point}
    (h : Recovers hash.toNat pair.r.val pair.s.val id Q) :
    (ofSignature pair id).RecoversPoint hash Q := by
  have hid := id.toNat_lt
  refine ⟨?_, ?_, ?_⟩
  · rw [recoveryCode_ofSignature]
    omega
  · rw [recoveryCode_ofSignature]
    omega
  · rwa [recoveryCode_ofSignature, rNumber_ofSignature, sNumber_ofSignature,
      Nat.add_sub_cancel_left, RecoveryId.ofNat_add_toNat]

theorem decodeBase64_encodeText (bytes : Bytes) :
    decodeBase64 (Base64Url.encodeText bytes) = .ok bytes := by
  rw [decodeBase64, Base64Url.ofString_encodeText, Base64Url.decode_encode]

end CompactSignature

variable {message : Bytes} {key : SigningKey} {signature : CompactSignature}

theorem exists_of_sign {input : Option Bytes} (h : sign input key = .ok signature) :
    ∃ message nonce pair id, input = some message ∧
      key.signWith? (Scalar.reduce (digest message).toNat) nonce = some (pair, id) ∧
        CompactSignature.ofSignature pair id = signature := by
  unfold sign at h
  -- Any nonce will do; the kernel would run a named generator to split the cases.
  obtain ⟨draw, hdraw⟩ : ∃ draw, nonce? = draw := ⟨_, rfl⟩
  rw [hdraw] at h
  cases input with
  | none => exact absurd h (by simp)
  | some message =>
      simp only at h
      split at h
      · rename_i pair id hmade
        obtain ⟨nonce, -, hsign⟩ := Option.bind_eq_some_iff.mp hmade
        exact ⟨message, nonce, pair, id, rfl, hsign, Except.ok.inj h⟩
      · exact absurd h (by simp)

/-- A signature recovers to the key that made it, whatever the nonce. -/
theorem recover?_of_signWith? {nonce : Scalar} {pair : Signature} {id : RecoveryId}
    (h : key.signWith? (Scalar.reduce (digest message).toNat) nonce = some (pair, id)) :
    (CompactSignature.ofSignature pair id).recover? (digest message) = some key.publicKey := by
  rw [CompactSignature.recover?_eq_some_iff, key.publicKey_eq]
  exact ⟨_, CompactSignature.recoversPoint_ofSignature pair id (recovers_of_signWith? h), rfl⟩

theorem recover?_of_sign (h : sign (some message) key = .ok signature) :
    signature.recover? (digest message) = some key.publicKey := by
  obtain ⟨_, nonce, pair, id, hmessage, hmade, rfl⟩ := exists_of_sign h
  obtain rfl := Option.some.inj hmessage
  exact recover?_of_signWith? hmade

theorem recoverTextSigner_toBase64_iff {text : String} {signer : PublicKey} :
    recoverTextSigner signature.toBase64 text = .ok signer ↔
      signature.recover? (digest (Bytes.ofString text)) = some signer := by
  rw [recoverTextSigner, CompactSignature.toBase64, CompactSignature.decodeBase64_encodeText]
  simp only [Except.bind, recoverSigner_bytes]
  cases signature.recover? (digest (Bytes.ofString text)) <;> simp

theorem recoverTextSigner_toBase64 {text : String}
    (h : signature.recover? (digest (Bytes.ofString text)) = some key.publicKey) :
    recoverTextSigner signature.toBase64 text = .ok key.publicKey :=
  recoverTextSigner_toBase64_iff.mpr h

/-- Whatever is signed recovers to its signer, from the bytes and from the text alike, and it
travels in the one form wallets send: marked as compressed, with a low second half. -/
theorem recoverSigner_of_sign (h : sign (some message) key = .ok signature) :
    recoverSigner (some message) (some signature.bytes) = .ok (some key.publicKey) ∧
      (∀ text, Bytes.ofString text = message →
        recoverTextSigner signature.toBase64 text = .ok key.publicKey) ∧
      (31 ≤ signature.recoveryCode.toNat ∧ signature.recoveryCode.toNat ≤ 34) ∧
      1 ≤ signature.sNumber ∧ signature.sNumber ≤ groupOrder / 2 := by
  obtain ⟨_, nonce, pair, id, hmessage, hsign, rfl⟩ := exists_of_sign h
  obtain rfl := Option.some.inj hmessage
  have hrecover := recover?_of_signWith? hsign
  have hid := id.toNat_lt
  have hlow : ¬groupOrder / 2 < pair.s.val := of_decide_eq_false (isHigh_of_signWith? hsign)
  refine ⟨?_, ?_, ?_, ?_⟩
  · rw [recoverSigner_bytes, hrecover]
  · rintro text rfl
    exact recoverTextSigner_toBase64 hrecover
  · rw [CompactSignature.recoveryCode_ofSignature]
    omega
  · rw [CompactSignature.sNumber_ofSignature]
    exact ⟨one_le_val pair.s_ne_zero, Nat.le_of_not_lt hlow⟩

theorem Secp256k1.NonceGenerator.absorb_eq {state : NonceGenerator} {mark : UInt8}
    {data key value : Bytes}
    (hkey : Hmac.code state.key (state.value ++ mark :: data) = key)
    (hvalue : Hmac.code key state.value = value) : state.absorb mark data = ⟨key, value⟩ := by
  rw [absorb, hkey, hvalue]

/-- The nonce, if the first output is one already. -/
theorem Secp256k1.nonce?_eq {secret nonce : Scalar}
    {hash key value laterKey laterValue output : Bytes}
    (hfirst : NonceGenerator.absorb ⟨List.replicate 32 0, List.replicate 32 1⟩ 0
      (secret.toBytes ++ hash) = ⟨key, value⟩)
    (hsecond : NonceGenerator.absorb ⟨key, value⟩ 1 (secret.toBytes ++ hash) =
      ⟨laterKey, laterValue⟩)
    (houtput : Hmac.code laterKey laterValue = output)
    (hnonce : Scalar.ofBytes? output = some nonce) (hne : nonce ≠ 0) :
    nonce? secret hash = some nonce := by
  rw [nonce?, NonceGenerator.seed, hfirst, hsecond, NonceGenerator.firstScalar?,
    NonceGenerator.next, houtput]
  simp only [hnonce]
  exact if_pos hne

theorem exists_sign {input : Option Bytes} {hash : Bytes} {nonce : Scalar}
    (hinput : input = some message) (hhash : digest message = hash)
    (hnonce : nonce? key.secret hash = some nonce)
    (hmade : (key.signWith? (Scalar.reduce hash.toNat) nonce).isSome = true) :
    ∃ signature, sign input key = .ok signature := by
  obtain ⟨made, hmade⟩ := Option.isSome_iff_exists.mp hmade
  refine ⟨CompactSignature.ofSignature made.1 made.2, ?_⟩
  unfold sign
  -- No generator is named here either.
  obtain ⟨draw, hdraw⟩ : ∃ draw, nonce? = draw := ⟨_, rfl⟩
  rw [hdraw] at hnonce ⊢
  simp only [hinput, hhash, hnonce, Option.bind_some, hmade]

/-- The codes behind a nonce are checked one at a time: the kernel keeps every word of a computation
until it is done with it. -/
theorem nonce?_seven :
    nonce? ⟨7, by decide⟩
        (Bytes.ofNat 32 0xe968e0cf1febd4ab99d0e80b00292caf5ed827364b26c103fc3acb62ebe536a4) =
      some ⟨0xd2f8d9a505e5c4b8dc331f05b3595345ebaef82a0bd955365445aafb5171a6b2, by decide⟩ := by
  have hfirst : NonceGenerator.absorb ⟨List.replicate 32 0, List.replicate 32 1⟩ 0
      (Scalar.toBytes ⟨7, by decide⟩ ++
        Bytes.ofNat 32 0xe968e0cf1febd4ab99d0e80b00292caf5ed827364b26c103fc3acb62ebe536a4) =
      ⟨Bytes.ofNat 32 0x4e9814798e5bb1f4587944b39dcd5c4b631e99be159f84415bbee8129aa1ba4d,
        Bytes.ofNat 32 0x8b0fe157c8d746f54477fc4280c16fa2169cb20d6cd0fab6305f545bd2bd605d⟩ :=
    NonceGenerator.absorb_eq (by decide +kernel) (by decide +kernel)
  have hsecond : NonceGenerator.absorb
      ⟨Bytes.ofNat 32 0x4e9814798e5bb1f4587944b39dcd5c4b631e99be159f84415bbee8129aa1ba4d,
        Bytes.ofNat 32 0x8b0fe157c8d746f54477fc4280c16fa2169cb20d6cd0fab6305f545bd2bd605d⟩ 1
      (Scalar.toBytes ⟨7, by decide⟩ ++
        Bytes.ofNat 32 0xe968e0cf1febd4ab99d0e80b00292caf5ed827364b26c103fc3acb62ebe536a4) =
      ⟨Bytes.ofNat 32 0xb56d86ac1a53f34f14e24447f0344b477789f17bce4fab19f95f0b1c4ba20f4e,
        Bytes.ofNat 32 0xb5e164ef46a12eec472870a425214f2fe352383a06473cd2961225e288abf936⟩ :=
    NonceGenerator.absorb_eq (by decide +kernel) (by decide +kernel)
  have houtput : Hmac.code
      (Bytes.ofNat 32 0xb56d86ac1a53f34f14e24447f0344b477789f17bce4fab19f95f0b1c4ba20f4e)
      (Bytes.ofNat 32 0xb5e164ef46a12eec472870a425214f2fe352383a06473cd2961225e288abf936) =
        Bytes.ofNat 32 0xd2f8d9a505e5c4b8dc331f05b3595345ebaef82a0bd955365445aafb5171a6b2 := by
    decide +kernel
  exact nonce?_eq hfirst hsecond houtput (by decide +kernel) (by decide +kernel)

theorem exists_sign_seven :
    ∃ signature, sign (some (Bytes.ofString "Sign")) ⟨7, by decide⟩ = .ok signature := by
  have hdigest : digest (Bytes.ofString "Sign") =
      Bytes.ofNat 32 0xe968e0cf1febd4ab99d0e80b00292caf5ed827364b26c103fc3acb62ebe536a4 := by
    decide +kernel
  exact exists_sign rfl hdigest nonce?_seven (by decide +kernel)

theorem recoverSigner_of_sign_seven :
    ∃ signature, sign (some (Bytes.ofString "Sign")) ⟨7, by decide⟩ = .ok signature ∧
      recoverSigner (some (Bytes.ofString "Sign")) (some signature.bytes) =
        .ok (some (SigningKey.publicKey ⟨7, by decide⟩)) ∧
      recoverTextSigner signature.toBase64 "Sign" = .ok (SigningKey.publicKey ⟨7, by decide⟩) := by
  obtain ⟨signature, hsign⟩ := exists_sign_seven
  obtain ⟨hbytes, htext, -, -⟩ := recoverSigner_of_sign hsign
  exact ⟨signature, hsign, hbytes, htext "Sign" rfl⟩

end WalletAuth
