import WalletAuth.Proofs.Signature.Timestamp

/-! A signature binds its signer to the digest of one message. With the nonce point and both halves
fixed, `r⁻¹ (s R - z G)` takes another value for every other scalar `z`, and a key has a text of its
own; so the signer is named for another message only if the digests of both are the same modulo the
group order. A signed timestamp is bound to the time in it in the same way. -/

open WeierstrassCurve.Affine

namespace WalletAuth

namespace Secp256k1

/-! ### Hashes -/

theorem inv_smul_sub_smul_inj {K V : Type} [Field K] [AddCommGroup V] [Module K V] {r : K} {G : V}
    (hr : r ≠ 0) (hG : G ≠ 0) (s z z' : K) (R : V) :
    r⁻¹ • (s • R - z • G) = r⁻¹ • (s • R - z' • G) ↔ z = z' := by
  rw [smul_right_inj (inv_ne_zero hr), sub_right_inj, ← sub_eq_zero, ← sub_smul,
    smul_eq_zero_iff_left hG, sub_eq_zero]

section Recovers

variable {z z' r s : Nat} {id : RecoveryId} {Q : curve.Point}

/-- Of the hash, recovery uses only the remainder modulo the group order. -/
theorem Recovers.congr (h : Recovers z r s id Q) (hmod : z ≡ z' [MOD groupOrder]) :
    Recovers z' r s id Q where
  r_range := h.r_range
  s_range := h.s_range
  abscissa_lt := h.abscissa_lt
  quotient := by
    rw [← (ZMod.natCast_eq_natCast_iff z z' groupOrder).mpr hmod]
    exact h.quotient
  ne_zero := h.ne_zero

/-- The point that is recovered determines that remainder. -/
theorem Recovers.modEq (h : Recovers z r s id Q) (h' : Recovers z' r s id Q) :
    z ≡ z' [MOD groupOrder] := by
  obtain ⟨R, hR, hQ⟩ := h.quotient
  obtain ⟨R', hR', hQ'⟩ := h'.quotient
  -- The nonce point is read off the signature, whatever was signed.
  obtain rfl : R' = R := hR'.unique hR
  have hr : (r : ZMod groupOrder) ≠ 0 := by
    rw [Ne, ZMod.natCast_eq_zero_iff]
    exact Nat.not_dvd_of_pos_of_lt h.r_range.left h.r_range.right
  rw [← ZMod.natCast_eq_natCast_iff]
  exact (inv_smul_sub_smul_inj hr base_ne_zero _ _ _ _).mp (hQ.symm.trans hQ')

end Recovers

end Secp256k1

open Secp256k1

namespace CompactSignature

variable {signature : CompactSignature} {message other : Bytes} {text : String}

/-! ### Signers -/

/-- Recovery names the key of a text as the signer of a message. -/
def Names (signature : CompactSignature) (message : Bytes) (text : String) : Prop :=
  ∃ key, recoverSigner (some message) (some signature.bytes) = .ok (some key) ∧ key.hex = text

theorem names_iff_recover? :
    signature.Names message text ↔
      ∃ key, signature.recover? (digest message) = some key ∧ key.hex = text := by
  simp only [Names, recoverSigner_bytes, Except.ok.injEq]

theorem names_iff_recoversPoint :
    signature.Names message text ↔
      ∃ Q, signature.RecoversPoint (digest message) Q ∧ IsCompressedText text Q := by
  simp only [names_iff_recover?, recover?_eq_some_iff, isCompressedText_iff]
  constructor
  · rintro ⟨key, ⟨Q, hQ, rfl⟩, htext⟩
    exact ⟨Q, hQ, hQ.right.right.ne_zero, htext⟩
  · rintro ⟨Q, hQ, -, htext⟩
    exact ⟨_, ⟨Q, hQ, rfl⟩, htext⟩

theorem Names.congr (h : signature.Names message text)
    (hmod : (digest message).toNat ≡ (digest other).toNat [MOD groupOrder]) :
    signature.Names other text := by
  rw [names_iff_recoversPoint] at h ⊢
  obtain ⟨Q, ⟨hfirst, hlast, hQ⟩, htext⟩ := h
  exact ⟨Q, ⟨hfirst, hlast, hQ.congr hmod⟩, htext⟩

theorem Names.modEq (h : signature.Names message text) (hother : signature.Names other text) :
    (digest message).toNat ≡ (digest other).toNat [MOD groupOrder] := by
  rw [names_iff_recoversPoint] at h hother
  obtain ⟨Q, ⟨-, -, hQ⟩, htext⟩ := h
  obtain ⟨Q', ⟨-, -, hQ'⟩, htext'⟩ := hother
  obtain rfl : Q' = Q := htext.unique htext'
  exact hQ.modEq hQ'

theorem Names.text_eq {otherText : String} (h : signature.Names message text)
    (hother : signature.Names message otherText) : otherText = text := by
  obtain ⟨key, hkey, rfl⟩ := names_iff_recover?.mp h
  obtain ⟨otherKey, hotherKey, rfl⟩ := names_iff_recover?.mp hother
  rw [Option.some.inj (hotherKey.symm.trans hkey)]

/-- The signer of a credential is named by the signature in it, for the time in it. -/
theorem names_of_verify {checkTime : Bool} {now : Int} {key : PublicKey}
    (hfour : message.length = 4)
    (h : SignedTimestamp.verify (Base64Url.encodeText (message ++ signature.bytes)) checkTime now =
      .ok key) : signature.Names message key.hex := by
  obtain ⟨timestamp, hsigner⟩ := SignedTimestamp.exists_signerAndTime h
  obtain ⟨hrecover, -⟩ := (SignedTimestamp.signerAndTime_encodeText_iff hfour signature).mp hsigner
  exact names_iff_recover?.mpr ⟨key, hrecover, rfl⟩

/-- A signature that names a signer for one message names it for exactly the messages whose digests
are the same modulo the group order. So credentials that are put together from one signature and two
times have the same signer only if the digests of the times are the same in this sense. -/
theorem names_iff_modEq (signature : CompactSignature) :
    (∀ message text, signature.Names message text → ∀ other : Bytes,
      (signature.Names other text ↔
        (digest message).toNat ≡ (digest other).toNat [MOD groupOrder])) ∧
    (∀ time time' : Bytes, time.length = 4 → time'.length = 4 →
      ∀ checkTime now key checkTime' now' key',
        SignedTimestamp.verify (Base64Url.encodeText (time ++ signature.bytes)) checkTime now =
          .ok key →
        SignedTimestamp.verify (Base64Url.encodeText (time' ++ signature.bytes)) checkTime' now' =
          .ok key' →
        (key'.hex = key.hex ↔
          (digest time).toNat ≡ (digest time').toNat [MOD groupOrder])) := by
  constructor
  · intro message text hnames other
    exact ⟨hnames.modEq, hnames.congr⟩
  · intro time time' hfour hfour' checkTime now key checkTime' now' key' hverify hverify'
    have hnames : signature.Names time key.hex := names_of_verify hfour hverify
    have hnames' : signature.Names time' key'.hex := names_of_verify hfour' hverify'
    constructor
    · intro hsame
      rw [hsame] at hnames'
      exact hnames.modEq hnames'
    · intro hmod
      exact (hnames.congr hmod).text_eq hnames'

/-- The signature of a text is none of its signer for another text. -/
theorem names_iff_modEq_seed :
    ∃ (signature : CompactSignature) (text : String),
      signature.Names (Bytes.ofString "seed") text ∧
        ¬signature.Names (Bytes.ofString "seer") text := by
  obtain ⟨signature, -, hrecover⟩ := SignedTimestamp.exists_signature_seed
  have hnames : signature.Names (Bytes.ofString "seed") _ :=
    names_iff_recover?.mpr ⟨_, hrecover, rfl⟩
  have hdigests : ¬(digest (Bytes.ofString "seed")).toNat ≡ (digest (Bytes.ofString "seer")).toNat
      [MOD groupOrder] := by
    decide +kernel
  refine ⟨signature, _, hnames, ?_⟩
  rw [(names_iff_modEq signature).left _ _ hnames]
  exact hdigests

end CompactSignature

end WalletAuth
