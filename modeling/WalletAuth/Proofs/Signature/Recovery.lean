import WalletAuth.Proofs.Secp256k1.Encoding
import WalletAuth.Signature.Message

/-! The signer of a message is the key of the textbook: every signature of 65 bytes either recovers
the point `r⁻¹ (s R - z G)`, with `s` as it was sent, or has no signer at all. -/

open WeierstrassCurve.Affine

namespace WalletAuth

open Secp256k1

namespace CompactSignature

/-- The first half, as a number. -/
def rNumber (signature : CompactSignature) : Nat :=
  Bytes.toNat ((signature.bytes.drop 1).take 32)

/-- The second half, as a number. -/
def sNumber (signature : CompactSignature) : Nat :=
  Bytes.toNat (signature.bytes.drop 33)

/-- The point that recovery finds for a hash: the code selects one of the nonce points at `r`. -/
def RecoversPoint (signature : CompactSignature) (hash : Bytes) (Q : curve.Point) : Prop :=
  27 ≤ signature.recoveryCode.toNat ∧ signature.recoveryCode.toNat ≤ 34 ∧
    Recovers hash.toNat signature.rNumber signature.sNumber
      (RecoveryId.ofNat (signature.recoveryCode.toNat - 27)) Q

variable {signature : CompactSignature} {hash : Bytes}

theorem ofBytes_bytes (signature : CompactSignature) : ofBytes signature.bytes = .ok signature := by
  rw [ofBytes, dif_pos signature.length_bytes]

theorem ofBytes?_drop_one_iff {pair : Signature} :
    Signature.ofBytes? (signature.bytes.drop 1) = some pair ↔
      signature.rNumber = pair.r.val ∧ signature.sNumber = pair.s.val := by
  rw [Signature.ofBytes?_eq_some_iff, List.drop_drop]
  rfl

theorem recover?_eq_some_iff (key : PublicKey) :
    signature.recover? hash = some key ↔
      ∃ Q, signature.RecoversPoint hash Q ∧ ⟨Point.ofCurve Q⟩ = key := by
  simp only [recover?]
  by_cases hcode :
      firstCode ≤ signature.recoveryCode.toNat ∧ signature.recoveryCode.toNat ≤ lastCode
  · rw [if_pos hcode]
    simp only [Option.bind_eq_some_iff, ofBytes?_drop_one_iff]
    constructor
    · rintro ⟨pair, ⟨hr, hs⟩, hkey⟩
      obtain ⟨Q, hQ, rfl⟩ := (recover?_normalize_eq_some_iff ..).mp hkey
      rw [← hr, ← hs] at hQ
      exact ⟨Q, ⟨hcode.left, hcode.right, hQ⟩, rfl⟩
    · rintro ⟨Q, ⟨-, -, hQ⟩, rfl⟩
      obtain ⟨pair, hpair⟩ := Signature.exists_ofBytes? (signature.bytes.drop 1)
        hQ.r_range.left hQ.r_range.right
        (by rw [List.drop_drop]; exact hQ.s_range.left)
        (by rw [List.drop_drop]; exact hQ.s_range.right)
      obtain ⟨hr, hs⟩ := ofBytes?_drop_one_iff.mp hpair
      rw [hr, hs] at hQ
      exact ⟨pair, ⟨hr, hs⟩, (recover?_normalize_eq_some_iff ..).mpr ⟨Q, hQ, rfl⟩⟩
  · rw [if_neg hcode]
    exact iff_of_false (by simp) fun ⟨Q, hQ, _⟩ => hcode ⟨hQ.left, hQ.right.left⟩

end CompactSignature

theorem recoverSigner_bytes (message : Bytes) (signature : CompactSignature) :
    recoverSigner (some message) (some signature.bytes) =
      .ok (signature.recover? (digest message)) := by
  rw [recoverSigner, CompactSignature.ofBytes_bytes]
  rfl

/-- Recovery never fails on 65 bytes. It finds the textbook key and writes it as the compressed
point; without such a key there is no signer. -/
theorem recoverSigner_textbook (message : Bytes) (signature : CompactSignature) :
    ∃ found, recoverSigner (some message) (some signature.bytes) = .ok found ∧
      (∀ text, found.map PublicKey.hex = some text ↔
        ∃ Q, signature.RecoversPoint (digest message) Q ∧ IsCompressedText text Q) ∧
      (found = none ↔ ¬∃ Q, signature.RecoversPoint (digest message) Q) := by
  refine ⟨_, recoverSigner_bytes message signature, ?_, ?_⟩
  · intro text
    simp only [Option.map_eq_some_iff, CompactSignature.recover?_eq_some_iff, isCompressedText_iff]
    constructor
    · rintro ⟨key, ⟨Q, hQ, rfl⟩, htext⟩
      exact ⟨Q, hQ, hQ.right.right.ne_zero, htext⟩
    · rintro ⟨Q, hQ, -, htext⟩
      exact ⟨_, ⟨Q, hQ, rfl⟩, htext⟩
  · simp only [Option.eq_none_iff_forall_ne_some, ne_eq, CompactSignature.recover?_eq_some_iff]
    constructor
    · rintro hnone ⟨Q, hQ⟩
      exact hnone _ ⟨Q, hQ, rfl⟩
    · rintro hnone key ⟨Q, hQ, -⟩
      exact hnone ⟨Q, hQ⟩

end WalletAuth
