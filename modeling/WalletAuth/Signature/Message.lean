import WalletAuth.Secp256k1.Nonce
import WalletAuth.Signature.Compact

/-! Signed messages: the digest a wallet signs, recovery of the signer and signing itself. -/

namespace WalletAuth

open Secp256k1

/-- The tag in front of every message, which keeps these digests apart from all others. -/
def messageTag : Bytes :=
  Bytes.ofString "Lightning Signed Message:"

/-- The digest a wallet signs: SHA-256 twice over the tagged message. -/
def digest (message : Bytes) : Bytes :=
  Sha256.hash (Sha256.hash (messageTag ++ message))

example : digest (Bytes.ofString "test message") =
    Bytes.ofNat 32 0x63b62dc720ee1c303772a917b0ae5cf10075a0525ff45b097477a54bbb5c5aec := by
  decide +kernel

/-- The signer of a message. An input that is not given is an error and differs from an empty one;
a signature of the right length that verifies under no key has no signer. -/
def recoverSigner (message signature : Option Bytes) :
    Except SignatureError (Option PublicKey) :=
  match message, signature with
  | some message, some signature =>
    (CompactSignature.ofBytes signature).map fun compact => compact.recover? (digest message)
  | _, _ => .error .missingInput

/-- The signer of a text, from a signature in base64. -/
def recoverTextSigner (signature message : String) : Except SignatureError PublicKey :=
  (CompactSignature.decodeBase64 signature).bind fun bytes =>
    match recoverSigner (some (Bytes.ofString message)) (some bytes) with
    | .ok (some key) => .ok key
    | .ok none => .error .notVerified
    | .error error => .error error

def sign (message : Option Bytes) (key : SigningKey) : Except SignatureError CompactSignature :=
  match message with
  | none => .error .missingMessage
  | some message =>
    let hash := digest message
    match (nonce? key.secret hash).bind (key.signWith? (Scalar.reduce hash.toNat)) with
    | some (pair, id) => .ok (CompactSignature.ofSignature pair id)
    | none => .error .signingFailed

end WalletAuth
