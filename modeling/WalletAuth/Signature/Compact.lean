import WalletAuth.Encoding.Base64Url
import WalletAuth.Secp256k1.Ecdsa
import WalletAuth.Signature.Error

/-! Compact signatures: a recovery code followed by the two halves of a signature, 65 bytes in all.
They travel as hexadecimal digits or as padded base64. -/

namespace WalletAuth

open Secp256k1

/-- A compact signature: any 65 bytes. -/
structure CompactSignature where
  bytes : Bytes
  length_bytes : bytes.length = 65
deriving DecidableEq

namespace CompactSignature

def firstCode : Nat := 27

def lastCode : Nat := 34

/-- What is added to the code when the signer's key is compressed. -/
def compressedFlag : Nat := 4

def ofBytes (bs : Bytes) : Except SignatureError CompactSignature :=
  if h : bs.length = 65 then .ok ⟨bs, h⟩ else .error (.wrongLength bs.length)

/-- The offset at which a fault is reported. A padding that is short is reported where it starts, or
at the end of the text if there is none. -/
def faultOffset (fault : Base64Url.Fault) (text : Bytes) : Nat :=
  match fault with
  | .invalidByte offset => offset
  | .invalidLastSymbol offset => offset
  | .invalidLength length => length
  | .invalidPadding => (text.findIdx? (· == Base64Url.pad)).getD text.length

/-- Reads padded base64 and reports the offset of a fault. -/
def decodeBase64 (text : String) : Except SignatureError Bytes :=
  match Base64Url.decode (Bytes.ofString text) with
  | .ok bs => .ok bs
  | .error fault => .error (.illegalBase64 (faultOffset fault (Bytes.ofString text)))

def ofHex (text : String) : Except SignatureError CompactSignature :=
  match Hex.decode? (Bytes.ofString text) with
  | some bs => ofBytes bs
  | none => .error .illegalHex

def ofBase64 (text : String) : Except SignatureError CompactSignature :=
  (decodeBase64 text).bind ofBytes

def toHex (signature : CompactSignature) : String :=
  Hex.encodeText signature.bytes

def toBase64 (signature : CompactSignature) : String :=
  Base64Url.encodeText signature.bytes

/-- The first byte. -/
def recoveryCode (signature : CompactSignature) : UInt8 :=
  signature.bytes.headD 0

def describe (signature : CompactSignature) : String :=
  "CompactSignature(\"" ++ signature.toHex ++ "\")"

/-- The key that signed a digest. There is none for a code out of range, for halves out of range,
or if nothing verifies. A high `s` is valid on the wire and turned over first. -/
def recover? (signature : CompactSignature) (digest : Bytes) : Option PublicKey :=
  let code := signature.recoveryCode.toNat
  if firstCode ≤ code ∧ code ≤ lastCode then
    (Signature.ofBytes? (signature.bytes.drop 1)).bind fun sent =>
      let (pair, id) := sent.normalize (RecoveryId.ofNat (code - firstCode))
      Secp256k1.recover? (Scalar.reduce digest.toNat) pair id
  else none

/-- The compact form of a signature, marked as made by a compressed key. -/
def ofSignature (pair : Signature) (id : RecoveryId) : CompactSignature where
  bytes := UInt8.ofNat (firstCode + compressedFlag + id.toNat) :: pair.toBytes
  length_bytes := by
    simp [Signature.toBytes, Scalar.toBytes, Bytes.length_ofNat]

end CompactSignature

end WalletAuth
