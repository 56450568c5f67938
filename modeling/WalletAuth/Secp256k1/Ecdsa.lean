import WalletAuth.Encoding.Hex
import WalletAuth.Secp256k1.Point

/-! Signatures over secp256k1. A signature is a pair of non-zero scalars; with the parity of the
nonce point and the mark of a reduced abscissa the signer's key can be recovered from it. -/

namespace WalletAuth.Secp256k1

/-- The key that others know a signer by. -/
structure PublicKey where
  point : Point
deriving DecidableEq

/-- The text a key travels as: the lower-case digits of the compressed point. -/
def PublicKey.hex (key : PublicKey) : String :=
  Hex.encodeText key.point.compressed

/-- The key that signs: a non-zero scalar. -/
structure SigningKey where
  secret : Scalar
  secret_ne_zero : secret ≠ 0

namespace SigningKey

def ofBytes? (bs : Bytes) : Option SigningKey :=
  if bs.length = 32 then
    (Scalar.ofBytes? bs).bind fun secret => if h : secret ≠ 0 then some ⟨secret, h⟩ else none
  else none

def publicKey (key : SigningKey) : PublicKey :=
  ⟨Point.generator.multiple key.secret⟩

end SigningKey

/-- The two scalars of a signature. -/
structure Signature where
  r : Scalar
  s : Scalar
  r_ne_zero : r ≠ 0
  s_ne_zero : s ≠ 0
deriving DecidableEq

namespace Signature

/-- A signature from two scalars, unless one is zero. -/
def ofScalars? (r s : Scalar) : Option Signature :=
  if h : r ≠ 0 ∧ s ≠ 0 then some ⟨r, s, h.1, h.2⟩ else none

def ofBytes? (bs : Bytes) : Option Signature :=
  (Scalar.ofBytes? (bs.take 32)).bind fun r =>
    (Scalar.ofBytes? (bs.drop 32)).bind fun s => ofScalars? r s

def toBytes (signature : Signature) : Bytes :=
  signature.r.toBytes ++ signature.s.toBytes

end Signature

/-- What a signature alone leaves open about its nonce point: the parity of the ordinate, and
whether the abscissa was at least the group order. -/
structure RecoveryId where
  oddY : Bool
  reducedX : Bool
deriving DecidableEq

namespace RecoveryId

/-- The number from 0 to 3. -/
def toNat (id : RecoveryId) : Nat :=
  id.oddY.toNat + 2 * id.reducedX.toNat

/-- The two lowest bits of a number. -/
def ofNat (value : Nat) : RecoveryId :=
  ⟨value.testBit 0, value.testBit 1⟩

/-- The mark of the reflected nonce point. -/
def flip (id : RecoveryId) : RecoveryId :=
  { id with oddY := !id.oddY }

end RecoveryId

/-- Verification, for signatures with `s` in the lower half. -/
def PublicKey.verify (key : PublicKey) (z : Scalar) (signature : Signature) : Bool :=
  let inverseS := inverse signature.s
  !signature.s.isHigh &&
    match Point.generator.multiple (z * inverseS) + key.point.multiple (signature.r * inverseS) with
    | .infinity => false
    | .affine x _ => Scalar.reduce x.val == signature.r

/-- The nonce point a signature was made with. -/
def noncePoint? (signature : Signature) (id : RecoveryId) : Option Point :=
  let x := if id.reducedX then signature.r.val + groupOrder else signature.r.val
  if h : x < fieldOrder then Point.ofX? ⟨x, h⟩ id.oddY else none

/-- The key under which a signature of the hash `z` verifies, given the mark of its nonce point. -/
def recover? (z : Scalar) (signature : Signature) (id : RecoveryId) : Option PublicKey :=
  (noncePoint? signature id).bind fun nonce =>
    let inverseR := inverse signature.r
    let key : PublicKey :=
      ⟨Point.generator.multiple (-(inverseR * z)) + nonce.multiple (inverseR * signature.s)⟩
    if key.point ≠ .infinity && key.verify z signature then some key else none

theorem Scalar.neg_ne_zero {s : Scalar} (h : s ≠ 0) : -s ≠ 0 := by
  intro hneg
  apply h
  have hval := congrArg Fin.val hneg
  rw [Fin.val_neg'] at hval
  have hlt := s.isLt
  apply Fin.ext
  by_cases hs : s.val = 0
  · exact hs
  · rw [Nat.mod_eq_of_lt (by omega)] at hval
    simp only [Fin.val_zero] at hval
    omega

/-- The equivalent signature with `s` in the lower half; turning `s` over reflects the nonce
point. -/
def Signature.normalize (signature : Signature) (id : RecoveryId) : Signature × RecoveryId :=
  if signature.s.isHigh then
    (⟨signature.r, -signature.s, signature.r_ne_zero, Scalar.neg_ne_zero signature.s_ne_zero⟩,
      id.flip)
  else (signature, id)

/-- The signature of the hash `z` with a given nonce, in its lower-half form. -/
def SigningKey.signWith? (key : SigningKey) (z nonce : Scalar) : Option (Signature × RecoveryId) :=
  match Point.generator.multiple nonce with
  | .infinity => none
  | .affine x y =>
    let r := Scalar.reduce x.val
    let s := inverse nonce * (z + r * key.secret)
    (Signature.ofScalars? r s).map fun signature =>
      signature.normalize ⟨isOdd y, groupOrder ≤ x.val⟩

end WalletAuth.Secp256k1
