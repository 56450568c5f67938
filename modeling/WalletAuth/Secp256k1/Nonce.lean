import WalletAuth.Hash.Hmac
import WalletAuth.Secp256k1.Arithmetic

/-! Nonces derived from the secret and the hash to be signed, so that signing needs no randomness:
the keyed generator of RFC 6979 over SHA-256. -/

namespace WalletAuth.Secp256k1

structure NonceGenerator where
  key : Bytes
  value : Bytes

namespace NonceGenerator

/-- Mixes a mark byte and further data into the state. -/
def absorb (state : NonceGenerator) (mark : UInt8) (data : Bytes) : NonceGenerator :=
  let key := Hmac.code state.key (state.value ++ mark :: data)
  ⟨key, Hmac.code key state.value⟩

def seed (secret hash : Bytes) : NonceGenerator :=
  let blank : NonceGenerator := ⟨List.replicate 32 0, List.replicate 32 1⟩
  (blank.absorb 0 (secret ++ hash)).absorb 1 (secret ++ hash)

/-- The next output, and the state behind it. -/
def next (state : NonceGenerator) : Bytes × NonceGenerator :=
  let value := Hmac.code state.key state.value
  (value, NonceGenerator.absorb ⟨state.key, value⟩ 0 [])

/-- The first output, within the given number of attempts, that is a non-zero scalar. -/
def firstScalar? : Nat → NonceGenerator → Option Scalar
  | 0, _ => none
  | attempts + 1, state =>
    let (output, state) := state.next
    match Scalar.ofBytes? output with
    | some nonce => if nonce ≠ 0 then some nonce else firstScalar? attempts state
    | none => firstScalar? attempts state

end NonceGenerator

/-- The nonce for a secret and a hash. An output is no scalar with a chance below `2⁻¹²⁷`, so the
allowance of attempts is out of reach. -/
def nonce? (secret : Scalar) (hash : Bytes) : Option Scalar :=
  NonceGenerator.firstScalar? 64 (NonceGenerator.seed secret.toBytes hash)

end WalletAuth.Secp256k1
