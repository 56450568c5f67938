import WalletAuth.Bytes

/-! Arithmetic modulo the two primes of secp256k1: the order of the coordinate field and the order
of the group. Inverses and square roots are powers, after Fermat. -/

namespace WalletAuth.Secp256k1

def fieldOrder : Nat :=
  0xFFFFFFFFFFFFFFFFFFFFFFFFFFFFFFFFFFFFFFFFFFFFFFFFFFFFFFFEFFFFFC2F

def groupOrder : Nat :=
  0xFFFFFFFFFFFFFFFFFFFFFFFFFFFFFFFEBAAEDCE6AF48A03BBFD25E8CD0364141

-- Zero is named as the core library has it, whatever else is known of the natural numbers.
instance : @NeZero Nat Zero.ofOfNat0 fieldOrder := ⟨by decide⟩

instance : @NeZero Nat Zero.ofOfNat0 groupOrder := ⟨by decide⟩

/-- A coordinate of a point. -/
abbrev FieldElement := Fin fieldOrder

/-- A multiplier of points. -/
abbrev Scalar := Fin groupOrder

/-- The lowest bits of a number, the most significant first. -/
def bits : Nat → Nat → List Bool
  | 0, _ => []
  | width + 1, value => value.testBit width :: bits width value

/-- The remainder of a power, by squaring along the 256 bits of the exponent. -/
def powerMod (modulus base exponent : Nat) : Nat :=
  (bits 256 exponent).foldl
    (fun acc bit =>
      let square := acc * acc % modulus
      if bit then square * base % modulus else square) 1

def power {m : Nat} (base : Fin m) (exponent : Nat) : Fin m :=
  ⟨powerMod m base.val exponent % m, Nat.mod_lt _ base.pos⟩

/-- The inverse modulo a prime; that of zero is zero. -/
def inverse {m : Nat} (value : Fin m) : Fin m :=
  power value (m - 2)

/-- A square root of a field element, if it has one. The order is 3 modulo 4, so the power below is
a root whenever there is any. -/
def squareRoot? (value : FieldElement) : Option FieldElement :=
  let root := power value ((fieldOrder + 1) / 4)
  if root * root = value then some root else none

/-- Whether a field element is odd as a number below the field order. -/
def isOdd (value : FieldElement) : Bool :=
  value.val % 2 == 1

def Scalar.reduce (value : Nat) : Scalar :=
  Fin.ofNat groupOrder value

def Scalar.isHigh (value : Scalar) : Bool :=
  groupOrder / 2 < value.val

/-- The scalar that a byte string writes, if it is below the group order. -/
def Scalar.ofBytes? (bs : Bytes) : Option Scalar :=
  if h : bs.toNat < groupOrder then some ⟨bs.toNat, h⟩ else none

def Scalar.toBytes (value : Scalar) : Bytes :=
  Bytes.ofNat 32 value.val

end WalletAuth.Secp256k1
