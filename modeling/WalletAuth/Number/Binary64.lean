import WalletAuth.Bytes

/-! Numbers in the binary64 format, by their bits. Finite values are read exactly as a significand
times a power of two, and arithmetic is done on exact fractions that are then rounded to the
nearest value, ties to the even significand. -/

namespace WalletAuth

structure Binary64 where
  bits : UInt64
deriving DecidableEq, Inhabited

namespace Binary64

/-- The value of the sign bit. -/
def signBit : Nat := 0x8000000000000000

/-- The value of the bit above the fraction, which is not stored. -/
def hiddenBit : Nat := 0x10000000000000

def isNegative (x : Binary64) : Bool :=
  signBit ≤ x.bits.toNat

def exponentBits (x : Binary64) : Nat :=
  x.bits.toNat / hiddenBit % 2048

def fractionBits (x : Binary64) : Nat :=
  x.bits.toNat % hiddenBit

/-- Whether the number is neither infinite nor undefined. -/
def isFinite (x : Binary64) : Bool :=
  x.exponentBits != 2047

def isZero (x : Binary64) : Bool :=
  x.exponentBits == 0 && x.fractionBits == 0

/-- The integer that a power of two scales to the magnitude of a finite number. -/
def significand (x : Binary64) : Nat :=
  if x.exponentBits = 0 then x.fractionBits else hiddenBit + x.fractionBits

/-- The exponent of that power of two. -/
def exponent (x : Binary64) : Int :=
  (max x.exponentBits 1 : Nat) - (1075 : Int)

/-- The power of two as a fraction, numerator and denominator. -/
def powerOfTwo (exponent : Int) : Nat × Nat :=
  (1 <<< exponent.toNat, 1 <<< (-exponent).toNat)

/-- The magnitude of a finite number as a fraction. -/
def magnitude (x : Binary64) : Nat × Nat :=
  let (num, den) := powerOfTwo x.exponent
  (x.significand * num, den)

/-- The number with the given sign and other bits. -/
def ofBits (negative : Bool) (magnitudeBits : Nat) : Binary64 :=
  ⟨UInt64.ofNat (magnitudeBits + if negative then signBit else 0)⟩

/-- The integer nearest to a fraction, ties to the even one. -/
def roundHalfEven (num den : Nat) : Nat :=
  let floor := num / den
  let twice := 2 * (num % den)
  if den < twice ∨ (den = twice ∧ floor % 2 = 1) then floor + 1 else floor

/-- The exponent of the last place of the numbers around a fraction. -/
def placeOf (num den : Nat) : Int :=
  let estimate : Int := (num.log2 : Int) - den.log2 - 52
  let (up, down) := powerOfTwo estimate
  let place := if num * down < den * up * hiddenBit then estimate - 1 else estimate
  max place (-1074)

/-- The number nearest to a fraction; infinite from half a last place above the largest. -/
def ofFraction (negative : Bool) (num den : Nat) : Binary64 :=
  if num = 0 then ofBits negative 0
  else
    let place := placeOf num den
    let (up, down) := powerOfTwo place
    let rounded := roundHalfEven (num * down) (den * up)
    ofBits negative (min ((place + 1074).toNat * hiddenBit + rounded) (2047 * hiddenBit))

def ofNat (value : Nat) : Binary64 :=
  ofFraction false value 1

def neg (x : Binary64) : Binary64 :=
  ofBits (!x.isNegative) (x.bits.toNat % signBit)

/-- The rounded product of two finite numbers. -/
def mul (x y : Binary64) : Binary64 :=
  let (a, b) := x.magnitude
  let (c, d) := y.magnitude
  ofFraction (x.isNegative != y.isNegative) (a * c) (b * d)

/-- The rounded quotient of two finite numbers, the second not zero. -/
def div (x y : Binary64) : Binary64 :=
  let (a, b) := x.magnitude
  let (c, d) := y.magnitude
  ofFraction (x.isNegative != y.isNegative) (a * d) (b * c)

/-- The number nearest to a power of ten. -/
def powerOfTen (exponent : Nat) : Binary64 :=
  ofNat (Nat.pow 10 exponent)

/-- Divides by a power of ten, by the largest that is finite as often as it fits. -/
def shrink (x : Binary64) (exponent : Nat) : Binary64 :=
  if exponent ≤ 308 then x.div (powerOfTen exponent)
  else if x.isZero then x
  else shrink (x.div (powerOfTen 308)) (exponent - 308)
termination_by exponent

/-- A natural number times a power of ten, in rounded steps: the number first, then the scaling.
There is no result if it is too large. -/
def scale? (value : Nat) (exponent : Int) : Option Binary64 :=
  let start := ofNat value
  if exponent < 0 then some (start.shrink (-exponent).toNat)
  else if exponent ≤ 308 then
    let scaled := start.mul (powerOfTen exponent.toNat)
    if scaled.isFinite then some scaled else none
  else if start.isZero then some start
  else none

end Binary64

end WalletAuth
