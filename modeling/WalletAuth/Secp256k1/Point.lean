import WalletAuth.Secp256k1.Arithmetic

/-! Points of the curve `y² = x³ + 7`, in affine coordinates, with the chord and tangent rules. -/

namespace WalletAuth.Secp256k1

/-- A point: the one at infinity, or a pair of coordinates. -/
inductive Point where
  | infinity
  | affine (x y : FieldElement)
deriving DecidableEq, Inhabited

namespace Point

/-- The right-hand side of the curve equation. -/
def cubic (x : FieldElement) : FieldElement :=
  x * x * x + 7

def OnCurve : Point → Prop
  | infinity => True
  | affine x y => y * y = cubic x

instance (point : Point) : Decidable point.OnCurve := by
  cases point <;> unfold OnCurve <;> infer_instance

def generator : Point :=
  affine 0x79BE667EF9DCBBAC55A06295CE870B07029BFCDB2DCE28D959F2815B16F81798
    0x483ADA7726A3C4655DA4FBFC0E1108A8FD17B448A68554199C47D08FFB10D4B8

/-- The reflection of a point in the horizontal axis. -/
def neg : Point → Point
  | infinity => infinity
  | affine x y => affine x (-y)

/-- The third point on the line of a given slope through two points of the curve, reflected. -/
def reflectThird (slope x₁ y₁ x₂ : FieldElement) : Point :=
  let x := slope * slope - x₁ - x₂
  affine x (slope * (x₁ - x) - y₁)

/-- The sum: by the tangent for equal points, by the chord otherwise. -/
def add : Point → Point → Point
  | infinity, q => q
  | p, infinity => p
  | affine x₁ y₁, affine x₂ y₂ =>
    if x₁ = x₂ then
      if y₁ = -y₂ then infinity
      else reflectThird (3 * x₁ * x₁ * inverse (2 * y₁)) x₁ y₁ x₂
    else reflectThird ((y₁ - y₂) * inverse (x₁ - x₂)) x₁ y₁ x₂

instance : Add Point := ⟨add⟩

instance : Neg Point := ⟨neg⟩

/-- A multiple of a point, by doubling along the 256 bits of the multiplier. -/
def multiple (k : Scalar) (point : Point) : Point :=
  (bits 256 k.val).foldl
    (fun acc bit => if bit then acc + acc + point else acc + acc) infinity

/-- The point of the curve with a given first coordinate and parity of the second, if there is
one. -/
def ofX? (x : FieldElement) (oddY : Bool) : Option Point :=
  (squareRoot? (cubic x)).map fun root =>
    affine x (if isOdd root = oddY then root else -root)

/-- The compressed encoding: the parity of the second coordinate in the first byte, then the first
coordinate. -/
def compressed : Point → Bytes
  | infinity => [0]
  | affine x y => (if isOdd y then 3 else 2) :: Bytes.ofNat 32 x.val

end Point

end WalletAuth.Secp256k1
