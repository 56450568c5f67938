import WalletAuth.Number.Binary64
import WalletAuth.Number.Decimal

/-! Shortest decimals: the fewest digits that read back as a given binary64 number, and their
text. -/

namespace WalletAuth.Shortest

/-- The fractions that read back as one positive number: those between two bounds around it. All
three are counted in a unit that is itself a fraction. -/
structure Interval where
  low : Nat
  value : Nat
  high : Nat
  unitNum : Nat
  unitDen : Nat
  /-- Whether the bounds themselves read back: ties go to an even significand. -/
  closed : Bool

/-- The interval of a positive finite number, counted in quarters of its last place. Below a power
of two the numbers lie twice as close. -/
def Interval.around (x : Binary64) : Interval :=
  let m := x.significand
  let (num, den) := Binary64.powerOfTwo (x.exponent - 2)
  let atPowerOfTwo := x.fractionBits == 0 && 1 < x.exponentBits
  ⟨4 * m - (if atPowerOfTwo then 1 else 2), 4 * m, 4 * m + 2, num, den, m % 2 == 0⟩

/-- The multiple of a power of ten inside an interval that is nearest to its value, if there is one
other than zero; of two equally near ones the even. -/
def Interval.multipleOf? (interval : Interval) (exponent : Int) : Option Nat :=
  let unit := interval.unitNum * Nat.pow 10 (-exponent).toNat
  let step := interval.unitDen * Nat.pow 10 exponent.toNat
  let value := interval.value * unit
  let inside (candidate : Nat) : Bool :=
    candidate != 0 &&
      if interval.closed then
        interval.low * unit ≤ candidate * step && candidate * step ≤ interval.high * unit
      else interval.low * unit < candidate * step && candidate * step < interval.high * unit
  let below := value / step
  let above := below + 1
  let toBelow := value - below * step
  let toAbove := above * step - value
  let nearest :=
    if toBelow < toAbove ∨ (toBelow = toAbove ∧ below % 2 = 0) then [below, above]
    else [above, below]
  nearest.find? inside

/-- Searches ever finer powers of ten for one with a multiple inside the interval. -/
def search (interval : Interval) : Nat → Int → Nat × Int
  | 0, exponent => (0, exponent)
  | steps + 1, exponent =>
    match interval.multipleOf? exponent with
    | some digits => (digits, exponent)
    | none => search interval steps (exponent - 1)

/-- The digits and the power of ten of the shortest decimal of a positive finite number. Every such
number has one between `10⁻³²⁴` and `10³⁰⁹`. -/
def decimal (x : Binary64) : Nat × Int :=
  search (Interval.around x) 700 309

/-- Where the point may stand for a decimal to be written out, and how an exponent is written
otherwise. -/
structure Layout where
  /-- Positions of the point, counted from the front of the digits, that are written out. -/
  firstPlain : Int
  lastPlain : Int
  /-- What follows a number without a fraction. -/
  wholeEnd : Bytes
  /-- What stands between digits and a positive exponent, and a negative one. -/
  positiveMark : Bytes
  negativeMark : Bytes

/-- Numbers from `10⁻⁵` up to `10¹⁶` are written out; a whole number keeps one zero behind its
point; an exponent always has a sign. -/
def layout : Layout :=
  ⟨-4, 16, Bytes.ofString ".0", Bytes.ofString "e+", Bytes.ofString "e-"⟩

/-- Writes digits with a power of ten. -/
def Layout.write (layout : Layout) (digits : Bytes) (exponent : Int) : Bytes :=
  let point := digits.length + exponent
  if layout.firstPlain ≤ point ∧ point ≤ layout.lastPlain then
    if 0 ≤ exponent then digits ++ List.replicate exponent.toNat 48 ++ layout.wholeEnd
    else if 0 < point then digits.take point.toNat ++ 46 :: digits.drop point.toNat
    else 48 :: 46 :: (List.replicate (-point).toNat 48 ++ digits)
  else
    let mantissa :=
      match digits with
      | [] | [_] => digits
      | first :: rest => first :: 46 :: rest
    let power := point - 1
    mantissa ++ (if 0 ≤ power then layout.positiveMark else layout.negativeMark) ++
      Decimal.digits power.natAbs

/-- The shortest text of a finite number. -/
def text (x : Binary64) : Bytes :=
  let magnitude :=
    if x.isZero then layout.write [48] 0
    else
      let (digits, exponent) := decimal x
      layout.write (Decimal.digits digits) exponent
  if x.isNegative then 45 :: magnitude else magnitude

end WalletAuth.Shortest
