import WalletAuth.Number.Shortest

/-! Numbers in JSON: integers that fit 64 bits stay integers, all others are binary64. -/

namespace WalletAuth.Json

/-- A number as it was written. -/
inductive Number where
  /-- A natural number below `2⁶⁴`. -/
  | natural (value : Nat)
  /-- The opposite of a number from 1 to `2⁶³`. -/
  | negative (magnitude : Nat)
  /-- Any other number. -/
  | float (value : Binary64)
deriving DecidableEq

/-- Writes a number; one that is not finite has no text of its own and is written as null. -/
def Number.print : Number → Bytes
  | natural value => Decimal.digits value
  | negative magnitude => 45 :: Decimal.digits magnitude
  | float value =>
    if value.isFinite then Shortest.text value else Bytes.ofString "null"

/-- The text of a number, split into its parts. -/
structure NumberText where
  isNegative : Bool
  whole : Bytes
  /-- The digits behind the point, if there is one. -/
  fraction : Option Bytes
  /-- The sign of the exponent and its digits, if there is one. -/
  power : Option (Bool × Bytes)

/-- Splits digits off the front; there has to be one. -/
def takeDigits? (input : Bytes) : Option (Bytes × Bytes) :=
  let digits := input.takeWhile Decimal.isDigit
  if digits.isEmpty then none else some (digits, input.dropWhile Decimal.isDigit)

def takeFraction? (input : Bytes) : Option (Option Bytes × Bytes) :=
  match input with
  | 46 :: rest => (takeDigits? rest).map fun (digits, rest) => (some digits, rest)
  | _ => some (none, input)

def takePower? (input : Bytes) : Option (Option (Bool × Bytes) × Bytes) :=
  match input with
  | mark :: rest =>
    if mark = 101 ∨ mark = 69 then
      let (isNegative, rest) :=
        match rest with
        | 45 :: rest => (true, rest)
        | 43 :: rest => (false, rest)
        | _ => (false, rest)
      (takeDigits? rest).map fun (digits, rest) => (some (isNegative, digits), rest)
    else some (none, input)
  | [] => some (none, input)

/-- Splits the text of a number off the front. A leading zero stands alone. -/
def NumberText.take? (input : Bytes) : Option (NumberText × Bytes) :=
  let (isNegative, input) :=
    match input with
    | 45 :: rest => (true, rest)
    | _ => (false, input)
  (takeDigits? input).bind fun (whole, rest) =>
    if whole.head? = some 48 ∧ whole ≠ [48] then none
    else
      (takeFraction? rest).bind fun (fraction, rest) =>
        (takePower? rest).map fun (power, rest) => (⟨isNegative, whole, fraction, power⟩, rest)

/-- The largest significand that is kept. -/
def maxSignificand : Nat := 0xFFFFFFFFFFFFFFFF

/-- Appends digits to a significand until one no longer fits, and gives those left over. -/
def gather : Nat → Bytes → Nat × Bytes
  | significand, [] => (significand, [])
  | significand, char :: rest =>
    let next := significand * 10 + Decimal.digitValue char
    if next ≤ maxSignificand then gather next rest else (significand, char :: rest)

/-- The number of a text. A significand keeps as many digits as fit 64 bits; those left over count
for their places before the point and not at all behind it. -/
def NumberText.value? (text : NumberText) : Option Number :=
  let (whole, wholeLeft) := gather 0 text.whole
  let signed (magnitude : Binary64) := if text.isNegative then magnitude.neg else magnitude
  if text.fraction.isNone ∧ text.power.isNone ∧ wholeLeft.isEmpty then
    if !text.isNegative then some (.natural whole)
    else if whole ≠ 0 ∧ whole ≤ 0x8000000000000000 then some (.negative whole)
    else some (.float (signed (Binary64.ofNat whole)))
  else
    let fraction := text.fraction.getD []
    let (significand, fractionLeft) := gather whole fraction
    let places : Int := wholeLeft.length - (fraction.length - fractionLeft.length : Nat)
    let power : Int :=
      match text.power with
      | none => 0
      | some (isNegative, digits) =>
        if isNegative then -(Decimal.ofDigits digits : Int) else Decimal.ofDigits digits
    (Binary64.scale? significand (places + power)).map fun magnitude => .float (signed magnitude)

def takeNumber? (input : Bytes) : Option (Number × Bytes) :=
  (NumberText.take? input).bind fun (text, rest) =>
    text.value?.map fun number => (number, rest)

end WalletAuth.Json
