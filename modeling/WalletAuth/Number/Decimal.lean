import WalletAuth.Bytes

/-! Decimal digits of natural numbers. -/

namespace WalletAuth.Decimal

def isDigit (char : UInt8) : Bool :=
  48 ≤ char && char ≤ 57

def digitValue (char : UInt8) : Nat :=
  char.toNat - 48

/-- The digits of a number, the most significant first; zero has one digit. -/
def digits (value : Nat) : Bytes :=
  if value < 10 then [UInt8.ofNat (48 + value)]
  else digits (value / 10) ++ [UInt8.ofNat (48 + value % 10)]
termination_by value
decreasing_by omega

/-- The number that digits write. -/
def ofDigits (chars : Bytes) : Nat :=
  chars.foldl (fun value char => value * 10 + digitValue char) 0

def text (value : Nat) : String :=
  Bytes.toAscii (digits value)

end WalletAuth.Decimal
