import WalletAuth.Bytes

/-! Hexadecimal text: two digits a byte. Writing uses lower case, reading takes either case. -/

namespace WalletAuth.Hex

/-- The lower-case digit of a value below sixteen. -/
def digit (value : Nat) : UInt8 :=
  if value < 10 then UInt8.ofNat (48 + value) else UInt8.ofNat (87 + value)

/-- The value of a digit of either case. -/
def value? (char : UInt8) : Option Nat :=
  if 48 ≤ char ∧ char ≤ 57 then some (char.toNat - 48)
  else if 97 ≤ char ∧ char ≤ 102 then some (char.toNat - 87)
  else if 65 ≤ char ∧ char ≤ 70 then some (char.toNat - 55)
  else none

def encode (bs : Bytes) : Bytes :=
  bs.flatMap fun byte => [digit (byte.toNat / 16), digit (byte.toNat % 16)]

def encodeText (bs : Bytes) : String :=
  Bytes.toAscii (encode bs)

/-- Reads pairs of digits in front of the bytes already read (kept in reverse). -/
def decodeOnto : Bytes → Bytes → Option Bytes
  | read, [] => some read.reverse
  | read, high :: low :: rest =>
    match value? high, value? low with
    | some h, some l => decodeOnto (UInt8.ofNat (h * 16 + l) :: read) rest
    | _, _ => none
  | _, [_] => none

/-- Reads digits back into bytes; an odd digit or any other character is refused. -/
def decode? (text : Bytes) : Option Bytes :=
  decodeOnto [] text

end WalletAuth.Hex
