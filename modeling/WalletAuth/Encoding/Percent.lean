import WalletAuth.Encoding.Hex

/-! Percent encoding: a percent sign and two hexadecimal digits stand for a byte. -/

namespace WalletAuth.Percent

/-- Reads percent signs with their digits. A percent sign without two digits stands for itself. -/
def decode : Bytes → Bytes
  | [] => []
  | 37 :: high :: low :: rest =>
    match Hex.value? high, Hex.value? low with
    | some h, some l => UInt8.ofNat (h * 16 + l) :: decode rest
    | _, _ => 37 :: decode (high :: low :: rest)
  | char :: rest => char :: decode rest

end WalletAuth.Percent
