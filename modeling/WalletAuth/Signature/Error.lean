/-! Why a signature, or a request to make one, is refused. -/

namespace WalletAuth

/-- Why a signature is refused. -/
inductive SignatureError where
  /-- The message or the signature was not given at all. -/
  | missingInput
  | missingMessage
  /-- The signature has some other length than 65 bytes. -/
  | wrongLength (length : Nat)
  /-- The text is no base64; the fault is at the given byte. -/
  | illegalBase64 (offset : Nat)
  /-- The text is not made of pairs of hexadecimal digits. -/
  | illegalHex
  | notVerified
  | signingFailed
deriving DecidableEq, Repr

def SignatureError.message : SignatureError → String
  | missingInput => "missing message or signature"
  | missingMessage => "no msg"
  | wrongLength _ => "invalid compact signature size"
  | illegalBase64 offset => "illegal base64 data at input byte " ++ Nat.repr offset
  | illegalHex => "invalid hex signature"
  | notVerified => "signature verification failed"
  | signingFailed => "signing failed"

end WalletAuth
