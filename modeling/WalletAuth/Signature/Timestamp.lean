import WalletAuth.Signature.Message

/-! Signed timestamps: a wallet that has not logged in signs the current time to authenticate one
request. The credential is padded base64 of the time, four bytes, and a compact signature of those
bytes. -/

namespace WalletAuth

open Secp256k1

/-- Why a signed timestamp is refused. -/
inductive TimestampError where
  | encoding (cause : SignatureError)
  /-- There are too few bytes for a time and a signature. -/
  | tooShort (length : Nat)
  /-- The time is too far in the past. -/
  | expired (timestamp : Nat)
  /-- The time is too far in the future. -/
  | notYetValid (timestamp : Nat)
  | signature (cause : SignatureError)
deriving DecidableEq, Repr

def TimestampError.message : TimestampError → String
  | encoding cause => "invalid signed timestamp encoding: " ++ cause.message
  | tooShort _ => "invalid signature (too short)"
  | expired _ => "signed timestamp is too old"
  | notYetValid _ => "signed timestamp is in the future"
  | signature cause => "invalid signature: " ++ cause.message

namespace SignedTimestamp

/-- How many seconds old a timestamp may be. -/
def maxAge : Int := 300

/-- How many seconds ahead of the clock a timestamp may be. -/
def maxAhead : Int := 60

/-- The time that a clock of 64 bits shows for a time it may not reach: its first or its last. -/
def onClock (time : Int) : Int :=
  max (-0x8000000000000000) (min time 0x7FFFFFFFFFFFFFFF)

/-- Refuses a timestamp outside the window around the present. The ends of the window are times of
the clock. -/
def checkFresh (timestamp : Nat) (now : Int) : Except TimestampError Unit :=
  if timestamp < onClock (now - maxAge) then .error (.expired timestamp)
  else if onClock (now + maxAhead) < timestamp then .error (.notYetValid timestamp)
  else .ok ()

/-- The time of a credential and its signer, whatever the time is. -/
def signerAndTime (token : String) : Except TimestampError (Nat × PublicKey) :=
  match CompactSignature.decodeBase64 token with
  | .error cause => .error (.encoding cause)
  | .ok bytes =>
    if bytes.length < 4 + 65 then .error (.tooShort bytes.length)
    else
      match recoverSigner (some (bytes.take 4)) (some (bytes.drop 4)) with
      | .error cause => .error (.signature cause)
      | .ok none => .error (.signature .notVerified)
      | .ok (some key) => .ok (Bytes.toNat (bytes.take 4), key)

/-- The signer of a credential; the time is checked only if asked, and only once the signature
has been found good. -/
def verify (token : String) (checkTime : Bool) (now : Int) : Except TimestampError PublicKey :=
  match signerAndTime token with
  | .error error => .error error
  | .ok (timestamp, key) =>
    if checkTime then (checkFresh timestamp now).map fun _ => key else .ok key

/-- Signs a time. -/
def issue (key : SigningKey) (seconds : UInt32) : Except SignatureError String :=
  let time := Bytes.ofNat 4 seconds.toNat
  (sign (some time) key).map fun signature => Base64Url.encodeText (time ++ signature.bytes)

end SignedTimestamp

end WalletAuth
