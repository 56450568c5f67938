import WalletAuth.Claims.Session
import WalletAuth.Json.Record
import WalletAuth.Signature.Compact

/-! The caller of a request once the credential is found good. -/

namespace WalletAuth

/-- How a caller proved control of a key. -/
inductive AuthMethod where
  | session
  | signedTimestamp
deriving DecidableEq, Repr

namespace AuthMethod

def name : AuthMethod → String
  | session => "session"
  | signedTimestamp => "signed_timestamp"

def ofName? (name : String) : Option AuthMethod :=
  [session, signedTimestamp].find? fun method => method.name == name

def kind : Json.FieldKind :=
  .choice [session.name, signedTimestamp.name]

end AuthMethod

structure Caller where
  pubkey : String
  method : AuthMethod
  /-- When the session expires, in Unix seconds. -/
  expiresAt : Option Int64
deriving DecidableEq

namespace Caller

def ofClaims (claims : SessionClaims) : Caller :=
  ⟨claims.pubkey, .session, some claims.expiresAt⟩

def ofSigner (key : Secp256k1.PublicKey) : Caller :=
  ⟨key.hex, .signedTimestamp, none⟩

end Caller

/-- The field of an expiry, left out if there is none. -/
def expiryFields : Option Int64 → List (String × Json.Value)
  | none => []
  | some time => [("expires_at", .ofInt time.toInt)]

def expiryOf : Json.Value → Option Int64
  | .number (.natural value) => some (Int64.ofNat value)
  | .number (.negative magnitude) => some (Int64.ofInt (-magnitude))
  | _ => none

namespace Caller

def schema : Json.Schema :=
  [("pubkey", .text), ("method", AuthMethod.kind), ("expires_at", .optionalInteger)]

def read (input : Bytes) : Except Json.Fault Caller := do
  match ← Json.readRecord schema input with
  | [.text pubkey, .text method, expiry] =>
    match AuthMethod.ofName? method with
    | some method => return ⟨pubkey, method, expiryOf expiry⟩
    | none => throw .unsuitable
  | _ => throw .unsuitable

def print (caller : Caller) : Bytes :=
  Json.Value.print
    (.object ([("pubkey", .text caller.pubkey), ("method", .text caller.method.name)] ++
      expiryFields caller.expiresAt))

end Caller

end WalletAuth
