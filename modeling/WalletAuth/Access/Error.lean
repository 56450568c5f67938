import WalletAuth.Json.Value
import WalletAuth.Session.Error
import WalletAuth.Signature.Timestamp

/-! Why a request is refused. -/

namespace WalletAuth

/-- Why a request is refused. -/
inductive AccessError where
  | missingToken
  | invalidConnectionToken
  /-- The session token was never good. -/
  | invalidSessionToken
  | tokenExpired
  | invalidSignature (detail : String)
  /-- The caller is known but is no admin. -/
  | authorizationDenied
  /-- The server cannot tell. -/
  | internal (detail : String)
deriving DecidableEq, Repr

namespace AccessError

/-- The name of an error in answers. -/
def code : AccessError → String
  | missingToken => "missing_token"
  | invalidConnectionToken => "invalid_connection_token"
  | invalidSessionToken => "invalid_session_token"
  | tokenExpired => "token_expired"
  | invalidSignature _ => "invalid_signature"
  | authorizationDenied => "authorization_denied"
  | internal _ => "internal_error"

def status : AccessError → Nat
  | internal _ => 500
  | _ => 401

def message : AccessError → String
  | missingToken => "Authentication token is required"
  | invalidConnectionToken => "Connection token is invalid"
  | invalidSessionToken => "Session token is invalid"
  | tokenExpired => "Session token has expired"
  | invalidSignature detail => "Signature is invalid: " ++ detail
  | authorizationDenied => "Pubkey is not authorized for this operation"
  | internal detail => "Internal authentication error: " ++ detail

def print (error : AccessError) : Bytes :=
  Json.Value.print (.object [("error", .text error.message), ("error_code", .text error.code)])

def ofSignature (cause : SignatureError) : AccessError :=
  invalidSignature cause.message

def ofTimestamp (cause : TimestampError) : AccessError :=
  invalidSignature cause.message

/-- The refusal for a session token. What the caller cannot mend is an internal error. -/
def ofSession : SessionError → AccessError
  | .expired => tokenExpired
  | .invalid => invalidSessionToken
  | .emptyIdentifier => invalidSessionToken
  | cause => internal cause.message

end AccessError

end WalletAuth
