/-! Why a session token is not issued or not accepted. -/

namespace WalletAuth

/-- Why a session token is not issued or not accepted. -/
inductive SessionError where
  | notInitialized
  | alreadyInitialized
  | configuration (detail : String)
  | emptyIdentifier
  /-- The token was good but is too old. -/
  | expired
  /-- The token was never good. -/
  | invalid
deriving DecidableEq, Repr

def SessionError.message : SessionError → String
  | notInitialized => "session token service is not initialized"
  | alreadyInitialized => "session token service is already initialized"
  | configuration detail => "session token configuration error: " ++ detail
  | emptyIdentifier => "session identifier must not be empty"
  | expired => "session token has expired"
  | invalid => "session token is invalid"

end WalletAuth
