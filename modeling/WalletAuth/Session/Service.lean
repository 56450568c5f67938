import WalletAuth.Session.Token

/-! The session service: a signing key that is installed once and a lifetime for the tokens issued
under it. Nothing else is stored. -/

namespace WalletAuth

/-- The key of a service: any byte string but the empty one. -/
structure SessionKey where
  bytes : Bytes
  bytes_ne_nil : bytes ≠ []
deriving DecidableEq

structure SessionService where
  key : Option SessionKey
  /-- How long tokens live, in seconds. -/
  lifetime : Nat
deriving DecidableEq

namespace SessionService

def defaultLifetime : Nat := 7 * 24 * 60 * 60

/-- The last time that can be written in a token. -/
def lastTime : Int := 0x7FFFFFFFFFFFFFFF

def new (lifetime : Nat) : SessionService :=
  ⟨none, lifetime⟩

/-- Installs the key. Only the first call with a key succeeds. -/
def init (service : SessionService) (secret : Bytes) : Except SessionError SessionService :=
  if h : secret ≠ [] then
    match service.key with
    | none => .ok { service with key := some ⟨secret, h⟩ }
    | some _ => .error .alreadyInitialized
  else .error (.configuration "signing key must not be empty")

def ofSecret (secret : Bytes) (lifetime : Nat) : Except SessionError SessionService :=
  (new lifetime).init secret

def isInitialized (service : SessionService) : Bool :=
  service.key.isSome

/-- When a token issued now expires. -/
def expiry (service : SessionService) (now : Int64) : Int64 :=
  Int64.ofInt (min (now.toInt + service.lifetime) lastTime)

/-- The claims of a token for an identifier. Entries of the payload with reserved names are
dropped. -/
def claimsFor (service : SessionService) (identifier : String) (payload : ClaimMap)
    (now : Int64) : SessionClaims :=
  ⟨identifier, now, service.expiry now, ClaimMap.without SessionClaims.reservedNames payload⟩

/-- Issues a token to an identifier, with further claims. -/
def issue (service : SessionService) (identifier : String) (payload : ClaimMap) (now : Int64) :
    Except SessionError String :=
  match service.key with
  | none => .error .notInitialized
  | some key =>
    if identifier.isEmpty then .error .emptyIdentifier
    else if lastTime < service.lifetime then
      .error (.configuration "session lifetime is out of range")
    else
      .ok (Bytes.toAscii
        (SessionToken.encode key.bytes (service.claimsFor identifier payload now)))

/-- The claims of a token, if it was issued under this key and has not expired. -/
def verify (service : SessionService) (token : String) (now : Int64) :
    Except SessionError SessionClaims :=
  match service.key with
  | none => .error .notInitialized
  | some key => SessionToken.decode key.bytes (Bytes.ofString token) now

/-- The text shown in logs. The key is left out. -/
def describe (service : SessionService) : String :=
  "SessionTokenService \x7b initialized: " ++ (if service.isInitialized then "true" else "false") ++
    ", ttl: " ++ Decimal.text service.lifetime ++ "s \x7d"

end SessionService

end WalletAuth
