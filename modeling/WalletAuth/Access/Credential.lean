import WalletAuth.Caller
import WalletAuth.Http.Form
import WalletAuth.Server

/-! The credential of a request, and the caller it stands for. -/

namespace WalletAuth

/-- The credential in a header value, unless it is empty or cannot be read. -/
def headerToken? (value : Bytes) : Option String :=
  if value ≠ [] ∧ Http.Header.isReadable value then some (Bytes.toAscii value) else none

/-- The credential in a query, unless it is empty or given more than once. -/
def queryToken? (query : Bytes) : Option String :=
  (Http.Form.only? tokenName (Http.Form.parse query)).filter fun token => !token.isEmpty

/-- The credential of a request. If there is a header field for it, the query is not looked at. -/
def presentedToken? (headers : Http.Headers) (target : Http.Target) : Option String :=
  match headers.first? tokenName with
  | some value => headerToken? value
  | none => queryToken? (target.query.getD [])

/-- Whether a credential is taken for a session token: it has a point, but not at the start. -/
def looksLikeSession (token : String) : Bool :=
  token.toList.contains '.' && token.toList.head? ≠ some '.'

namespace Server

def authenticate (server : Server) (now : Int64) (token : String) : Except AccessError Caller :=
  if looksLikeSession token then
    match server.sessions.verify token now with
    | .ok claims => .ok (.ofClaims claims)
    | .error cause => .error (.ofSession cause)
  else
    match SignedTimestamp.verify token true now.toInt with
    | .ok key => .ok (.ofSigner key)
    | .error cause => .error (.ofTimestamp cause)

def authenticateRequest (server : Server) (now : Int64) (request : Http.Request) :
    Except AccessError Caller :=
  match presentedToken? request.headers request.target with
  | some token => server.authenticate now token
  | none => .error .missingToken

end Server

end WalletAuth
