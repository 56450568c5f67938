import WalletAuth.Access.Error
import WalletAuth.Http.Message

/-! The connection gate: a request passes only with the shared secret itself. -/

namespace WalletAuth

/-- The name of the header field, and of the pair in a query, that holds a credential. -/
def tokenName : String := "token"

def AccessError.response (error : AccessError) : Http.Response :=
  .json error.status error.print

/-- A gate with a shared secret; with the empty one, nobody passes. -/
structure ConnectionGate where
  secret : String
deriving DecidableEq

namespace ConnectionGate

/-- Compares the first credential in a header field to the secret, byte for byte. -/
def authorize (gate : ConnectionGate) (headers : Http.Headers) : Except AccessError Unit :=
  match headers.first? tokenName with
  | none => .error .missingToken
  | some [] => .error .missingToken
  | some value =>
    if value = Bytes.ofString gate.secret then .ok () else .error .invalidConnectionToken

/-- Passes a request on, or refuses it. The request has to be there. -/
def guard {m : Type → Type} [Monad m] (gate : ConnectionGate) (request : Option Http.Request)
    (next : Http.Request → m Http.Response) : m Http.Response :=
  match request with
  | none => pure (AccessError.internal "request is missing").response
  | some request =>
    match gate.authorize request.headers with
    | .ok () => next request
    | .error error => pure error.response

/-- The text shown in logs. The secret is left out. -/
def describe (gate : ConnectionGate) : String :=
  "ConnectionGate \x7b configured: " ++ (if gate.secret.isEmpty then "false" else "true") ++
    " \x7d"

end ConnectionGate

end WalletAuth
