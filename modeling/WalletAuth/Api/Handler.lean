import WalletAuth.Access.Extraction
import WalletAuth.Api.Body
import WalletAuth.Http.MediaType

/-! What each endpoint answers. -/

namespace WalletAuth.Server

open Http (Request Response)

/-- Reports the health of the server: without a signing key it is degraded. -/
def health (server : Server) : Response :=
  let report : HealthResponse :=
    ⟨server.sessions.isInitialized, !server.settings.connectionSecret.isEmpty⟩
  .json (if report.hasSessionKey then 200 else 503) report.print

/-! ### Login -/

def maxBodyLength : Nat := 2097152

/-- The body of a login, or the response to one that cannot be used. -/
def loginRequest (request : Request) : Except Response LoginRequest :=
  if !request.headers.announceJson then
    .error (.plain 415 "Expected request with `Content-Type: application/json`")
  else if maxBodyLength < request.body.length then
    .error (.plain 413 "Failed to buffer the request body: length limit exceeded")
  else
    match LoginRequest.read request.body with
    | .ok login => .ok login
    | .error .malformed => .error (.plain 400 "Failed to parse the request body as JSON")
    | .error .unsuitable =>
      .error (.plain 422 "Failed to deserialize the JSON body into the target type")

/-- Issues a session token to the signer of a message. -/
def issueTo (server : Server) (now : Int64) (login : LoginRequest) :
    Except AccessError LoginResponse :=
  match recoverTextSigner login.signature login.message with
  | .error cause => .error (.ofSignature cause)
  | .ok key =>
    match server.sessions.issue key.hex [] now with
    | .error cause => .error (.ofSession cause)
    | .ok token => .ok ⟨key.hex, token, server.policy.isAdmin key.hex⟩

def login (server : Server) (now : Int64) (request : Request) : Response :=
  match loginRequest request with
  | .error response => response
  | .ok login =>
    match server.issueTo now login with
    | .error error => error.response
    | .ok answer => .json 200 answer.print

/-! ### Endpoints for known callers -/

def describeCaller (server : Server) (caller : Caller) : MeResponse :=
  ⟨caller, server.policy.isAdmin caller.pubkey, server.policy.freePass⟩

def me (server : Server) (now : Int64) (request : Request) (known : Option Caller) : Response :=
  match (server.requireCaller now request known).1 with
  | .ok caller => .json 200 (server.describeCaller caller).print
  | .error error => error.response

def adminStatus (server : Server) (now : Int64) (request : Request) (known : Option Caller) :
    Response :=
  match (server.requireAdmin now request known).1 with
  | .ok caller =>
    let report : AdminStatusResponse :=
      ⟨caller.pubkey, server.policy.freePass, server.settings.admins.length⟩
    .json 200 report.print
  | .error error => error.response

/-! ### All endpoints -/

/-- Lets a request through to what it asks for, with its caller if one had to be known, or refuses
it. -/
def protect (server : Server) (now : Int64) (request : Request) (protection : Protection)
    (next : Option Caller → Response) : Response :=
  match protection with
  | .none => next none
  | .caller =>
    match server.authenticateRequest now request with
    | .ok caller => next (some caller)
    | .error error => error.response
  | .admin =>
    match server.authenticateRequest now request with
    | .ok caller =>
      match server.policy.authorizeAdmin caller.pubkey with
      | .ok () => next (some caller)
      | .error error => error.response
    | .error error => error.response
  | .secret => Id.run (server.gate.guard (some request) fun _ => pure (next none))

/-- Answers a request at an endpoint that takes its method. -/
def answer (server : Server) (now : Int64) (request : Request) (known : Option Caller) :
    Endpoint → Response
  | .health => server.health
  | .login => server.login now request
  | .me => server.me now request known
  | .adminStatus => server.adminStatus now request known
  | .connectionVerify => .json 200 StatusResponse.ok.print
  | .description => server.documentation .declared request
  | .pages => server.documentation .declared request
  | .page => server.documentation .declared request

end WalletAuth.Server
