import WalletAuth.Api.Endpoint

/-! What the endpoints are described as: how each is asked, what its statuses mean and which records
the bodies are made of. -/

namespace WalletAuth

/-- How one endpoint is described. -/
structure Operation where
  path : String
  method : String
  /-- The group of the endpoint. -/
  tag : String
  /-- What its statuses mean. -/
  statuses : List (Nat × String)
deriving DecidableEq

structure Description where
  operations : List Operation
  /-- The names of the records that bodies are made of. -/
  records : List String
deriving DecidableEq

namespace Description

def tag : Endpoint → String
  | .health => "Health"
  | .login => "Auth"
  | .me => "Auth"
  | .adminStatus => "Admin"
  | .connectionVerify => "Connection"
  | _ => "Documentation"

def statuses : Endpoint → List (Nat × String)
  | .health => [(200, "Service is healthy"), (503, "Service is unhealthy")]
  | .login =>
    [(200, "Signature verified, session issued"),
      (401, "Signature is malformed or does not verify")]
  | .me => [(200, "Authenticated caller"), (401, "Missing or invalid token")]
  | .adminStatus =>
    [(200, "Caller passed the super-admin policy"), (401, "Missing token or not an admin")]
  | .connectionVerify =>
    [(200, "Connection secret accepted"), (401, "Connection secret missing or wrong")]
  | _ => []

def recordNames : List String :=
  ["AdminStatusResponse", "AuthMethod", "HealthChecks", "LoginRequest", "LoginResponse",
    "MeResponse", "ReadyResponse", "StatusResponse"]

def ofEndpoint (endpoint : Endpoint) : Operation :=
  ⟨endpoint.path, if endpoint.takesBody then "post" else "get", tag endpoint, statuses endpoint⟩

/-- The description of this server. -/
def declared : Description :=
  ⟨Endpoint.documented.map ofEndpoint, recordNames⟩

end Description

end WalletAuth
