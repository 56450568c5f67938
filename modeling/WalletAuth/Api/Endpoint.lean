import WalletAuth.Http.Message

/-! The endpoints of the server: where they are, which method they take and who may use them. -/

namespace WalletAuth

/-- What stands in front of an endpoint. -/
inductive Protection where
  | none
  | caller
  | admin
  | secret
deriving DecidableEq

inductive Endpoint where
  | health
  | login
  | me
  | adminStatus
  | connectionVerify
  /-- The description of the other endpoints. -/
  | description
  /-- The way to the pages that show the description. -/
  | pages
  /-- One of these pages. -/
  | page
deriving DecidableEq

namespace Endpoint

/-- The endpoints that are described, in order of their paths. -/
def documented : List Endpoint :=
  [health, adminStatus, login, me, connectionVerify]

/-- The path of an endpoint; for a page, what all pages start with. -/
def path : Endpoint → String
  | health => "/health"
  | login => "/v1/auth/login"
  | me => "/v1/auth/me"
  | adminStatus => "/v1/admin/status"
  | connectionVerify => "/v1/connection/verify"
  | description => "/api-doc/openapi.json"
  | pages => "/docs"
  | page => "/docs/"

/-- The endpoint at a path. Paths are compared as they are written. -/
def ofPath? (path : Bytes) : Option Endpoint :=
  match (documented ++ [description, pages]).find? fun endpoint =>
      Bytes.ofString endpoint.path == path with
  | some endpoint => some endpoint
  | none => if (Bytes.ofString page.path).isPrefixOf path then some page else none

/-- Whether an endpoint takes a body. All others are only read. -/
def takesBody : Endpoint → Bool
  | login => true
  | connectionVerify => true
  | _ => false

/-- Whether an endpoint takes a method. What can be read can be asked for without its body. -/
def takes (endpoint : Endpoint) : Http.Method → Bool
  | .get => !endpoint.takesBody
  | .head => !endpoint.takesBody
  | .post => endpoint.takesBody
  | _ => false

/-- The methods of an endpoint, as they are listed for clients. -/
def allow (endpoint : Endpoint) : String :=
  if endpoint.takesBody then "POST" else "GET,HEAD"

def protection : Endpoint → Protection
  | me => .caller
  | adminStatus => .admin
  | connectionVerify => .secret
  | _ => .none

end Endpoint

end WalletAuth
