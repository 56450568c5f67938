import WalletAuth.Api.Handler

/-! From a request to the endpoint it asks for, and what all responses have in common. -/

namespace WalletAuth.Server

open Http (Request Response)

/-- Answers a request at an endpoint. A method that is not taken is refused only behind the
endpoint's protection, and the methods that are taken are listed on whatever comes of it. -/
def answerAt (server : Server) (now : Int64) (request : Request) (endpoint : Endpoint) : Response :=
  if endpoint.takes request.method then
    server.protect now request endpoint.protection fun known =>
      server.answer now request known endpoint
  else
    (server.protect now request endpoint.protection fun _ => .empty 405).withHeader "allow"
      (Bytes.ofString endpoint.allow)

/-- Everything that a response may depend on for clients from elsewhere. -/
def varyNames : String :=
  "origin, access-control-request-method, access-control-request-headers"

def shareResponse (response : Response) : Response :=
  ((response.withHeader "access-control-allow-origin" (Bytes.ofString "*")).withHeader
    "access-control-expose-headers" (Bytes.ofString "*")).withHeader
    "vary" (Bytes.ofString varyNames)

/-- Tells clients from elsewhere that they may ask anything. -/
def invitation : Response :=
  ⟨200,
    [⟨"access-control-allow-origin", Bytes.ofString "*"⟩,
      ⟨"access-control-allow-methods", Bytes.ofString "*"⟩,
      ⟨"access-control-allow-headers", Bytes.ofString "*"⟩,
      ⟨"vary", Bytes.ofString varyNames⟩],
    []⟩

/-- Answers a request that asks what it may ask. -/
def invite : Option Endpoint → Response
  | none => invitation
  | some endpoint => invitation.withHeader "allow" (Bytes.ofString endpoint.allow)

/-- The response to a request at an endpoint, or at none. -/
def route (server : Server) (now : Int64) (request : Request) : Option Endpoint → Response
  | none => .empty 404
  | some endpoint => server.answerAt now request endpoint

/-- The name of the field that tells requests apart. -/
def requestIdName : String := "x-request-id"

def repeatRequestId (headers : Http.Headers) (response : Response) : Response :=
  match headers.first? requestIdName with
  | some id => response.withHeader requestIdName id
  | none => response

/-- Responds to a request. Only the header of a response is sent if no more was asked for. -/
def respond (server : Server) (now : Int64) (request : Request) : Response :=
  let endpoint := Endpoint.ofPath? request.target.path
  let response :=
    if request.method = .options then invite endpoint
    else shareResponse (server.route now request endpoint)
  repeatRequestId request.headers
    (if request.method = .head then response.withoutBody else response)

end WalletAuth.Server
