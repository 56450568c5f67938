import WalletAuth.Caller

/-! The bodies of requests and answers. All are records in JSON. -/

namespace WalletAuth

open Json (Fault Value)

/-- A login with a signed message. -/
structure LoginRequest where
  message : String
  /-- A compact signature in base64. -/
  signature : String
deriving DecidableEq

namespace LoginRequest

def read (input : Bytes) : Except Fault LoginRequest := do
  match ← Json.readRecord [("message", .text), ("signature", .text)] input with
  | [.text message, .text signature] => return ⟨message, signature⟩
  | _ => throw .unsuitable

def print (request : LoginRequest) : Bytes :=
  Value.print (.object
    [("message", .text request.message), ("signature", .text request.signature)])

end LoginRequest

structure LoginResponse where
  pubkey : String
  token : String
  isAdmin : Bool
deriving DecidableEq

namespace LoginResponse

def read (input : Bytes) : Except Fault LoginResponse := do
  match ← Json.readRecord [("pubkey", .text), ("token", .text), ("is_admin", .flag)] input with
  | [.text pubkey, .text token, .bool isAdmin] => return ⟨pubkey, token, isAdmin⟩
  | _ => throw .unsuitable

def print (response : LoginResponse) : Bytes :=
  Value.print (.object
    [("pubkey", .text response.pubkey), ("token", .text response.token),
      ("is_admin", .bool response.isAdmin)])

end LoginResponse

/-- What a caller is told of itself. -/
structure MeResponse where
  caller : Caller
  isAdmin : Bool
  /-- Whether everybody passes for an admin. -/
  freePass : Bool
deriving DecidableEq

namespace MeResponse

def schema : Json.Schema :=
  [("pubkey", .text), ("method", AuthMethod.kind), ("is_admin", .flag), ("free_pass", .flag),
    ("expires_at", .optionalInteger)]

def read (input : Bytes) : Except Fault MeResponse := do
  match ← Json.readRecord schema input with
  | [.text pubkey, .text method, .bool isAdmin, .bool freePass, expiry] =>
    match AuthMethod.ofName? method with
    | some method => return ⟨⟨pubkey, method, expiryOf expiry⟩, isAdmin, freePass⟩
    | none => throw .unsuitable
  | _ => throw .unsuitable

def print (response : MeResponse) : Bytes :=
  Value.print (.object
    ([("pubkey", .text response.caller.pubkey), ("method", .text response.caller.method.name),
      ("is_admin", .bool response.isAdmin), ("free_pass", .bool response.freePass)] ++
      expiryFields response.caller.expiresAt))

end MeResponse

/-- What an admin is told of the server. -/
structure AdminStatusResponse where
  pubkey : String
  freePass : Bool
  adminCount : Nat
deriving DecidableEq

namespace AdminStatusResponse

def read (input : Bytes) : Except Fault AdminStatusResponse := do
  match ← Json.readRecord [("pubkey", .text), ("free_pass", .flag), ("admin_count", .count)]
      input with
  | [.text pubkey, .bool freePass, .number (.natural adminCount)] =>
    return ⟨pubkey, freePass, adminCount⟩
  | _ => throw .unsuitable

def print (response : AdminStatusResponse) : Bytes :=
  Value.print (.object
    [("pubkey", .text response.pubkey), ("free_pass", .bool response.freePass),
      ("admin_count", .ofNat response.adminCount)])

end AdminStatusResponse

structure StatusResponse where
  status : String
deriving DecidableEq

namespace StatusResponse

def ok : StatusResponse :=
  ⟨"ok"⟩

def read (input : Bytes) : Except Fault StatusResponse := do
  match ← Json.readRecord [("status", .text)] input with
  | [.text status] => return ⟨status⟩
  | _ => throw .unsuitable

def print (response : StatusResponse) : Bytes :=
  Value.print (.object [("status", .text response.status)])

end StatusResponse

/-- What is told of the server's health. -/
structure HealthResponse where
  /-- Whether session tokens can be issued. -/
  hasSessionKey : Bool
  /-- Whether there is a connection secret. -/
  hasConnectionSecret : Bool
deriving DecidableEq

namespace HealthResponse

def print (response : HealthResponse) : Bytes :=
  Value.print (.object
    [("status", .text (if response.hasSessionKey then "ok" else "degraded")),
      ("checks", .object
        [("service", .text "ok"),
          ("session_keys", .text (if response.hasSessionKey then "ok" else "uninitialized")),
          ("connection_auth",
            .text (if response.hasConnectionSecret then "ok" else "unconfigured"))])])

end HealthResponse

end WalletAuth
