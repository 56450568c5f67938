import WalletAuth.Access.Credential
import WalletAuth.Access.Policy

/-! Handing the caller on. A handler asks for the caller of its request; whoever asked before has
left the answer, and then the credential is not looked at again. -/

namespace WalletAuth.Server

/-- The caller of a request, and who is known to be it from then on. -/
def requireCaller (server : Server) (now : Int64) (request : Http.Request)
    (known : Option Caller) : Except AccessError Caller × Option Caller :=
  match known with
  | some caller => (.ok caller, known)
  | none =>
    match presentedToken? request.headers request.target with
    | none => (.error .missingToken, none)
    | some token =>
      match server.authenticate now token with
      | .ok caller => (.ok caller, some caller)
      | .error error => (.error error, none)

/-- The same for a caller that has to pass for an admin. Who does not is known all the same. -/
def requireAdmin (server : Server) (now : Int64) (request : Http.Request)
    (known : Option Caller) : Except AccessError Caller × Option Caller :=
  match server.requireCaller now request known with
  | (.ok caller, known) =>
    ((server.policy.authorizeAdmin caller.pubkey).map fun _ => caller, known)
  | (.error error, known) => (.error error, known)

end WalletAuth.Server
