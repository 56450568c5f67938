import WalletAuth.Http.Header
import WalletAuth.Http.Target

/-! Requests and responses. -/

namespace WalletAuth.Http

/-- What a request wants done. -/
inductive Method where
  | get
  | head
  | post
  | options
  | other (name : String)
deriving DecidableEq

/-- The method of a name. Case matters. -/
def Method.ofName (name : String) : Method :=
  if name = "GET" then .get
  else if name = "HEAD" then .head
  else if name = "POST" then .post
  else if name = "OPTIONS" then .options
  else .other name

structure Request where
  method : Method
  target : Target
  headers : Headers
  body : Bytes

structure Response where
  status : Nat
  headers : Headers
  body : Bytes
deriving DecidableEq

namespace Response

def empty (status : Nat) : Response :=
  ⟨status, [], []⟩

def json (status : Nat) (body : Bytes) : Response :=
  ⟨status, [⟨"content-type", Bytes.ofString "application/json"⟩], body⟩

def plain (status : Nat) (body : String) : Response :=
  ⟨status, [⟨"content-type", Bytes.ofString "text/plain; charset=utf-8"⟩], Bytes.ofString body⟩

def withHeader (response : Response) (name : String) (value : Bytes) : Response :=
  { response with headers := response.headers ++ [⟨name, value⟩] }

def withoutBody (response : Response) : Response :=
  { response with body := [] }

end Response

end WalletAuth.Http
