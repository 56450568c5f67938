import WalletAuth.Api.Router
import WalletAuth.Proofs.Bytes

/-! Who gets past the protection of an endpoint. The checks stand in a fixed order, the first one
that fails decides the answer, and what a handler reports is read off the caller that was found. -/

namespace WalletAuth.Server

open Http (Method Request Response)

/-! ### Layers around the endpoints -/

section Layers

variable (server : Server) (now : Int64) (request : Request) (response : Response)

@[simp]
theorem status_shareResponse : (shareResponse response).status = response.status := rfl

@[simp]
theorem body_shareResponse : (shareResponse response).body = response.body := rfl

@[simp]
theorem status_repeatRequestId (headers : Http.Headers) :
    (repeatRequestId headers response).status = response.status := by
  rw [repeatRequestId]
  split <;> rfl

@[simp]
theorem body_repeatRequestId (headers : Http.Headers) :
    (repeatRequestId headers response).body = response.body := by
  rw [repeatRequestId]
  split <;> rfl

variable {request}

theorem status_respond (hoptions : request.method ≠ .options) (hhead : request.method ≠ .head) :
    (server.respond now request).status =
      (server.route now request (Endpoint.ofPath? request.target.path)).status := by
  simp only [respond, if_neg hoptions, if_neg hhead, status_repeatRequestId, status_shareResponse]

theorem body_respond (hoptions : request.method ≠ .options) (hhead : request.method ≠ .head) :
    (server.respond now request).body =
      (server.route now request (Endpoint.ofPath? request.target.path)).body := by
  simp only [respond, if_neg hoptions, if_neg hhead, body_repeatRequestId, body_shareResponse]

end Layers

/-! ### Verdicts -/

/-- A response states a verdict: a body to hand out, or an error with its own status and body. -/
def States (response : Response) : Except AccessError Bytes → Prop
  | .ok body => response.status = 200 ∧ response.body = body
  | .error error => response.status = error.status ∧ response.body = error.print

theorem status_ne_ok (error : AccessError) : error.status ≠ 200 := by
  cases error <;> simp [AccessError.status]

theorem States.status_eq_iff {response : Response} {verdict : Except AccessError Bytes}
    (h : States response verdict) : response.status = 200 ↔ ∃ body, verdict = .ok body := by
  cases verdict with
  | ok body => exact iff_of_true h.left ⟨body, rfl⟩
  | error error =>
      refine iff_of_false (fun hok => status_ne_ok error (h.left.symm.trans hok)) ?_
      rintro ⟨body, hbody⟩
      exact absurd hbody (by simp)

/-- Two responses that state the same verdict say the same. -/
theorem States.unique {response other : Response} {verdict : Except AccessError Bytes}
    (h : States response verdict) (hother : States other verdict) :
    response.status = other.status ∧ response.body = other.body := by
  cases verdict with
  | ok body => exact ⟨h.left.trans hother.left.symm, h.right.trans hother.right.symm⟩
  | error error => exact ⟨h.left.trans hother.left.symm, h.right.trans hother.right.symm⟩

/-- The caller behind a credential that may be missing. -/
def callerOf (server : Server) (now : Int64) : Option String → Except AccessError Caller
  | none => .error .missingToken
  | some token => server.authenticate now token

/-- What is decided about who asks for itself. -/
def meVerdict (server : Server) (now : Int64) (token : Option String) :
    Except AccessError Bytes := do
  let caller ← server.callerOf now token
  return (server.describeCaller caller).print

/-- What is decided about who asks how the server is governed. -/
def adminVerdict (server : Server) (now : Int64) (token : Option String) :
    Except AccessError Bytes := do
  let caller ← server.callerOf now token
  server.settings.authorizeAdmin caller.pubkey
  let report : AdminStatusResponse :=
    ⟨caller.pubkey, server.settings.freePass, server.settings.admins.length⟩
  return report.print

/-- What is decided about who presents the connection secret. -/
def connectionVerdict (server : Server) (presented : Option Bytes) : Except AccessError Bytes :=
  if presented = none ∨ presented = some [] then .error .missingToken
  else if presented = some (Bytes.ofString server.settings.connectionSecret) then
    .ok StatusResponse.ok.print
  else .error .invalidConnectionToken

theorem describeCaller_eq (server : Server) (caller : Caller) :
    server.describeCaller caller =
      ⟨caller, server.settings.isAdmin caller.pubkey, server.settings.freePass⟩ := by
  rw [describeCaller, policy_eq]

theorem meVerdict_eq_ok_iff {server : Server} {now : Int64} {token : Option String} :
    (∃ body, server.meVerdict now token = .ok body) ↔
      ∃ text caller, token = some text ∧ server.authenticate now text = .ok caller := by
  cases token with
  | none => simp [meVerdict, callerOf, bind, Except.bind]
  | some text =>
      cases h : server.authenticate now text <;>
        simp [meVerdict, callerOf, bind, Except.bind, pure, Except.pure, h]

theorem adminVerdict_eq_ok_iff {server : Server} {now : Int64} {token : Option String} :
    (∃ body, server.adminVerdict now token = .ok body) ↔
      ∃ text caller, token = some text ∧ server.authenticate now text = .ok caller ∧
        server.settings.authorizeAdmin caller.pubkey = .ok () := by
  cases token with
  | none => simp [adminVerdict, callerOf, bind, Except.bind]
  | some text =>
      cases h : server.authenticate now text with
      | error error => simp [adminVerdict, callerOf, bind, Except.bind, h]
      | ok caller =>
          cases hadmin : server.settings.authorizeAdmin caller.pubkey <;>
            simp [adminVerdict, callerOf, bind, Except.bind, pure, Except.pure, h, hadmin]

theorem connectionVerdict_eq_ok_iff {server : Server} {presented : Option Bytes} :
    (∃ body, server.connectionVerdict presented = .ok body) ↔
      presented = some (Bytes.ofString server.settings.connectionSecret) ∧
        server.settings.connectionSecret ≠ "" := by
  rw [connectionVerdict]
  by_cases hmissing : presented = none ∨ presented = some []
  · rw [if_pos hmissing]
    refine iff_of_false (by simp) ?_
    rintro ⟨rfl, hsecret⟩
    rcases hmissing with h | h
    · exact absurd h (by simp)
    · exact hsecret (Bytes.ofString_eq_nil_iff.mp (Option.some.inj h))
  · rw [if_neg hmissing]
    by_cases hequal : presented = some (Bytes.ofString server.settings.connectionSecret)
    · rw [if_pos hequal]
      refine iff_of_true ⟨_, rfl⟩ ⟨hequal, fun hsecret => hmissing (Or.inr ?_)⟩
      rw [hequal, hsecret]
      rfl
    · rw [if_neg hequal]
      exact iff_of_false (by simp) fun h => hequal h.left

/-! ### Protected endpoints -/

section Endpoints

variable (server : Server) (now : Int64) (request : Request)

theorem ofPath?_path : ∀ endpoint ∈ Endpoint.documented,
    Endpoint.ofPath? (Bytes.ofString endpoint.path) = some endpoint := by decide

theorem answerAt_of_takes {endpoint : Endpoint} (h : endpoint.takes request.method = true) :
    server.answerAt now request endpoint =
      server.protect now request endpoint.protection fun known =>
        server.answer now request known endpoint :=
  if_pos h

theorem authenticateRequest_eq :
    server.authenticateRequest now request =
      server.callerOf now (presentedToken? request.headers request.target) := by
  rw [authenticateRequest]
  cases presentedToken? request.headers request.target <;> rfl

theorem states_response (error : AccessError) : States error.response (.error error) :=
  ⟨rfl, rfl⟩

theorem states_json (body : Bytes) : States (.json 200 body) (.ok body) :=
  ⟨rfl, rfl⟩

variable {request}

theorem States.respond {endpoint : Endpoint} {verdict : Except AccessError Bytes}
    (hpath : Endpoint.ofPath? request.target.path = some endpoint)
    (hmethod : request.method = .get ∨ request.method = .post)
    (h : States (server.answerAt now request endpoint) verdict) :
    States (server.respond now request) verdict := by
  have hoptions : request.method ≠ .options := by rcases hmethod with h | h <;> rw [h] <;> decide
  have hhead : request.method ≠ .head := by rcases hmethod with h | h <;> rw [h] <;> decide
  have hstatus := status_respond server now hoptions hhead
  have hbody := body_respond server now hoptions hhead
  rw [hpath] at hstatus hbody
  cases verdict with
  | ok body => exact ⟨hstatus.trans h.left, hbody.trans h.right⟩
  | error error => exact ⟨hstatus.trans h.left, hbody.trans h.right⟩

variable (request)

theorem states_answerAt_me (hmethod : request.method = .get) :
    States (server.answerAt now request .me)
      (server.meVerdict now (presentedToken? request.headers request.target)) := by
  rw [answerAt_of_takes server now request (by rw [hmethod]; rfl), meVerdict,
    ← authenticateRequest_eq]
  simp only [Endpoint.protection, protect]
  cases server.authenticateRequest now request with
  | error error => exact states_response error
  | ok caller => exact states_json _

theorem states_answerAt_adminStatus (hmethod : request.method = .get) :
    States (server.answerAt now request .adminStatus)
      (server.adminVerdict now (presentedToken? request.headers request.target)) := by
  rw [answerAt_of_takes server now request (by rw [hmethod]; rfl), adminVerdict,
    ← authenticateRequest_eq]
  simp only [Endpoint.protection, protect, policy_eq]
  cases server.authenticateRequest now request with
  | error error => exact states_response error
  | ok caller =>
      cases hadmin : server.settings.authorizeAdmin caller.pubkey with
      | error error =>
          simp only [hadmin, bind, Except.bind]
          exact states_response error
      | ok _ =>
          simp only [hadmin, bind, Except.bind, Except.map, answer, adminStatus, requireAdmin,
            requireCaller, policy_eq]
          exact states_json _

theorem connectionVerdict_eq (headers : Http.Headers) :
    server.connectionVerdict (headers.first? tokenName) =
      (server.gate.authorize headers).map fun _ => StatusResponse.ok.print := by
  rw [connectionVerdict, ConnectionGate.authorize]
  rcases headers.first? tokenName with _ | _ | ⟨char, chars⟩
  · rfl
  · rfl
  · simp only [reduceCtorEq, or_false, if_false, Option.some.injEq, List.cons_ne_nil]
    rw [gate_eq]
    split <;> rfl

theorem states_answerAt_connectionVerify (hmethod : request.method = .post) :
    States (server.answerAt now request .connectionVerify)
      (server.connectionVerdict (request.headers.first? tokenName)) := by
  rw [answerAt_of_takes server now request (by rw [hmethod]; rfl), connectionVerdict_eq]
  simp only [Endpoint.protection, protect, ConnectionGate.guard]
  cases server.gate.authorize request.headers with
  | error error => exact states_response error
  | ok _ => exact states_json _

variable {request}

theorem states_respond_meVerdict (hmethod : request.method = .get)
    (hpath : request.target.path = Bytes.ofString Endpoint.me.path) :
    States (server.respond now request)
      (server.meVerdict now (presentedToken? request.headers request.target)) :=
  (states_answerAt_me server now request hmethod).respond server now
    (hpath ▸ ofPath?_path .me (by decide)) (Or.inl hmethod)

theorem states_respond_adminVerdict (hmethod : request.method = .get)
    (hpath : request.target.path = Bytes.ofString Endpoint.adminStatus.path) :
    States (server.respond now request)
      (server.adminVerdict now (presentedToken? request.headers request.target)) :=
  (states_answerAt_adminStatus server now request hmethod).respond server now
    (hpath ▸ ofPath?_path .adminStatus (by decide)) (Or.inl hmethod)

theorem states_respond_connectionVerdict (hmethod : request.method = .post)
    (hpath : request.target.path = Bytes.ofString Endpoint.connectionVerify.path) :
    States (server.respond now request)
      (server.connectionVerdict (request.headers.first? tokenName)) :=
  (states_answerAt_connectionVerify server now request hmethod).respond server now
    (hpath ▸ ofPath?_path .connectionVerify (by decide)) (Or.inr hmethod)

end Endpoints

end WalletAuth.Server
