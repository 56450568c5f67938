import WalletAuth.Proofs.Api.Extraction
import WalletAuth.Proofs.Api.Standing

/-! When the server cannot tell. Of all that is refused, only what no caller can mend is an internal
error, and it comes of the session service alone: there is no key where a session has to be checked
or issued, or the lifetime of its tokens cannot be written. Whatever else is wrong with a request is
told to the caller, and a credential that is no session is judged without the service. -/

namespace WalletAuth

open Http (Request Response)

/-! ### Verdicts that are not reached -/

/-- The server cannot tell. -/
def Undecided {α : Type} (verdict : Except AccessError α) : Prop :=
  ∃ detail, verdict = .error (.internal detail)

section Undecided

variable {α β : Type} {verdict : Except AccessError α}

@[simp]
theorem not_undecided_ok (answer : α) : ¬Undecided (.ok answer) := by
  simp [Undecided]

@[simp]
theorem undecided_error_iff {error : AccessError} :
    Undecided (.error error : Except AccessError α) ↔ ∃ detail, error = .internal detail := by
  simp [Undecided]

/-- What a verdict leads to leaves it open only if the verdict does. -/
theorem undecided_bind_iff {next : α → Except AccessError β}
    (h : ∀ answer, ¬Undecided (next answer)) :
    Undecided (verdict >>= next) ↔ Undecided verdict := by
  cases verdict with
  | error error => simp [bind, Except.bind]
  | ok answer => exact iff_of_false (h answer) (not_undecided_ok answer)

theorem undecided_map_iff {f : α → β} : Undecided (verdict.map f) ↔ Undecided verdict := by
  cases verdict <;> simp [Except.map]

end Undecided

theorem AccessError.status_le (error : AccessError) : error.status ≤ 500 := by
  cases error <;> simp [status]

theorem AccessError.status_eq_500_iff {error : AccessError} :
    error.status = 500 ↔ ∃ detail, error = internal detail := by
  cases error <;> simp [status]

theorem AuthSettings.not_undecided_authorizeAdmin (settings : AuthSettings) (pubkey : String) :
    ¬Undecided (settings.authorizeAdmin pubkey) := by
  rw [authorizeAdmin]
  split <;> simp

theorem ConnectionGate.not_undecided_authorize (gate : ConnectionGate) (headers : Http.Headers) :
    ¬Undecided (gate.authorize headers) := by
  rw [authorize]
  split
  · simp
  · simp
  · split <;> simp

namespace SessionService

variable {service : SessionService} {now : Int64}

/-- With a key, the service blames the token. -/
theorem undecided_verify_iff {token : String} :
    Undecided ((service.verify token now).mapError AccessError.ofSession) ↔
      service.isInitialized = false := by
  cases hkey : service.key with
  | none => simp [isInitialized, verify, hkey, Except.mapError, AccessError.ofSession]
  | some key =>
      refine iff_of_false ?_ (by simp [isInitialized, hkey])
      -- A token that does not open is invalid; one that does may still be too old, or not meant here.
      rw [verify_of_key hkey, SessionToken.decode]
      split
      · simp [Except.mapError, AccessError.ofSession]
      · split_ifs <;> simp [Except.mapError, AccessError.ofSession]

theorem undecided_issue_iff {identifier : String} {payload : ClaimMap}
    (hidentifier : identifier ≠ "") :
    Undecided ((service.issue identifier payload now).mapError AccessError.ofSession) ↔
      service.isInitialized = false ∨ lastTime < service.lifetime := by
  cases hkey : service.key with
  | none => simp [isInitialized, issue, hkey, Except.mapError, AccessError.ofSession]
  | some key =>
      rw [isInitialized, hkey]
      by_cases hlifetime : lastTime < service.lifetime
      · simp [issue, hkey, hidentifier, hlifetime, Except.mapError, AccessError.ofSession]
      · rw [issue_eq hkey (not_lt.mp hlifetime) hidentifier]
        simp [hlifetime, Except.mapError]

end SessionService

/-! ### What is asked -/

/-- A request at the path of an endpoint, with the method that the endpoint takes. -/
structure Endpoint.IsAskedBy (endpoint : Endpoint) (request : Request) : Prop where
  method : request.method = if endpoint.takesBody then .post else .get
  path : request.target.path = Bytes.ofString endpoint.path

/-- Documentation hands out a page or the document, sends to the pages, or tells that nothing is at a
path or that the path cannot be read. -/
def Documentation.IsStatic (documentation : Documentation) : Prop :=
  ∀ request, (documentation .declared request).status ∈ [200, 303, 400, 404]

theorem Documentation.IsStatic.status_lt {documentation : Documentation} {request : Request}
    (h : documentation.IsStatic) : (documentation .declared request).status < 500 :=
  (by decide : ∀ status ∈ [200, 303, 400, 404], status < 500) _ (h request)

theorem Documentation.isStatic_empty : Documentation.empty.IsStatic :=
  fun _ => (by decide : 404 ∈ [200, 303, 400, 404])

namespace Server

variable {server : Server} {now : Int64} {request : Request}

/-- A request for the documentation: what it asks for is none of the documented endpoints. -/
def AsksDocumentation (request : Request) : Prop :=
  ∃ endpoint, Endpoint.ofPath? request.target.path = some endpoint ∧
    endpoint ∉ Endpoint.documented

/-- A request that presents what is taken for a session. -/
def PresentsSession (request : Request) : Prop :=
  ∃ token, presentedToken? request.headers request.target = some token ∧
    looksLikeSession token = true

/-- A login that can be read and names its signer. -/
def LogsIn (request : Request) : Prop :=
  ∃ login signer, loginRequest request = .ok login ∧
    recoverTextSigner login.signature login.message = .ok signer

/-! ### Callers -/

theorem undecided_authenticate_iff {token : String} :
    Undecided (server.authenticate now token) ↔
      server.sessions.isInitialized = false ∧ looksLikeSession token = true := by
  by_cases hlooks : looksLikeSession token = true
  · have hverdict : server.authenticate now token =
        ((server.sessions.verify token now).mapError .ofSession).map .ofClaims := by
      rw [authenticate, if_pos hlooks]
      cases server.sessions.verify token now <;> rfl
    rw [hverdict, undecided_map_iff, SessionService.undecided_verify_iff, and_iff_left hlooks]
  · refine iff_of_false ?_ fun h => hlooks h.right
    rw [authenticate, if_neg hlooks]
    cases SignedTimestamp.verify token true now.toInt <;> simp [AccessError.ofTimestamp]

theorem undecided_authenticateRequest_iff :
    Undecided (server.authenticateRequest now request) ↔
      server.sessions.isInitialized = false ∧ PresentsSession request := by
  rw [authenticateRequest, PresentsSession]
  cases presentedToken? request.headers request.target with
  | none => simp
  | some token => simp [undecided_authenticate_iff]

theorem undecided_requireCaller_iff {known : Option Caller} :
    Undecided (server.requireCaller now request known).1 ↔
      known = none ∧ Undecided (server.authenticateRequest now request) := by
  cases known with
  | some caller => simp [requireCaller]
  | none => simp [requireCaller_none]

theorem undecided_requireAdmin_iff {known : Option Caller} :
    Undecided (server.requireAdmin now request known).1 ↔
      known = none ∧ Undecided (server.authenticateRequest now request) := by
  rw [← undecided_requireCaller_iff, requireAdmin_eq]
  -- That the caller is no admin is an answer too.
  refine undecided_bind_iff fun caller => ?_
  rw [AuthSettings.judge, undecided_map_iff]
  exact server.settings.not_undecided_authorizeAdmin caller.pubkey

theorem undecided_meVerdict_iff {presented : Option String} :
    Undecided (server.meVerdict now presented) ↔ Undecided (server.callerOf now presented) :=
  undecided_bind_iff fun _ => not_undecided_ok _

theorem undecided_adminVerdict_iff {presented : Option String} :
    Undecided (server.adminVerdict now presented) ↔ Undecided (server.callerOf now presented) := by
  refine undecided_bind_iff fun caller => ?_
  exact (undecided_bind_iff fun _ => not_undecided_ok _).not.mpr
    (server.settings.not_undecided_authorizeAdmin caller.pubkey)

/-! ### Logins -/

theorem undecided_issueTo_iff {login : LoginRequest} :
    Undecided (server.issueTo now login) ↔
      (server.sessions.isInitialized = false ∨
        SessionService.lastTime < server.sessions.lifetime) ∧
        ∃ signer, recoverTextSigner login.signature login.message = .ok signer := by
  cases hsigner : recoverTextSigner login.signature login.message with
  | error cause => simp [issueTo, hsigner, AccessError.ofSignature]
  | ok signer =>
      have hverdict : server.issueTo now login =
          ((server.sessions.issue signer.hex [] now).mapError .ofSession).map
            fun token => ⟨signer.hex, token, server.settings.isAdmin signer.hex⟩ := by
        simp only [issueTo, hsigner, policy_eq]
        cases server.sessions.issue signer.hex [] now <;> rfl
      rw [hverdict, undecided_map_iff, SessionService.undecided_issue_iff signer.hex_ne_empty]
      simp

theorem status_loginRequest_lt {response : Response} (h : loginRequest request = .error response) :
    response.status < 500 := by
  rw [loginRequest] at h
  split_ifs at h
  · rw [← Except.error.inj h]
    decide
  · rw [← Except.error.inj h]
    decide
  · split at h
    · exact absurd h (by simp)
    · rw [← Except.error.inj h]
      decide
    · rw [← Except.error.inj h]
      decide

/-! ### Statuses -/

theorem States.status_eq_500_iff {response : Response} {verdict : Except AccessError Bytes}
    (h : States response verdict) : response.status = 500 ↔ Undecided verdict := by
  cases verdict with
  | ok body => simp [h.left]
  | error error => rw [h.left, undecided_error_iff, error.status_eq_500_iff]

theorem status_response_lt {α : Type} {verdict : Except AccessError α} {error : AccessError}
    (h : verdict = .error error) (hdecided : ¬Undecided verdict) : error.response.status < 500 := by
  rw [h, undecided_error_iff, ← AccessError.status_eq_500_iff] at hdecided
  exact lt_of_le_of_ne error.status_le hdecided

theorem status_login_le : (server.login now request).status ≤ 500 := by
  rw [Server.login]
  split
  · rename_i hrefused
    exact (status_loginRequest_lt hrefused).le
  · split
    · exact AccessError.status_le _
    · exact (by decide : 200 ≤ 500)

theorem status_login_eq_500_iff :
    (server.login now request).status = 500 ↔
      (server.sessions.isInitialized = false ∨
        SessionService.lastTime < server.sessions.lifetime) ∧ LogsIn request := by
  cases hlogin : loginRequest request with
  | error response =>
      refine iff_of_false ?_ ?_
      · rw [Server.login, hlogin]
        exact (status_loginRequest_lt hlogin).ne
      · rintro ⟨-, login, signer, hread, -⟩
        exact absurd (hlogin.symm.trans hread) (by simp)
  | ok login =>
      rw [(states_login server now hlogin).status_eq_500_iff, undecided_map_iff,
        undecided_issueTo_iff, LogsIn, hlogin]
      simp

/-! ### A service in order -/

section InOrder

variable (hkey : server.sessions.isInitialized = true)
  (hlifetime : (server.sessions.lifetime : Int) ≤ SessionService.lastTime)

include hkey

theorem not_undecided_authenticateRequest : ¬Undecided (server.authenticateRequest now request) := by
  rw [undecided_authenticateRequest_iff, hkey]
  simp

theorem not_undecided_requireCaller {known : Option Caller} :
    ¬Undecided (server.requireCaller now request known).1 :=
  fun h => not_undecided_authenticateRequest hkey (undecided_requireCaller_iff.mp h).right

theorem not_undecided_requireAdmin {known : Option Caller} :
    ¬Undecided (server.requireAdmin now request known).1 :=
  fun h => not_undecided_authenticateRequest hkey (undecided_requireAdmin_iff.mp h).right

theorem status_protect_lt {protection : Protection} {next : Option Caller → Response}
    (hnext : ∀ known, (next known).status < 500) :
    (server.protect now request protection next).status < 500 := by
  cases protection with
  | none => exact hnext none
  | caller =>
      simp only [protect]
      split
      · exact hnext _
      · exact status_response_lt ‹_› (not_undecided_authenticateRequest hkey)
  | admin =>
      simp only [protect]
      split
      · split
        · exact hnext _
        · exact status_response_lt ‹_› (server.policy.not_undecided_authorizeAdmin _)
      · exact status_response_lt ‹_› (not_undecided_authenticateRequest hkey)
  | secret =>
      simp only [protect, ConnectionGate.guard]
      split
      · exact hnext none
      · exact status_response_lt ‹_› (server.gate.not_undecided_authorize _)

include hlifetime

theorem status_answer_lt (known : Option Caller) {endpoint : Endpoint}
    (h : server.documentation.IsStatic ∨ endpoint ∈ Endpoint.documented) :
    (server.answer now request known endpoint).status < 500 := by
  have hshown (hnone : endpoint ∉ Endpoint.documented) :
      (server.documentation .declared request).status < 500 :=
    (h.resolve_right hnone).status_lt
  cases endpoint with
  | health => simp [answer, health, Response.json, hkey]
  | login =>
      refine lt_of_le_of_ne status_login_le fun h => ?_
      obtain ⟨hfault, -⟩ := status_login_eq_500_iff.mp h
      rcases hfault with hunset | hlong
      · exact absurd (hunset.symm.trans hkey) (by decide)
      · exact absurd hlifetime (not_le.mpr hlong)
  | me =>
      simp only [answer, me]
      split
      · exact (by decide : 200 < 500)
      · exact status_response_lt ‹_› (not_undecided_requireCaller hkey)
  | adminStatus =>
      simp only [answer, adminStatus]
      split
      · exact (by decide : 200 < 500)
      · exact status_response_lt ‹_› (not_undecided_requireAdmin hkey)
  | connectionVerify => exact (by decide : 200 < 500)
  | description => exact hshown (by decide)
  | pages => exact hshown (by decide)
  | page => exact hshown (by decide)

theorem status_route_lt {endpoint : Option Endpoint}
    (h : ∀ asked, endpoint = some asked →
      server.documentation.IsStatic ∨ asked ∈ Endpoint.documented) :
    (server.route now request endpoint).status < 500 := by
  cases endpoint with
  | none => exact (by decide : 404 < 500)
  | some endpoint =>
      simp only [route, answerAt]
      split
      · exact status_protect_lt hkey fun known => status_answer_lt hkey hlifetime known (h _ rfl)
      · exact status_protect_lt hkey fun _ => (by decide : 405 < 500)

/-- With a service in order, no request is answered with a fault of the server. -/
theorem status_respond_lt (h : server.documentation.IsStatic ∨ ¬AsksDocumentation request) :
    (server.respond now request).status < 500 := by
  rw [respond, status_repeatRequestId]
  have hasked (endpoint : Endpoint) (hpath : Endpoint.ofPath? request.target.path = some endpoint) :
      server.documentation.IsStatic ∨ endpoint ∈ Endpoint.documented :=
    h.imp_right fun hasks => of_not_not fun hnone => hasks ⟨endpoint, hpath, hnone⟩
  -- Without its body, a response keeps its status.
  have hresponse : ((if request.method = .options then
      invite (Endpoint.ofPath? request.target.path)
    else shareResponse (server.route now request (Endpoint.ofPath? request.target.path))) :
      Response).status < 500 := by
    split
    · cases Endpoint.ofPath? request.target.path <;> exact (by decide : 200 < 500)
    · exact status_route_lt hkey hlifetime hasked
  split
  · exact hresponse
  · exact hresponse

end InOrder

/-! ### Without the service -/

/-- A credential that is no session is judged the same on servers that differ in their sessions. -/
theorem authenticateRequest_of_settings_eq {other : Server} (h : ¬PresentsSession request) :
    other.authenticateRequest now request = server.authenticateRequest now request := by
  rw [authenticateRequest, authenticateRequest]
  cases htoken : presentedToken? request.headers request.target with
  | none => rfl
  | some token =>
      have hlooks : ¬looksLikeSession token = true := fun hlooks => h ⟨token, htoken, hlooks⟩
      simp only [authenticate, if_neg hlooks]

theorem respond_of_settings_eq {other : Server} {endpoint : Endpoint}
    (hendpoint : endpoint = .me ∨ endpoint = .adminStatus)
    (hpath : request.target.path = Bytes.ofString endpoint.path)
    (hsettings : other.settings = server.settings) (h : ¬PresentsSession request) :
    other.respond now request = server.respond now request := by
  -- The sessions have a say only in who the caller is: all else is read off the settings.
  have hfound : other.authenticateRequest now request = server.authenticateRequest now request :=
    authenticateRequest_of_settings_eq h
  rcases hendpoint with rfl | rfl
  · have hroute : Endpoint.ofPath? request.target.path = some .me :=
      hpath ▸ ofPath?_path .me (by decide)
    simp only [respond, hroute, route, answerAt, Endpoint.protection, protect, answer, me,
      requireCaller, describeCaller, policy_eq, hfound, hsettings]
  · have hroute : Endpoint.ofPath? request.target.path = some .adminStatus :=
      hpath ▸ ofPath?_path .adminStatus (by decide)
    simp only [respond, hroute, route, answerAt, Endpoint.protection, protect, answer, adminStatus,
      requireAdmin, requireCaller, policy_eq, hfound, hsettings]

/-- A signed timestamp is never taken for a session, however old it is. -/
theorem not_presentsSession_of_verify {token : String} {checkTime : Bool} {time : Int}
    {key : Secp256k1.PublicKey}
    (htoken : presentedToken? request.headers request.target = some token)
    (hverify : SignedTimestamp.verify token checkTime time = .ok key) : ¬PresentsSession request := by
  rintro ⟨presented, hpresented, hlooks⟩
  obtain rfl : presented = token := Option.some.inj (hpresented.symm.trans htoken)
  exact absurd hlooks (by simp [SignedTimestamp.not_looksLikeSession_of_verify hverify])

/-! ### The documented endpoints -/

section Documented

variable {endpoint : Endpoint}

theorem status_respond_of_isAskedBy (hendpoint : endpoint ∈ Endpoint.documented)
    (h : endpoint.IsAskedBy request) :
    (server.respond now request).status =
      (server.protect now request endpoint.protection fun known =>
        server.answer now request known endpoint).status := by
  have htakes : endpoint.takes request.method = true := by
    rw [h.method]
    cases endpoint <;> rfl
  have hoptions : request.method ≠ .options := by
    rw [h.method]
    split <;> simp
  have hhead : request.method ≠ .head := by
    rw [h.method]
    split <;> simp
  rw [status_respond server now hoptions hhead, h.path, ofPath?_path endpoint hendpoint, route,
    answerAt_of_takes server now request htakes]

/-- Only the session service lets a documented endpoint fail. -/
theorem status_respond_eq_500_iff (hendpoint : endpoint ∈ Endpoint.documented)
    (h : endpoint.IsAskedBy request) :
    (server.respond now request).status = 500 ↔
      (server.sessions.isInitialized = false ∨
        SessionService.lastTime < server.sessions.lifetime) ∧ endpoint = .login ∧ LogsIn request ∨
      server.sessions.isInitialized = false ∧ (endpoint = .me ∨ endpoint = .adminStatus) ∧
        PresentsSession request := by
  cases endpoint with
  | health =>
      rw [status_respond_of_isAskedBy hendpoint h]
      simp only [Endpoint.protection, protect, answer, health, Response.json]
      split <;> simp
  | login =>
      rw [status_respond_of_isAskedBy hendpoint h]
      simp only [Endpoint.protection, protect, answer, status_login_eq_500_iff]
      simp
  | me =>
      rw [(states_respond_meVerdict server now h.method h.path).status_eq_500_iff,
        undecided_meVerdict_iff, ← authenticateRequest_eq, undecided_authenticateRequest_iff]
      simp
  | adminStatus =>
      rw [(states_respond_adminVerdict server now h.method h.path).status_eq_500_iff,
        undecided_adminVerdict_iff, ← authenticateRequest_eq, undecided_authenticateRequest_iff]
      simp
  | connectionVerify =>
      refine iff_of_false ?_ (by simp)
      rw [(states_respond_connectionVerdict server now h.method h.path).status_eq_500_iff,
        connectionVerdict_eq, undecided_map_iff]
      exact server.gate.not_undecided_authorize request.headers
  | description => exact absurd hendpoint (by decide)
  | pages => exact absurd hendpoint (by decide)
  | page => exact absurd hendpoint (by decide)

end Documented

/-- A documented endpoint fails only for want of the session service: a login that names its signer
needs a key and a lifetime that can be written, and a session, or what is taken for one, needs the
key to be checked. A server with both never fails, whatever it is asked, if its documentation does
not. Whoever presents no session, and a signed timestamp never is one, is told the same of itself and
of the server with any service, in order or not. -/
theorem respond_failure {server : Server} {now : Int64} {endpoint : Endpoint} {request : Request}
    (hendpoint : endpoint ∈ Endpoint.documented) (hasked : endpoint.IsAskedBy request) :
    ((server.respond now request).status = 500 ↔
      (server.sessions.isInitialized = false ∧
        (endpoint = .login ∧ LogsIn request ∨
          (endpoint = .me ∨ endpoint = .adminStatus) ∧ PresentsSession request)) ∨
      (server.sessions.isInitialized = true ∧ 2 ^ 63 - 1 < (server.sessions.lifetime : Int) ∧
        endpoint = .login ∧ LogsIn request)) ∧
    (server.sessions.isInitialized = true → (server.sessions.lifetime : Int) ≤ 2 ^ 63 - 1 →
      ∀ other : Request, server.documentation.IsStatic ∨ ¬AsksDocumentation other →
        (server.respond now other).status < 500) ∧
    (endpoint = .me ∨ endpoint = .adminStatus →
      (¬PresentsSession request → ∀ other : Server, other.settings = server.settings →
        other.respond now request = server.respond now request) ∧
      ∀ token checkTime past key, presentedToken? request.headers request.target = some token →
        SignedTimestamp.verify token checkTime past = .ok key → ¬PresentsSession request) := by
  refine ⟨?_, fun hkey hlifetime _ => status_respond_lt hkey hlifetime, fun hprotected => ⟨?_, ?_⟩⟩
  · rw [status_respond_eq_500_iff hendpoint hasked]
    have hlast : SessionService.lastTime = 2 ^ 63 - 1 := rfl
    cases hkey : server.sessions.isInitialized with
    | false => simp
    | true => simp [hlast]
  · intro hnone other hsettings
    exact respond_of_settings_eq hprotected hasked.path hsettings hnone
  · intro token checkTime past key
    exact not_presentsSession_of_verify

/-- Without a key, what is taken for a session is not judged; with a lifetime that cannot be written,
a login is not answered. A server with both refuses the session, and has no page to show. -/
theorem respond_failure_unset :
    let server (sessions : SessionService) : Server := .new ⟨[], "", "", ""⟩ sessions .empty
    let asking : Request :=
      ⟨.get, ⟨Bytes.ofString "/v1/auth/me", none⟩, [⟨"token", Bytes.ofString "a.b"⟩], []⟩
    let login : Request := ⟨.post, ⟨Bytes.ofString "/v1/auth/login", none⟩,
      [⟨"content-type", Bytes.ofString "application/json"⟩], LoginRequest.print ⟨"hi",
        "H3m-Zn753LusVaBilc6HCwcCm_zbLc4o2VnygVsW-BeYGbCvPhWByCNWc6z6lVTR6l8S33NbCHKmyy2jA80eaOI="⟩⟩
    let reading : Request := ⟨.get, ⟨Bytes.ofString "/docs/x", none⟩, [], []⟩
    ((server (.new 604800)).respond 1000 asking).status = 500 ∧
      ((server ⟨some ⟨[107], by decide⟩, 2 ^ 63⟩).respond 1000 login).status = 500 ∧
      ((server ⟨some ⟨[107], by decide⟩, 604800⟩).respond 1000 asking).status < 500 ∧
      ((server ⟨some ⟨[107], by decide⟩, 604800⟩).respond 1000 reading).status < 500 := by
  intro server asking login reading
  have hasking : Endpoint.IsAskedBy .me asking := ⟨rfl, rfl⟩
  have hlogin : Endpoint.IsAskedBy .login login := ⟨rfl, rfl⟩
  have hsession : PresentsSession asking := ⟨"a.b", by decide, by decide⟩
  have hread : loginRequest login = .ok ⟨"hi",
      "H3m-Zn753LusVaBilc6HCwcCm_zbLc4o2VnygVsW-BeYGbCvPhWByCNWc6z6lVTR6l8S33NbCHKmyy2jA80eaOI="⟩ := by
    decide +kernel
  have hlogsIn : LogsIn login := ⟨_, _, hread, recoverTextSigner_hi⟩
  have hendpoint : ¬AsksDocumentation asking := by
    rintro ⟨endpoint, hpath, hnone⟩
    obtain rfl : .me = endpoint := Option.some.inj ((ofPath?_path .me (by decide)).symm.trans hpath)
    exact hnone (by decide)
  obtain ⟨hunset, -, -⟩ := @respond_failure (server (.new 604800)) 1000 .me asking (by decide) hasking
  obtain ⟨hlong, -, -⟩ := @respond_failure (server ⟨some ⟨[107], by decide⟩, 2 ^ 63⟩) 1000 .login login
    (by decide) hlogin
  obtain ⟨-, hnever, -⟩ := @respond_failure (server ⟨some ⟨[107], by decide⟩, 604800⟩) 1000 .me asking
    (by decide) hasking
  exact ⟨hunset.mpr (Or.inl ⟨rfl, Or.inr ⟨Or.inl rfl, hsession⟩⟩),
    hlong.mpr (Or.inr ⟨rfl, by decide, rfl, hlogsIn⟩),
    hnever rfl (by decide) asking (Or.inr hendpoint),
    hnever rfl (by decide) reading (Or.inl Documentation.isStatic_empty)⟩

end Server

end WalletAuth
