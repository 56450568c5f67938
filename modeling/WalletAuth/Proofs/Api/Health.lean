import WalletAuth.Proofs.Api.Failure
import WalletAuth.Proofs.Settings.Session

/-! What a healthy server is able to do. The report on its health looks at the signing key alone,
and a login needs besides a lifetime that can be written. The two come apart exactly where a key is
installed next to a lifetime out of range, which no environment can ask for. -/

namespace WalletAuth.Server

open Http (Request Response)
open Json (Value)

variable {server : Server} {now : Int64} {request : Request}

/-! ### Reports -/

/-- What a report says of a server. -/
def healthReport (server : Server) : Value :=
  .object
    [("status", .text (if server.sessions.isInitialized then "ok" else "degraded")),
      ("checks", .object
        [("service", .text "ok"),
          ("session_keys",
            .text (if server.sessions.isInitialized then "ok" else "uninitialized")),
          ("connection_auth",
            .text (if !server.settings.connectionSecret.isEmpty then "ok" else "unconfigured"))])]

theorem within_healthReport (server : Server) : server.healthReport.Within Json.maxDepth := by
  apply Value.Within.object
  simp only [List.forall_mem_cons]
  refine ⟨.text _, .object ?_, by simp⟩
  simp [Value.Within.text]

theorem route_health (hasked : Endpoint.health.IsAskedBy request) :
    server.route now request (Endpoint.ofPath? request.target.path) = server.health := by
  have hendpoint : Endpoint.ofPath? request.target.path = some .health :=
    hasked.path ▸ ofPath?_path .health (by decide)
  have htakes : Endpoint.takes .health request.method = true := by
    rw [hasked.method]
    rfl
  rw [hendpoint, route, answerAt_of_takes server now request htakes]
  rfl

theorem answers_respond_health (hasked : Endpoint.health.IsAskedBy request) :
    Answers (server.respond now request) (if server.sessions.isInitialized then 200 else 503)
      server.healthReport := by
  have hoptions : request.method ≠ .options := by
    rw [hasked.method]
    decide
  have hhead : request.method ≠ .head := by
    rw [hasked.method]
    decide
  have hstatus := status_respond server now hoptions hhead
  have hbody := body_respond server now hoptions hhead
  rw [route_health hasked] at hstatus hbody
  refine ⟨hstatus.trans rfl, ?_⟩
  rw [hbody]
  exact Json.parse?_print (within_healthReport server)

/-- Whether a server is healthy is a matter of its key, at any time. -/
theorem status_respond_health_eq_ok_iff (hasked : Endpoint.health.IsAskedBy request) :
    (server.respond now request).status = 200 ↔ server.sessions.isInitialized = true := by
  rw [(answers_respond_health hasked).left]
  cases server.sessions.isInitialized <;> simp

theorem degraded_of_not_isInitialized (hasked : Endpoint.health.IsAskedBy request)
    (h : server.sessions.isInitialized = false) :
    (server.respond now request).status = 503 ∧
      bodyField? (server.respond now request) "status" = some (.text "degraded") := by
  have hanswer : Answers (server.respond now request) _ _ := answers_respond_health hasked
  refine ⟨?_, ?_⟩
  · rw [hanswer.left, h]
    rfl
  · rw [hanswer.bodyField?_eq, h]
    rfl

/-! ### Logins -/

section Login

variable (hasked : Endpoint.login.IsAskedBy request) (hlogs : LogsIn request)

include hasked hlogs

theorem exists_states_respond_login (server : Server) (now : Int64) : ∃ login signer,
    recoverTextSigner login.signature login.message = .ok signer ∧
      States (server.respond now request)
        ((server.issueTo now login).map LoginResponse.print) := by
  obtain ⟨login, signer, hlogin, hsigner⟩ := hlogs
  have hendpoint : Endpoint.ofPath? request.target.path = some .login :=
    hasked.path ▸ ofPath?_path .login (by decide)
  exact ⟨login, signer, hsigner,
    (states_answerAt_login server now hasked.method hlogin).respond server now hendpoint
      (Or.inr hasked.method)⟩

/-- A login that names its signer is answered as long as there are a key and a lifetime that can be
written. -/
theorem status_respond_login_eq_ok (hkey : server.sessions.isInitialized = true)
    (hlifetime : (server.sessions.lifetime : Int) ≤ 2 ^ 63 - 1) :
    (server.respond now request).status = 200 := by
  obtain ⟨login, signer, hsigner, hstates⟩ :=
    exists_states_respond_login hasked hlogs server now
  obtain ⟨key, hkey⟩ := Option.isSome_iff_exists.mp hkey
  have hissue : server.sessions.issue signer.hex [] now = .ok _ :=
    SessionService.issue_eq hkey hlifetime signer.hex_ne_empty
  rw [issueTo_eq hsigner hissue] at hstates
  exact hstates.left

/-- Else the server cannot tell. -/
theorem internal_respond_login
    (h : server.sessions.isInitialized = false ∨ 2 ^ 63 - 1 < (server.sessions.lifetime : Int)) :
    (server.respond now request).status = 500 ∧
      bodyField? (server.respond now request) "error_code" = some (.text "internal_error") := by
  obtain ⟨login, signer, hsigner, hstates⟩ :=
    exists_states_respond_login hasked hlogs server now
  obtain ⟨detail, hdetail⟩ : Undecided ((server.issueTo now login).map LoginResponse.print) :=
    undecided_map_iff.mpr (undecided_issueTo_iff.mpr ⟨h, signer, hsigner⟩)
  rw [hdetail] at hstates
  have hanswer := hstates.answers_error
  exact ⟨hanswer.left, hanswer.bodyField?_eq _⟩

theorem status_respond_login_eq_ok_iff :
    (server.respond now request).status = 200 ↔
      server.sessions.isInitialized = true ∧
        (server.sessions.lifetime : Int) ≤ 2 ^ 63 - 1 := by
  constructor
  · intro hok
    by_contra hfault
    rw [not_and_or, Bool.not_eq_true, not_le] at hfault
    have hinternal : (server.respond now request).status = 500 :=
      (internal_respond_login hasked hlogs hfault).left
    exact absurd (hok.symm.trans hinternal) (by decide)
  · exact fun h => status_respond_login_eq_ok hasked hlogs h.left h.right

end Login

/-- A server is healthy exactly if it has a key, and degraded otherwise. It answers a login that
names its signer exactly if it has a key and a lifetime that can be written. So the two agree unless
a key is installed next to a lifetime out of range: then the server is healthy and all logins fail.
With settings from an environment the server is healthy and answers logins. -/
theorem respond_health_login {server : Server} {asking request : Request}
    (hasking : Endpoint.health.IsAskedBy asking) (hasked : Endpoint.login.IsAskedBy request)
    (hlogs : LogsIn request) (now later : Int64) :
    let health := server.respond now asking
    let login := server.respond later request
    (health.status = 200 ↔ server.sessions.isInitialized = true) ∧
    (server.sessions.isInitialized = false →
      health.status = 503 ∧ bodyField? health "status" = some (.text "degraded")) ∧
    (login.status = 200 ↔
      server.sessions.isInitialized = true ∧ (server.sessions.lifetime : Int) ≤ 2 ^ 63 - 1) ∧
    ((health.status = 200 ↔ login.status = 200) ↔
      ¬(server.sessions.isInitialized = true ∧ 2 ^ 63 - 1 < (server.sessions.lifetime : Int))) ∧
    (server.sessions.isInitialized = true → 2 ^ 63 - 1 < (server.sessions.lifetime : Int) →
      health.status = 200 ∧ login.status = 500 ∧
        bodyField? login "error_code" = some (.text "internal_error")) ∧
    (∀ environment settings, SessionSettings.ofEnvironment environment = .ok settings →
      SessionService.ofSecret (Bytes.ofString settings.signingKey) settings.lifetime =
        .ok server.sessions →
      health.status = 200 ∧ login.status = 200) := by
  intro health login
  have hhealth : health.status = 200 ↔ server.sessions.isInitialized = true :=
    status_respond_health_eq_ok_iff hasking
  have hlogin : login.status = 200 ↔ server.sessions.isInitialized = true ∧
      (server.sessions.lifetime : Int) ≤ 2 ^ 63 - 1 :=
    status_respond_login_eq_ok_iff hasked hlogs
  refine ⟨hhealth, degraded_of_not_isInitialized hasking, hlogin, ?_, ?_, ?_⟩
  · rw [hhealth, hlogin, ← not_lt]
    tauto
  · intro hkey hlong
    exact ⟨hhealth.mpr hkey, internal_respond_login hasked hlogs (Or.inr hlong)⟩
  · intro environment settings hsettings hservice
    obtain ⟨hkey, hlifetime⟩ := SessionSettings.bounds_of_ofEnvironment hsettings
    have hsecret : Bytes.ofString settings.signingKey ≠ [] := by
      rwa [ne_eq, Bytes.ofString_eq_nil_iff]
    rw [SessionSettings.ofSecret_eq hsecret] at hservice
    have hsessions := Except.ok.inj hservice
    rw [hhealth, hlogin, ← hsessions]
    exact ⟨rfl, rfl, hlifetime⟩

/-- A lifetime of one second too many. -/
theorem respond_health_login_long :
    let server (sessions : SessionService) : Server := .new ⟨[], "", "", ""⟩ sessions .empty
    let asking : Request := ⟨.get, ⟨Bytes.ofString "/health", none⟩, [], []⟩
    let request : Request := ⟨.post, ⟨Bytes.ofString "/v1/auth/login", none⟩,
      [⟨"content-type", Bytes.ofString "application/json"⟩], LoginRequest.print ⟨"hi",
        "H3m-Zn753LusVaBilc6HCwcCm_zbLc4o2VnygVsW-BeYGbCvPhWByCNWc6z6lVTR6l8S33NbCHKmyy2jA80eaOI="⟩⟩
    ((server ⟨some ⟨[107], by decide⟩, 2 ^ 63⟩).respond 1000 asking).status = 200 ∧
      ((server ⟨some ⟨[107], by decide⟩, 2 ^ 63⟩).respond 1000 request).status = 500 ∧
      ((server (.new 604800)).respond 1000 asking).status = 503 := by
  intro server asking request
  have hasking : Endpoint.IsAskedBy .health asking := ⟨rfl, rfl⟩
  have hasked : Endpoint.IsAskedBy .login request := ⟨rfl, rfl⟩
  have hread : loginRequest request = .ok ⟨"hi",
      "H3m-Zn753LusVaBilc6HCwcCm_zbLc4o2VnygVsW-BeYGbCvPhWByCNWc6z6lVTR6l8S33NbCHKmyy2jA80eaOI="⟩ :=
    by decide +kernel
  have hlogs : LogsIn request := ⟨_, _, hread, recoverTextSigner_hi⟩
  obtain ⟨-, -, -, -, hlong, -⟩ :=
    @respond_health_login (server ⟨some ⟨[107], by decide⟩, 2 ^ 63⟩) asking request hasking hasked
      hlogs 1000 1000
  obtain ⟨-, hunset, -⟩ :=
    @respond_health_login (server (.new 604800)) asking request hasking hasked hlogs 1000 1000
  obtain ⟨hhealth, hfails, -⟩ := hlong rfl (by decide)
  exact ⟨hhealth, hfails, (hunset rfl).left⟩

end WalletAuth.Server
