import WalletAuth.Proofs.Api.Standing

/-! What the protected endpoints answer. Each check that can fail has a refusal of its own and the
first one that fails decides; whoever passes them all is told of itself what its credential says. Of
a request, only the credential in it has a say. -/

namespace WalletAuth.Server

open Http (Request Response)
open Json (Value)

/-- A response refuses, with a message and the name of the error. -/
def Refuses (response : Response) (status : Nat) (message code : String) : Prop :=
  Answers response status (.object [("error", .text message), ("error_code", .text code)])

/-- A response refuses a credential for what is wrong with it, or because the server cannot tell. No
other error says anything of a credential. -/
def RefusesFor (response : Response) : AccessError → Prop
  | .invalidSessionToken => Refuses response 401 "Session token is invalid" "invalid_session_token"
  | .tokenExpired => Refuses response 401 "Session token has expired" "token_expired"
  | .invalidSignature detail =>
    Refuses response 401 ("Signature is invalid: " ++ detail) "invalid_signature"
  | .internal detail =>
    Refuses response 500 ("Internal authentication error: " ++ detail) "internal_error"
  | _ => False

section Responses

variable (server : Server) (now : Int64) (presented : Option String) (response : Response)

/-- Who presents no credential, or one that is not good, is refused for that. -/
structure RefusesStrangers : Prop where
  missing : presented = none →
    Refuses response 401 "Authentication token is required" "missing_token"
  refused : ∀ token error, presented = some token → server.authenticate now token = .error error →
    RefusesFor response error

/-- The answer to who asks for itself. -/
structure TellsCaller : Prop extends RefusesStrangers server now presented response where
  status_eq_ok_iff : response.status = 200 ↔
    ∃ token caller, presented = some token ∧ server.authenticate now token = .ok caller
  told : ∀ token caller, presented = some token → server.authenticate now token = .ok caller →
    Answers response 200
      (.object ([("pubkey", .text caller.pubkey),
        ("method", .text (if caller.method = .session then "session" else "signed_timestamp")),
        ("is_admin", .bool (server.settings.isAdmin caller.pubkey)),
        ("free_pass", .bool server.settings.freePass)] ++
        (caller.expiresAt.map fun time => ("expires_at", .ofInt time.toInt)).toList))

/-- The answer to who asks how the server is governed. The admins are counted in 64 bits. -/
structure TellsStanding : Prop extends RefusesStrangers server now presented response where
  status_eq_ok_iff : response.status = 200 ↔
    ∃ token caller, presented = some token ∧ server.authenticate now token = .ok caller ∧
      server.settings.authorizeAdmin caller.pubkey = .ok ()
  denied : ∀ token caller, presented = some token → server.authenticate now token = .ok caller →
    server.settings.authorizeAdmin caller.pubkey ≠ .ok () →
    Refuses response 401 "Pubkey is not authorized for this operation" "authorization_denied"
  told : ∀ token caller, presented = some token → server.authenticate now token = .ok caller →
    server.settings.authorizeAdmin caller.pubkey = .ok () →
    server.settings.admins.length < 2 ^ 64 →
    Answers response 200
      (.object [("pubkey", .text caller.pubkey), ("free_pass", .bool server.settings.freePass),
        ("admin_count", .ofNat server.settings.admins.length)])

/-- The answer to who presents the connection secret, or something else for it. A secret that is
empty is none. -/
structure ChecksSecret (value : Option Bytes) : Prop where
  status_eq_ok_iff : response.status = 200 ↔
    value = some (Bytes.ofString server.settings.connectionSecret) ∧
      server.settings.connectionSecret ≠ ""
  missing : value = none ∨ value = some [] →
    Refuses response 401 "Authentication token is required" "missing_token"
  refused : ∀ bytes, value = some bytes → bytes ≠ [] →
    bytes ≠ Bytes.ofString server.settings.connectionSecret →
    Refuses response 401 "Connection token is invalid" "invalid_connection_token"
  accepted : value = some (Bytes.ofString server.settings.connectionSecret) →
    server.settings.connectionSecret ≠ "" → Answers response 200 (.object [("status", .text "ok")])

end Responses

section Verdicts

variable {server : Server} {now : Int64} {presented : Option String} {response : Response}

/-- A credential is refused by the sessions or by the check of a signed timestamp. -/
theorem exists_cause_of_authenticate {token : String} {error : AccessError}
    (h : server.authenticate now token = .error error) :
    (∃ cause, error = .ofSession cause) ∨ ∃ cause, error = .ofTimestamp cause := by
  rw [authenticate] at h
  split at h
  · cases hverify : server.sessions.verify token now with
    | ok claims => exact absurd h (by simp [hverify])
    | error cause => exact Or.inl ⟨cause, (Except.error.inj (hverify ▸ h)).symm⟩
  · cases hverify : SignedTimestamp.verify token true now.toInt with
    | ok key => exact absurd h (by simp [hverify])
    | error cause => exact Or.inr ⟨cause, (Except.error.inj (hverify ▸ h)).symm⟩

theorem States.refusesFor {token : String} {error : AccessError}
    (h : States response (.error error)) (herror : server.authenticate now token = .error error) :
    RefusesFor response error := by
  have hanswers := h.answers_error
  rcases exists_cause_of_authenticate herror with ⟨cause, rfl⟩ | ⟨cause, rfl⟩
  · cases cause <;> exact hanswers
  · exact hanswers

theorem callerOf_of_token {token : String} (h : presented = some token) :
    server.callerOf now presented = server.authenticate now token := by
  rw [h, callerOf]

theorem States.refusesStrangers {verdict : Except AccessError Bytes} (h : States response verdict)
    (hverdict : ∀ error, server.callerOf now presented = .error error → verdict = .error error) :
    RefusesStrangers server now presented response where
  missing hnone := by
    rw [hverdict .missingToken (by rw [hnone, callerOf])] at h
    exact h.answers_error
  refused token error htoken herror := by
    rw [hverdict error ((callerOf_of_token htoken).trans herror)] at h
    exact h.refusesFor herror

theorem States.tellsCaller (h : States response (server.meVerdict now presented)) :
    TellsCaller server now presented response where
  toRefusesStrangers := h.refusesStrangers fun _ herror => (verdicts_of_error herror).left
  status_eq_ok_iff := h.status_eq_iff.trans meVerdict_eq_ok_iff
  told token caller htoken hcaller := by
    rw [meVerdict, callerOf_of_token htoken, hcaller] at h
    have hanswers := h.answers_me
    -- The method is named and the expiry left out case by case.
    obtain ⟨pubkey, method, expiresAt⟩ := caller
    cases method <;> cases expiresAt <;> exact hanswers

theorem States.tellsStanding (h : States response (server.adminVerdict now presented)) :
    TellsStanding server now presented response where
  toRefusesStrangers := h.refusesStrangers fun _ herror => (verdicts_of_error herror).right
  status_eq_ok_iff := h.status_eq_iff.trans adminVerdict_eq_ok_iff
  denied token caller htoken hcaller hdenied := by
    rw [adminVerdict_of_ok ((callerOf_of_token htoken).trans hcaller),
      if_neg (AuthSettings.authorizeAdmin_eq_ok_iff.not.mp hdenied)] at h
    exact h.answers_error
  told token caller htoken hcaller hadmin hcount := by
    rw [adminVerdict_of_ok ((callerOf_of_token htoken).trans hcaller),
      if_pos (AuthSettings.authorizeAdmin_eq_ok_iff.mp hadmin)] at h
    exact h.answers_adminStatus hcount

theorem States.checksSecret {value : Option Bytes}
    (h : States response (server.connectionVerdict value)) :
    ChecksSecret server response value where
  status_eq_ok_iff := h.status_eq_iff.trans connectionVerdict_eq_ok_iff
  missing hmissing := by
    rw [connectionVerdict, if_pos hmissing] at h
    exact h.answers_error
  refused bytes hvalue hempty hother := by
    rw [connectionVerdict, hvalue, if_neg (by simp [hempty]), if_neg (by simp [hother])] at h
    exact h.answers_error
  accepted hvalue hsecret := by
    have hpresent : ¬(value = none ∨ value = some []) := by
      simp [hvalue, Bytes.ofString_eq_nil_iff, hsecret]
    rw [connectionVerdict, if_neg hpresent, if_pos hvalue] at h
    exact h.answers_ok (.object (by simp [StatusResponse.ok, Value.Within.text]))

end Verdicts

/-- The protected endpoints answer exactly the requests that pass their checks, and refuse every
other one with the error of the first check that fails. Who is asking is told what its credential
says of it, and every other request that presents the same credential is told the same. -/
theorem respond_protected (server : Server) (now : Int64) (query : Option Bytes)
    (headers : Http.Headers) (body : Bytes) :
    let me : Request := ⟨.get, ⟨Bytes.ofString "/v1/auth/me", query⟩, headers, body⟩
    let status : Request := ⟨.get, ⟨Bytes.ofString "/v1/admin/status", query⟩, headers, body⟩
    let verify : Request := ⟨.post, ⟨Bytes.ofString "/v1/connection/verify", query⟩, headers, body⟩
    TellsCaller server now (presentedToken? headers me.target) (server.respond now me) ∧
    TellsStanding server now (presentedToken? headers status.target) (server.respond now status) ∧
    ChecksSecret server (server.respond now verify) (headers.first? "token") ∧
    ∀ asking ∈ [me, status], ∀ other : Request, other.method = .get →
      other.target.path = asking.target.path →
      presentedToken? other.headers other.target = presentedToken? headers asking.target →
      (server.respond now other).status = (server.respond now asking).status ∧
        (server.respond now other).body = (server.respond now asking).body := by
  intro me status verify
  have hme : States (server.respond now me)
      (server.meVerdict now (presentedToken? headers me.target)) :=
    states_respond_meVerdict server now rfl rfl
  have hstatus : States (server.respond now status)
      (server.adminVerdict now (presentedToken? headers status.target)) :=
    states_respond_adminVerdict server now rfl rfl
  have hverify : States (server.respond now verify)
      (server.connectionVerdict (headers.first? tokenName)) :=
    states_respond_connectionVerdict server now rfl rfl
  refine ⟨hme.tellsCaller, hstatus.tellsStanding, hverify.checksSecret, ?_⟩
  intro asking hasking other hmethod hpath htoken
  rcases List.mem_pair.mp hasking with rfl | rfl
  · exact (htoken ▸ states_respond_meVerdict server now hmethod hpath).unique hme
  · exact (htoken ▸ states_respond_adminVerdict server now hmethod hpath).unique hstatus

/-- Of two sessions, that of an admin is let through and the other one only told of itself. -/
theorem respond_protected_sessions :
    let server : Server := .new ⟨["a"], "a", "", "k"⟩ ⟨some ⟨[107], by decide⟩, 604800⟩ .empty
    let ask (path : String) (headers : Http.Headers) : Response :=
      server.respond 1000 ⟨.get, ⟨Bytes.ofString path, none⟩, headers, []⟩
    ∃ admin guest : Http.Headers,
      Answers (ask "/v1/auth/me" guest) 200
        (.object [("pubkey", .text "b"), ("method", .text "session"), ("is_admin", .bool false),
          ("free_pass", .bool false), ("expires_at", .ofInt 605800)]) ∧
      Refuses (ask "/v1/admin/status" guest) 401 "Pubkey is not authorized for this operation"
        "authorization_denied" ∧
      Answers (ask "/v1/admin/status" admin) 200
        (.object [("pubkey", .text "a"), ("free_pass", .bool false), ("admin_count", .ofNat 1)]) ∧
      Refuses (ask "/v1/auth/me" []) 401 "Authentication token is required" "missing_token" ∧
      Answers (server.respond 1000 ⟨.post, ⟨Bytes.ofString "/v1/connection/verify", none⟩,
        [⟨"token", Bytes.ofString "k"⟩], []⟩) 200 (.object [("status", .text "ok")]) := by
  intro server ask
  -- Both sessions are issued by the server.
  have hissued (name : String) (hname : name ≠ "") : ∃ headers : Http.Headers, ∃ token,
      (∀ target, presentedToken? headers target = some token) ∧
        server.authenticate 1000 token = .ok ⟨name, .session, some 605800⟩ := by
    obtain ⟨token, -, hpointed, hverify⟩ :=
      @SessionService.exists_issue server.sessions ⟨[107], by decide⟩ name 1000 rfl (by decide)
        hname (by decide)
    refine ⟨[⟨"token", Bytes.ofString token⟩], token, presentedToken?_of_isPointed hpointed rfl, ?_⟩
    exact (authenticate_of_looksLikeSession (looksLikeSession_of_isPointed hpointed)).mpr
      ⟨_, (hverify 1000).trans (if_neg (by decide)), rfl⟩
  obtain ⟨admin, adminToken, hadmin, hadminCaller⟩ := hissued "a" (by decide)
  obtain ⟨guest, guestToken, hguest, hguestCaller⟩ := hissued "b" (by decide)
  obtain ⟨hguestMe, hguestStatus, -⟩ := respond_protected server 1000 none guest []
  obtain ⟨-, hadminStatus, -⟩ := respond_protected server 1000 none admin []
  obtain ⟨hnobody, -⟩ := respond_protected server 1000 none [] []
  obtain ⟨-, -, hsecret, -⟩ := respond_protected server 1000 none [⟨"token", Bytes.ofString "k"⟩] []
  exact ⟨admin, guest, hguestMe.told guestToken _ (hguest _) hguestCaller,
    hguestStatus.denied guestToken _ (hguest _) hguestCaller (by decide),
    hadminStatus.told adminToken _ (hadmin _) hadminCaller (by decide) (by decide),
    hnobody.missing rfl, hsecret.accepted rfl (by decide)⟩

end WalletAuth.Server
