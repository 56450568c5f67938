import WalletAuth.Proofs.Access.Transport
import WalletAuth.Proofs.Api.Protection
import WalletAuth.Proofs.Signature.Signing

/-! Logging in, and asking who one is. The token of a login passes through a header field as it is, is
told apart from a signed timestamp, and names its caller until it has expired; both answers say the
same of the caller. -/

namespace WalletAuth

open Http (Request Response)
open Json (Value)

namespace Server

/-! ### Answers in JSON -/

/-- A response of a status whose body is the text of a value. -/
def Answers (response : Response) (status : Nat) (value : Value) : Prop :=
  response.status = status ∧ Json.parse? response.body = some value

section Answers

variable {response : Response}

theorem States.answers_ok {value : Value} (h : States response (.ok value.print))
    (hwithin : value.Within Json.maxDepth) : Answers response 200 value :=
  ⟨h.left, by rw [h.right, Json.parse?_print hwithin]⟩

theorem States.answers_error {error : AccessError} (h : States response (.error error)) :
    Answers response error.status
      (.object [("error", .text error.message), ("error_code", .text error.code)]) := by
  refine ⟨h.left, ?_⟩
  rw [h.right, AccessError.print, Json.parse?_print]
  exact .object (by simp [Value.Within.text])

end Answers

section Endpoints

variable (server : Server) (now : Int64) {request : Request} {login : LoginRequest} {token : String}

/-! ### Verdicts -/

theorem states_login (hlogin : loginRequest request = .ok login) :
    States (server.login now request) ((server.issueTo now login).map LoginResponse.print) := by
  simp only [Server.login, hlogin]
  cases server.issueTo now login with
  | error error => exact states_response error
  | ok answer => exact states_json _

theorem answerAt_login (hmethod : request.method = .post) :
    server.answerAt now request .login = server.login now request :=
  answerAt_of_takes server now request (by rw [hmethod]; rfl)

theorem states_answerAt_login (hmethod : request.method = .post)
    (hlogin : loginRequest request = .ok login) :
    States (server.answerAt now request .login)
      ((server.issueTo now login).map LoginResponse.print) :=
  answerAt_login server now hmethod ▸ states_login server now hlogin

theorem states_respond_me (hmethod : request.method = .get)
    (hpath : request.target.path = Bytes.ofString Endpoint.me.path)
    (htoken : presentedToken? request.headers request.target = some token) :
    States (server.respond now request)
      ((server.authenticate now token).map fun caller => (server.describeCaller caller).print) := by
  have hstates := states_respond_meVerdict server now hmethod hpath
  rw [htoken] at hstates
  exact hstates

variable {server now}

/-! ### What is answered -/

theorem issueTo_eq {signer : Secp256k1.PublicKey}
    (hsigner : recoverTextSigner login.signature login.message = .ok signer)
    (hissue : server.sessions.issue signer.hex [] now = .ok token) :
    server.issueTo now login = .ok ⟨signer.hex, token, server.settings.isAdmin signer.hex⟩ := by
  simp only [issueTo, hsigner, hissue, policy_eq]

theorem respond_login {answer : LoginResponse} (hmethod : request.method = .post)
    (hpath : request.target.path = Bytes.ofString Endpoint.login.path)
    (hlogin : loginRequest request = .ok login) (hissue : server.issueTo now login = .ok answer) :
    Answers (server.respond now request) 200
      (.object [("pubkey", .text answer.pubkey), ("token", .text answer.token),
        ("is_admin", .bool answer.isAdmin)]) := by
  have hstates := states_answerAt_login server now hmethod hlogin
  rw [hissue] at hstates
  have hendpoint : Endpoint.ofPath? request.target.path = some .login :=
    hpath ▸ ofPath?_path .login (by decide)
  apply (hstates.respond server now hendpoint (Or.inr hmethod)).answers_ok
  exact .object (by simp [Value.Within.text, Value.Within.bool])

theorem within_expiryFields (expiresAt : Option Int64) {depth : Nat} :
    ∀ field ∈ expiryFields expiresAt, field.2.Within depth := by
  cases expiresAt with
  | none => exact fun _ hfield => absurd hfield List.not_mem_nil
  | some time =>
      intro field hfield
      rw [List.mem_singleton.mp hfield]
      exact (ClaimValue.Plain.integer time).within_toJson

theorem States.answers_me {response : Response} {caller : Caller}
    (h : States response (.ok (server.describeCaller caller).print)) :
    Answers response 200
      (.object ([("pubkey", .text caller.pubkey), ("method", .text caller.method.name),
        ("is_admin", .bool (server.settings.isAdmin caller.pubkey)),
        ("free_pass", .bool server.settings.freePass)] ++ expiryFields caller.expiresAt)) := by
  rw [describeCaller_eq] at h
  apply h.answers_ok
  apply Value.Within.object
  rw [List.forall_mem_append]
  exact ⟨by simp [Value.Within.text, Value.Within.bool], within_expiryFields caller.expiresAt⟩

theorem respond_me_ok {caller : Caller} (hmethod : request.method = .get)
    (hpath : request.target.path = Bytes.ofString Endpoint.me.path)
    (htoken : presentedToken? request.headers request.target = some token)
    (hcaller : server.authenticate now token = .ok caller) :
    Answers (server.respond now request) 200
      (.object ([("pubkey", .text caller.pubkey), ("method", .text caller.method.name),
        ("is_admin", .bool (server.settings.isAdmin caller.pubkey)),
        ("free_pass", .bool server.settings.freePass)] ++ expiryFields caller.expiresAt)) := by
  have hstates := states_respond_me server now hmethod hpath htoken
  rw [hcaller] at hstates
  exact hstates.answers_me

theorem respond_me_error {error : AccessError} (hmethod : request.method = .get)
    (hpath : request.target.path = Bytes.ofString Endpoint.me.path)
    (htoken : presentedToken? request.headers request.target = some token)
    (hcaller : server.authenticate now token = .error error) :
    Answers (server.respond now request) error.status
      (.object [("error", .text error.message), ("error_code", .text error.code)]) := by
  have hstates := states_respond_me server now hmethod hpath htoken
  rw [hcaller] at hstates
  exact hstates.answers_error

end Endpoints

/-- Whoever signs a message is given a token. With it, until it expires and a minute longer, the
server names the same key and says the same of it; from then on the token is refused as expired. -/
theorem respond_login_me {server : Server} {key : SessionKey} {issued : Int64} {request : Request}
    {login : LoginRequest} {signer : Secp256k1.PublicKey} (hkey : server.sessions.key = some key)
    (hlifetime : (server.sessions.lifetime : Int) ≤ 2 ^ 63 - 1) (hissued : 0 ≤ issued.toInt)
    (hmethod : request.method = .post)
    (hpath : request.target.path = Bytes.ofString "/v1/auth/login")
    (hlogin : loginRequest request = .ok login)
    (hsigner : recoverTextSigner login.signature login.message = .ok signer) :
    let expiry : Int := min (issued.toInt + server.sessions.lifetime) (2 ^ 63 - 1)
    ∃ token,
      Answers (server.respond issued request) 200
        (.object [("pubkey", .text signer.hex), ("token", .text token),
          ("is_admin", .bool (server.settings.isAdmin signer.hex))]) ∧
      Http.Header.ofBytes? (Bytes.ofString "token") (Bytes.ofString token) =
        some ⟨"token", Bytes.ofString token⟩ ∧
      ∀ (now : Int64) (asking : Request), asking.method = .get →
        asking.target.path = Bytes.ofString "/v1/auth/me" →
        asking.headers.first? "token" = some (Bytes.ofString token) →
        (now.toInt ≤ expiry + 60 →
          Answers (server.respond now asking) 200
            (.object [("pubkey", .text signer.hex), ("method", .text "session"),
              ("is_admin", .bool (server.settings.isAdmin signer.hex)),
              ("free_pass", .bool server.settings.freePass), ("expires_at", .ofInt expiry)])) ∧
        (expiry + 60 < now.toInt →
          Answers (server.respond now asking) 401
            (.object [("error", .text "Session token has expired"),
              ("error_code", .text "token_expired")])) := by
  intro expiry
  have hexpiry : (server.sessions.expiry issued).toInt = expiry :=
    SessionService.toInt_expiry_eq_min server.sessions issued
  obtain ⟨token, hissue, hpointed, hverify⟩ :=
    SessionService.exists_issue hkey hlifetime signer.hex_ne_empty hissued
  refine ⟨token, respond_login hmethod hpath hlogin (issueTo_eq hsigner hissue),
    ofBytes?_of_visible hpointed.bounds, ?_⟩
  intro now asking hget hme hfirst
  have htoken : presentedToken? asking.headers asking.target = some token := by
    rw [presentedToken?, tokenName, hfirst]
    exact headerToken?_of_visible (List.ne_nil_of_mem hpointed.point_mem) hpointed.bounds
  have hlooks := looksLikeSession_of_isPointed hpointed
  have hread := hverify now
  rw [hexpiry, SessionToken.leeway] at hread
  constructor
  · intro hearly
    rw [if_neg (not_lt.mpr hearly)] at hread
    have hcaller := (authenticate_of_looksLikeSession hlooks).mpr ⟨_, hread, rfl⟩
    rw [← hexpiry]
    exact respond_me_ok hget hme htoken hcaller
  · intro hlate
    rw [if_pos hlate] at hread
    have hcaller : server.authenticate now token = .error .tokenExpired := by
      rw [authenticate, if_pos hlooks, hread]
      rfl
    exact respond_me_error hget hme htoken hcaller

/-- A signature made with the nonce one. -/
theorem recoverTextSigner_hi :
    recoverTextSigner
        "H3m-Zn753LusVaBilc6HCwcCm_zbLc4o2VnygVsW-BeYGbCvPhWByCNWc6z6lVTR6l8S33NbCHKmyy2jA80eaOI="
        "hi" =
      .ok (Secp256k1.SigningKey.publicKey ⟨1, by decide⟩) := by
  have hmade : ((Secp256k1.SigningKey.signWith? ⟨1, by decide⟩
      (Secp256k1.Scalar.reduce (digest (Bytes.ofString "hi")).toNat) 1).map fun made =>
        (CompactSignature.ofSignature made.1 made.2).toBase64) = some
          "H3m-Zn753LusVaBilc6HCwcCm_zbLc4o2VnygVsW-BeYGbCvPhWByCNWc6z6lVTR6l8S33NbCHKmyy2jA80eaOI=" := by
    decide +kernel
  obtain ⟨made, hsign, htext⟩ := Option.map_eq_some_iff.mp hmade
  rw [← htext]
  exact recoverTextSigner_toBase64 (recover?_of_signWith? hsign)

theorem respond_login_me_hi :
    let server : Server :=
      .new ⟨[], "", "", ""⟩ ⟨some ⟨[107], by decide⟩, 604800⟩ .empty
    let request : Request := ⟨.post, ⟨Bytes.ofString "/v1/auth/login", none⟩,
      [⟨"content-type", Bytes.ofString "application/json"⟩], LoginRequest.print ⟨"hi",
        "H3m-Zn753LusVaBilc6HCwcCm_zbLc4o2VnygVsW-BeYGbCvPhWByCNWc6z6lVTR6l8S33NbCHKmyy2jA80eaOI="⟩⟩
    let asking (token : String) : Request :=
      ⟨.get, ⟨Bytes.ofString "/v1/auth/me", none⟩, [⟨"token", Bytes.ofString token⟩], []⟩
    ∃ pubkey token,
      Answers (server.respond 1000 request) 200
        (.object [("pubkey", .text pubkey), ("token", .text token), ("is_admin", .bool false)]) ∧
      Answers (server.respond 605860 (asking token)) 200
        (.object [("pubkey", .text pubkey), ("method", .text "session"),
          ("is_admin", .bool false), ("free_pass", .bool true), ("expires_at", .ofInt 605800)]) ∧
      Answers (server.respond 605861 (asking token)) 401
        (.object [("error", .text "Session token has expired"),
          ("error_code", .text "token_expired")]) := by
  intro server request asking
  have hlogin : loginRequest request = .ok ⟨"hi",
      "H3m-Zn753LusVaBilc6HCwcCm_zbLc4o2VnygVsW-BeYGbCvPhWByCNWc6z6lVTR6l8S33NbCHKmyy2jA80eaOI="⟩ := by
    decide +kernel
  have hadmin (pubkey : String) : server.settings.isAdmin pubkey = false := Bool.and_false _
  obtain ⟨token, hanswer, -, hme⟩ :=
    @respond_login_me server ⟨[107], by decide⟩ 1000 request _ _ rfl (by decide) (by decide) rfl rfl
      hlogin recoverTextSigner_hi
  have hexpiry : min ((1000 : Int64).toInt + (server.sessions.lifetime : Int)) (2 ^ 63 - 1) =
      605800 := by decide
  rw [hadmin] at hanswer hme
  simp only [hexpiry] at hme
  obtain ⟨hearly, -⟩ := hme 605860 (asking token) rfl rfl rfl
  obtain ⟨-, hlate⟩ := hme 605861 (asking token) rfl rfl rfl
  exact ⟨_, token, hanswer, hearly (by decide), hlate (by decide)⟩

end Server

end WalletAuth
