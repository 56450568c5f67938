import WalletAuth.Proofs.Access.Policy
import WalletAuth.Proofs.Api.Login

/-! What callers are told of their standing, and what they may do. The server tells a caller whether it
is an admin and whether everybody passes for one; it lets the same caller, with the same credential
and at the same time, through to the admin endpoint exactly if it has told one or the other. -/

namespace WalletAuth.Server

open Http (Request Response)
open Json (Value)

/-- What the object in the body of a response has under a name. -/
def bodyField? (response : Response) (name : String) : Option Value :=
  (SessionClaims.parseFields? response.body).bind fun fields => fields.lookup name

theorem Answers.bodyField?_eq {response : Response} {status : Nat}
    {fields : List (String × Value)} (h : Answers response status (.object fields)) (name : String) :
    bodyField? response name = fields.lookup name := by
  simp only [bodyField?, SessionClaims.parseFields?, h.right, Option.bind_some]

section Verdicts

variable {server : Server} {now : Int64} {presented : Option String} {caller : Caller}

/-! ### The verdicts -/

theorem exists_token_of_callerOf (h : server.callerOf now presented = .ok caller) :
    ∃ token, presented = some token ∧ server.authenticate now token = .ok caller := by
  cases presented with
  | none => exact absurd h (by simp [callerOf])
  | some token => exact ⟨token, rfl, h⟩

/-- A caller that is not found is refused for the same reason everywhere. -/
theorem verdicts_of_error {error : AccessError} (h : server.callerOf now presented = .error error) :
    server.meVerdict now presented = .error error ∧
      server.adminVerdict now presented = .error error := by
  rw [meVerdict, adminVerdict, h]
  exact ⟨rfl, rfl⟩

theorem adminVerdict_of_ok (h : server.callerOf now presented = .ok caller) :
    server.adminVerdict now presented =
      if server.settings.freePass = true ∨ server.settings.isAdmin caller.pubkey = true then
        .ok (AdminStatusResponse.print
          ⟨caller.pubkey, server.settings.freePass, server.settings.admins.length⟩)
      else .error .authorizationDenied := by
  rw [adminVerdict, h]
  split_ifs with hpass
  · simp only [bind, Except.bind, AuthSettings.authorizeAdmin_eq_ok_iff.mpr hpass]
    rfl
  · rw [not_or, Bool.not_eq_true, Bool.not_eq_true] at hpass
    simp only [bind, Except.bind, AuthSettings.authorizeAdmin, hpass.left, hpass.right]
    rfl

theorem adminVerdict_eq_ok_iff_of_ok (h : server.callerOf now presented = .ok caller) :
    (∃ body, server.adminVerdict now presented = .ok body) ↔
      server.settings.freePass = true ∨ server.settings.isAdmin caller.pubkey = true := by
  rw [adminVerdict_of_ok h]
  split_ifs with hpass
  · exact iff_of_true ⟨_, rfl⟩ hpass
  · exact iff_of_false (by simp) hpass

end Verdicts

/-! ### The endpoints -/

section Endpoints

variable {server : Server} {now : Int64} {request : Request} {caller : Caller}

theorem states_respond_adminStatus_ok (hmethod : request.method = .get)
    (hpath : request.target.path = Bytes.ofString Endpoint.adminStatus.path)
    (hcaller : server.callerOf now (presentedToken? request.headers request.target) = .ok caller)
    (hpass : server.settings.freePass = true ∨ server.settings.isAdmin caller.pubkey = true) :
    States (server.respond now request)
      (.ok (AdminStatusResponse.print
        ⟨caller.pubkey, server.settings.freePass, server.settings.admins.length⟩)) := by
  have hstates := states_respond_adminVerdict server now hmethod hpath
  rwa [adminVerdict_of_ok hcaller, if_pos hpass] at hstates

/-- A report for admins is read as it was meant as long as 64 bits count the list. -/
theorem States.answers_adminStatus {response : Response} {report : AdminStatusResponse}
    (h : States response (.ok report.print)) (hcount : report.adminCount < 2 ^ 64) :
    Answers response 200
      (.object [("pubkey", .text report.pubkey), ("free_pass", .bool report.freePass),
        ("admin_count", .ofNat report.adminCount)]) := by
  apply h.answers_ok
  have hnumber {depth : Nat} : (Value.ofNat report.adminCount).Within depth :=
    .number (.natural hcount)
  exact .object (by simp [Value.Within.text, Value.Within.bool, hnumber])

end Endpoints

/-- The admin endpoint answers a request exactly if its caller, asking with the same credential who it
is, would be told that it is an admin or that everybody passes for one. Both answers then say the
same of the caller and of the pass, which is read off the report as long as 64 bits count the admins,
and a caller that is told an error is told the same one by both endpoints. -/
theorem respond_me_adminStatus (server : Server) (now : Int64) (query : Option Bytes)
    (headers : Http.Headers) (meBody statusBody : Bytes) :
    let me := server.respond now ⟨.get, ⟨Bytes.ofString "/v1/auth/me", query⟩, headers, meBody⟩
    let status :=
      server.respond now ⟨.get, ⟨Bytes.ofString "/v1/admin/status", query⟩, headers, statusBody⟩
    (status.status = 200 ↔
      me.status = 200 ∧ (bodyField? me "is_admin" = some (.bool true) ∨
        bodyField? me "free_pass" = some (.bool true))) ∧
    (me.status = 200 → status.status = 200 → ∃ pubkey freePass,
      bodyField? me "pubkey" = some (.text pubkey) ∧
      bodyField? me "free_pass" = some (.bool freePass) ∧
      status.body =
        AdminStatusResponse.print ⟨pubkey, freePass, server.settings.admins.length⟩ ∧
      (server.settings.admins.length < 2 ^ 64 →
        bodyField? status "pubkey" = some (.text pubkey) ∧
        bodyField? status "free_pass" = some (.bool freePass))) ∧
    (me.status ≠ 200 → status.status = me.status ∧ status.body = me.body) := by
  intro me status
  -- The credential is the same for both: of the target, only the query is looked at.
  obtain ⟨presented, hme, hstatus⟩ : ∃ presented,
      presentedToken? headers ⟨Bytes.ofString "/v1/auth/me", query⟩ = presented ∧
        presentedToken? headers ⟨Bytes.ofString "/v1/admin/status", query⟩ = presented :=
    ⟨_, rfl, rfl⟩
  have hmeStates : States me (server.meVerdict now presented) :=
    hme ▸ states_respond_meVerdict server now rfl rfl
  have hstatusStates : States status (server.adminVerdict now presented) :=
    hstatus ▸ states_respond_adminVerdict server now rfl rfl
  cases hcaller : server.callerOf now presented with
  | error error =>
      obtain ⟨hmeVerdict, hadminVerdict⟩ := verdicts_of_error hcaller
      rw [hmeVerdict] at hmeStates
      rw [hadminVerdict] at hstatusStates
      have hmeStatus : me.status ≠ 200 := hmeStates.left ▸ status_ne_ok error
      have hstatusStatus : status.status ≠ 200 := hstatusStates.left ▸ status_ne_ok error
      exact ⟨iff_of_false hstatusStatus fun h => hmeStatus h.left, fun h => absurd h hmeStatus,
        fun _ => hstatusStates.unique hmeStates⟩
  | ok caller =>
      obtain ⟨token, htoken, hauthenticate⟩ := exists_token_of_callerOf hcaller
      have hanswer : Answers me 200 _ := respond_me_ok rfl rfl (hme.trans htoken) hauthenticate
      have hisAdmin : bodyField? me "is_admin" =
          some (.bool (server.settings.isAdmin caller.pubkey)) := hanswer.bodyField?_eq "is_admin"
      have hfreePass : bodyField? me "free_pass" = some (.bool server.settings.freePass) :=
        hanswer.bodyField?_eq "free_pass"
      have hallowed : status.status = 200 ↔
          server.settings.freePass = true ∨ server.settings.isAdmin caller.pubkey = true :=
        hstatusStates.status_eq_iff.trans (adminVerdict_eq_ok_iff_of_ok hcaller)
      refine ⟨?_, ?_, fun h => absurd hanswer.left h⟩
      · rw [hallowed, hisAdmin, hfreePass]
        simp [hanswer.left, or_comm]
      · intro _ hok
        have hreport : States status (.ok (AdminStatusResponse.print _)) :=
          states_respond_adminStatus_ok rfl rfl (hstatus ▸ hcaller) (hallowed.mp hok)
        refine ⟨caller.pubkey, server.settings.freePass, hanswer.bodyField?_eq "pubkey", hfreePass,
          hreport.right, ?_⟩
        intro hcount
        have hread := hreport.answers_adminStatus hcount
        exact ⟨hread.bodyField?_eq "pubkey", hread.bodyField?_eq "free_pass"⟩

/-- An admin in its own name asks both endpoints. -/
theorem respond_me_adminStatus_admin :
    let server : Server := .new ⟨["a"], "a", "", ""⟩ ⟨some ⟨[107], by decide⟩, 604800⟩ .empty
    ∃ headers : Http.Headers,
      let me := server.respond 1000 ⟨.get, ⟨Bytes.ofString "/v1/auth/me", none⟩, headers, []⟩
      let status := server.respond 1000
        ⟨.get, ⟨Bytes.ofString "/v1/admin/status", none⟩, headers, []⟩
      status.status = 200 ∧ bodyField? me "is_admin" = some (.bool true) ∧
        bodyField? me "pubkey" = bodyField? status "pubkey" := by
  intro server
  obtain ⟨token, -, hpointed, hverify⟩ :=
    @SessionService.exists_issue server.sessions ⟨[107], by decide⟩ "a" 1000 rfl (by decide)
      (by decide) (by decide)
  refine ⟨[⟨"token", Bytes.ofString token⟩], ?_⟩
  intro me status
  have hauthenticate : server.authenticate 1000 token = .ok _ :=
    (authenticate_of_looksLikeSession (looksLikeSession_of_isPointed hpointed)).mpr
      ⟨_, (hverify 1000).trans (if_neg (by decide)), rfl⟩
  have hanswer : Answers me 200 _ :=
    respond_me_ok rfl rfl (presentedToken?_of_isPointed hpointed rfl _) hauthenticate
  have hadmin : bodyField? me "is_admin" = some (.bool true) := hanswer.bodyField?_eq "is_admin"
  obtain ⟨hiff, hsame, -⟩ :=
    respond_me_adminStatus server 1000 none [⟨"token", Bytes.ofString token⟩] [] []
  have hok : status.status = 200 := hiff.mpr ⟨hanswer.left, Or.inl hadmin⟩
  obtain ⟨pubkey, _, hmePubkey, -, -, hread⟩ := hsame hanswer.left hok
  obtain ⟨hstatusPubkey, -⟩ := hread (by decide)
  exact ⟨hok, hadmin, hmePubkey.trans hstatusPubkey.symm⟩

end WalletAuth.Server
