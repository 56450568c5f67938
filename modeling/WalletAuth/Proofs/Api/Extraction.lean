import WalletAuth.Api.Handler
import WalletAuth.Proofs.Access.Policy
import WalletAuth.Proofs.Access.Transport

/-! Asking a request for its caller, again and again. The layer in front of an endpoint and the
handler behind it come to the same verdict. Once a caller is found it stays the caller of the request:
the credential, the key of the sessions and the clock are not looked at again, and only the settings
decide whether it passes for an admin. -/

namespace WalletAuth

/-- What may be demanded of the caller of a request. -/
inductive Demand where
  | caller
  | admin

/-- What protects an endpoint whose handler makes a demand. -/
def Demand.protection : Demand → Protection
  | .caller => .caller
  | .admin => .admin

namespace AuthSettings

variable {settings : AuthSettings} {caller : Caller}

/-- The verdict on a caller that is known. -/
def judge (settings : AuthSettings) (caller : Caller) : Demand → Except AccessError Caller
  | .caller => .ok caller
  | .admin => (settings.authorizeAdmin caller.pubkey).map fun _ => caller

theorem judge_admin_eq_ok_iff :
    settings.judge caller .admin = .ok caller ↔ settings.authorizeAdmin caller.pubkey = .ok () := by
  rw [judge]
  cases settings.authorizeAdmin caller.pubkey <;> simp [Except.map]

theorem eq_of_judge {found : Caller} {demanded : Demand}
    (h : settings.judge found demanded = .ok caller) : found = caller := by
  cases demanded with
  | caller => exact Except.ok.inj h
  | admin =>
      rw [judge] at h
      cases hadmin : settings.authorizeAdmin found.pubkey with
      | error error => exact absurd h (by simp [hadmin, Except.map])
      | ok _ => exact Except.ok.inj (hadmin ▸ h)

/-- Who is known is refused for one reason only. -/
theorem judge_admin_of_ne (h : settings.authorizeAdmin caller.pubkey ≠ .ok ()) :
    settings.judge caller .admin = .error .authorizationDenied := by
  rw [judge, authorizeAdmin_of_notMem_admitted h]
  rfl

end AuthSettings

namespace Server

open Http (Request Response)

variable {server : Server} {now : Int64} {request : Request} {known : Option Caller}
  {caller : Caller}

/-! ### One demand -/

/-- The verdict on a demand, and who is known to be the caller from then on. -/
def demand (server : Server) (now : Int64) (request : Request) (known : Option Caller) :
    Demand → Except AccessError Caller × Option Caller
  | .caller => server.requireCaller now request known
  | .admin => server.requireAdmin now request known

/-- A handler looks for the credential and judges it in steps of its own; they come to what a layer
decides, and whoever is found is known from then on. -/
theorem requireCaller_none_eq :
    server.requireCaller now request none =
      (server.authenticateRequest now request,
        (server.authenticateRequest now request).toOption) := by
  simp only [requireCaller, authenticateRequest]
  cases presentedToken? request.headers request.target with
  | none => rfl
  | some token =>
      dsimp only
      cases server.authenticate now token <;> rfl

theorem requireCaller_none :
    (server.requireCaller now request none).1 = server.authenticateRequest now request :=
  congrArg Prod.fst requireCaller_none_eq

theorem requireAdmin_eq :
    server.requireAdmin now request known =
      ((server.requireCaller now request known).1.bind fun caller =>
          server.settings.judge caller .admin,
        (server.requireCaller now request known).2) := by
  rw [requireAdmin, policy_eq]
  obtain ⟨error | caller, known⟩ := server.requireCaller now request known <;> rfl

/-- The caller is found first and judged then, and it is known whatever the verdict on it is. -/
theorem demand_eq (demanded : Demand) :
    server.demand now request known demanded =
      ((server.requireCaller now request known).1.bind fun caller =>
          server.settings.judge caller demanded,
        known.or (server.requireCaller now request known).1.toOption) := by
  cases known with
  | some caller =>
      cases demanded with
      | caller => rfl
      | admin =>
          rw [demand, requireAdmin_eq]
          rfl
  | none =>
      cases demanded <;>
        (simp only [demand, requireAdmin_eq, requireCaller_none_eq]
         cases server.authenticateRequest now request <;> rfl)

theorem demand_some (caller : Caller) (demanded : Demand) :
    server.demand now request (some caller) demanded =
      (server.settings.judge caller demanded, some caller) :=
  demand_eq demanded

/-- A caller that is found is known from then on, even if it is refused as an admin. -/
theorem demand_snd_of_ok (h : (server.requireCaller now request known).1 = .ok caller)
    (demanded : Demand) : (server.demand now request known demanded).2 = some caller := by
  rw [demand_eq, h]
  cases known with
  | some other => exact congrArg some (Except.ok.inj h)
  | none => rfl

theorem demand_snd_of_error {error : AccessError}
    (h : (server.requireCaller now request known).1 = .error error) (demanded : Demand) :
    (server.demand now request known demanded).2 = known := by
  rw [demand_eq, h]
  exact Option.or_none

/-- Who has met a demand meets it again. -/
theorem judge_of_demand {demanded : Demand}
    (h : (server.demand now request known demanded).1 = .ok caller) :
    server.settings.judge caller demanded = .ok caller := by
  rw [demand_eq] at h
  cases hfound : (server.requireCaller now request known).1 with
  | error error => exact absurd h (by simp [hfound, Except.bind])
  | ok found =>
      rw [hfound] at h
      exact AuthSettings.eq_of_judge h ▸ h

theorem requireAdmin_none :
    (server.requireAdmin now request none).1 = (do
      let caller ← server.authenticateRequest now request
      server.settings.authorizeAdmin caller.pubkey
      return caller) := by
  have hverdict : server.demand now request none .admin = _ := demand_eq .admin
  rw [requireCaller_none] at hverdict
  exact congrArg Prod.fst hverdict

/-! ### Layers -/

/-- Passes a caller on to what stands behind a layer, or refuses the request. -/
def handOn (next : Option Caller → Response) : Except AccessError Caller → Response
  | .ok caller => next (some caller)
  | .error error => error.response

/-- A layer decides as the handler behind it would if nobody was known. -/
theorem protect_eq_handOn (demanded : Demand) (next : Option Caller → Response) :
    server.protect now request demanded.protection next =
      handOn next (server.demand now request none demanded).1 := by
  rw [demand_eq, requireCaller_none]
  cases demanded with
  | caller =>
      rw [Demand.protection, protect]
      cases server.authenticateRequest now request <;> rfl
  | admin =>
      rw [Demand.protection, protect]
      cases server.authenticateRequest now request with
      | error error => rfl
      | ok caller =>
          simp only [AuthSettings.judge, Except.bind, policy_eq]
          cases server.settings.authorizeAdmin caller.pubkey <;> rfl

/-- A handler that makes the demand of its layer once more, at whatever time, adds nothing. -/
theorem protect_handOn_demand (demanded : Demand) (later : Int64)
    (next : Option Caller → Response) :
    (server.protect now request demanded.protection fun known =>
        handOn next (server.demand later request known demanded).1) =
      server.protect now request demanded.protection next := by
  rw [protect_eq_handOn, protect_eq_handOn]
  cases hverdict : (server.demand now request none demanded).1 with
  | error error => rfl
  | ok caller =>
      rw [handOn, demand_some, judge_of_demand hverdict]

/-! ### All demands -/

/-- The verdicts on demands that are made on a request one after the other, each at its time, and who
is known in the end. -/
def demandAll (server : Server) (request : Request) :
    Option Caller → List (Demand × Int64) → List (Except AccessError Caller) × Option Caller
  | known, [] => ([], known)
  | known, (demanded, now) :: demands =>
    let (verdict, known) := server.demand now request known demanded
    let (verdicts, known) := server.demandAll request known demands
    (verdict :: verdicts, known)

theorem demandAll_append (known : Option Caller) (demands later : List (Demand × Int64)) :
    server.demandAll request known (demands ++ later) =
      ((server.demandAll request known demands).1 ++
          (server.demandAll request (server.demandAll request known demands).2 later).1,
        (server.demandAll request (server.demandAll request known demands).2 later).2) := by
  induction demands generalizing known with
  | nil => rfl
  | cons next demands ih => simp only [List.cons_append, demandAll, ih]

/-- The first time at which a caller is found decides who is known in the end. -/
theorem demandAll_snd (known : Option Caller) (demands : List (Demand × Int64)) :
    (server.demandAll request known demands).2 =
      known.or (demands.findSome? fun next =>
        (server.authenticateRequest next.2 request).toOption) := by
  induction demands generalizing known with
  | nil => exact Option.or_none.symm
  | cons next demands ih =>
      obtain ⟨demanded, now⟩ := next
      rw [demandAll, ih, demand_eq, List.findSome?_cons]
      cases known with
      | some caller => rfl
      | none =>
          rw [requireCaller_none]
          cases server.authenticateRequest now request <;> rfl

/-- A caller that is known is judged on each demand and stays known. -/
theorem demandAll_some (caller : Caller) (demands : List (Demand × Int64)) :
    server.demandAll request (some caller) demands =
      (demands.map fun next => server.settings.judge caller next.1, some caller) := by
  induction demands with
  | nil => rfl
  | cons next demands ih => simp only [demandAll, demand_some, ih, List.map_cons]

/-- Handlers and the layers in front of them agree on who the caller is and on whether it passes for
an admin; whoever is not found is refused before that. A handler behind a layer that asks the same
once more, at whatever time, adds nothing: a caller that is known is not looked for again. Whoever is
found is known from then on, even when it is refused as an admin, and who is known does not change
when nobody is found; so once a caller is known every later demand is judged on that caller alone,
and the first time at which one is found decides who it is. -/
theorem demandAll_coherent (server : Server) (request : Request) :
    (∀ now next,
      (server.requireCaller now request none).1 = server.authenticateRequest now request ∧
      (server.requireAdmin now request none).1 = (do
        let caller ← server.authenticateRequest now request
        server.settings.authorizeAdmin caller.pubkey
        return caller) ∧
      server.protect now request .caller next =
        handOn next (server.requireCaller now request none).1 ∧
      server.protect now request .admin next =
        handOn next (server.requireAdmin now request none).1) ∧
    (∀ now later next,
      (server.protect now request .caller fun known =>
          handOn next (server.requireCaller later request known).1) =
        server.protect now request .caller next ∧
      (server.protect now request .admin fun known =>
          handOn next (server.requireAdmin later request known).1) =
        server.protect now request .admin next) ∧
    (∀ now caller,
      server.requireCaller now request (some caller) = (.ok caller, some caller) ∧
      ((server.requireAdmin now request (some caller)).1 = .ok caller ↔
        server.settings.authorizeAdmin caller.pubkey = .ok ()) ∧
      (server.settings.authorizeAdmin caller.pubkey ≠ .ok () →
        (server.requireAdmin now request (some caller)).1 = .error .authorizationDenied)) ∧
    (∀ now known,
      (∀ caller, (server.requireCaller now request known).1 = .ok caller →
        (server.requireCaller now request known).2 = some caller ∧
          (server.requireAdmin now request known).2 = some caller) ∧
      ∀ error, (server.requireCaller now request known).1 = .error error →
        (server.requireCaller now request known).2 = known ∧
          (server.requireAdmin now request known).2 = known) ∧
    ∀ known demands,
      (server.demandAll request known demands).2 =
        known.or (demands.findSome? fun next =>
          (server.authenticateRequest next.2 request).toOption) ∧
      ∀ caller later, (server.demandAll request known demands).2 = some caller →
        server.demandAll request known (demands ++ later) =
          ((server.demandAll request known demands).1 ++
              later.map fun next => server.settings.judge caller next.1,
            some caller) := by
  refine ⟨?_, ?_, ?_, ?_, ?_⟩
  · exact fun now next => ⟨requireCaller_none, requireAdmin_none,
      protect_eq_handOn .caller next, protect_eq_handOn .admin next⟩
  · exact fun now later next =>
      ⟨protect_handOn_demand .caller later next, protect_handOn_demand .admin later next⟩
  · intro now caller
    have hadmin : server.requireAdmin now request (some caller) =
        (server.settings.judge caller .admin, some caller) := requireAdmin_eq
    rw [hadmin]
    exact ⟨rfl, AuthSettings.judge_admin_eq_ok_iff,
      AuthSettings.judge_admin_of_ne⟩
  · intro now known
    exact ⟨fun caller h => ⟨demand_snd_of_ok h .caller, demand_snd_of_ok h .admin⟩,
      fun error h => ⟨demand_snd_of_error h .caller, demand_snd_of_error h .admin⟩⟩
  · intro known demands
    refine ⟨demandAll_snd known demands, fun caller later h => ?_⟩
    rw [demandAll_append, h, demandAll_some]

/-- A session is found, refused as an admin, and still known long after it has expired. -/
theorem demandAll_coherent_expired :
    ∃ token, ∃ caller : Caller, caller.pubkey = "b" ∧
      let server : Server := .new ⟨["a"], "a", "", ""⟩ ⟨some ⟨[107], by decide⟩, 604800⟩ .empty
      let request : Request := ⟨.get, ⟨[47], none⟩, [⟨"token", Bytes.ofString token⟩], []⟩
      server.authenticateRequest 605861 request = .error .tokenExpired ∧
        server.demandAll request none [(.admin, 1000), (.caller, 605861), (.admin, 605861)] =
          ([.error .authorizationDenied, .ok caller, .error .authorizationDenied], some caller) := by
  obtain ⟨token, -, hpointed, hverify⟩ :=
    @SessionService.exists_issue ⟨some ⟨[107], by decide⟩, 604800⟩ ⟨[107], by decide⟩ "b" 1000 rfl
      (by decide) (by decide) (by decide)
  refine ⟨token, ⟨"b", .session, some 605800⟩, rfl, ?_⟩
  intro server request
  have htoken : presentedToken? request.headers request.target = some token :=
    presentedToken?_of_isPointed hpointed rfl _
  have hlooks := looksLikeSession_of_isPointed hpointed
  have hfound : server.authenticateRequest 1000 request = .ok ⟨"b", .session, some 605800⟩ := by
    simp only [authenticateRequest, htoken, authenticate, if_pos hlooks, server, sessions_new, hverify]
    rfl
  have hexpired : server.authenticateRequest 605861 request = .error .tokenExpired := by
    simp only [authenticateRequest, htoken, authenticate, if_pos hlooks, server, sessions_new, hverify]
    rfl
  obtain ⟨hfresh, -, -, hafter, hlater⟩ := demandAll_coherent server request
  obtain ⟨hsame, hadmin, -, -⟩ := hfresh 1000 fun _ => .empty 200
  have hfirst : server.demandAll request none [(.admin, 1000)] =
      ([.error .authorizationDenied], some ⟨"b", .session, some 605800⟩) := by
    obtain ⟨-, hknown⟩ := (hafter 1000 none).left _ (hsame.trans hfound)
    rw [hfound] at hadmin
    exact Prod.ext (congrArg (· :: []) hadmin) hknown
  refine ⟨hexpired, ?_⟩
  have hrun := (hlater none [(.admin, 1000)]).right _ [(.caller, 605861), (.admin, 605861)]
    (congrArg Prod.snd hfirst)
  rw [hfirst] at hrun
  exact hrun

end Server

end WalletAuth
