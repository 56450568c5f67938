import WalletAuth.Proofs.Session.Service

/-! The life of a service. It serves calls one after the other, whoever makes them. The first key
that it is given stays, and until then nothing can be issued or verified; what it replies depends
on the calls before only through that key, and every token it ever issues is sealed under it. -/

namespace WalletAuth.SessionService

/-! ### Calls and replies -/

/-- What is asked of a service. -/
inductive Call where
  | init (secret : Bytes)
  | issue (identifier : String) (payload : ClaimMap) (now : Int64)
  | verify (token : String) (now : Int64)
  | isInitialized

/-- What a call is told if it succeeds. -/
inductive Reply where
  | installed
  | token (text : String)
  | claims (claims : SessionClaims)
  | initialized (answer : Bool)

/-- The service after a call, and what it replies. -/
def serve (service : SessionService) : Call → SessionService × Except SessionError Reply
  | .init secret =>
    match service.init secret with
    | .ok next => (next, .ok .installed)
    | .error error => (service, .error error)
  | .issue identifier payload now => (service, (service.issue identifier payload now).map .token)
  | .verify token now => (service, (service.verify token now).map .claims)
  | .isInitialized => (service, .ok (.initialized service.isInitialized))

/-- The service after calls, and its replies in order. -/
def serveAll (service : SessionService) :
    List Call → SessionService × List (Except SessionError Reply)
  | [] => (service, [])
  | call :: calls =>
    let (next, reply) := service.serve call
    let (last, replies) := next.serveAll calls
    (last, reply :: replies)

/-- The secret that a call asks to install. -/
def Call.secret? : Call → Option Bytes
  | init secret => some secret
  | _ => none

/-- The first secret among calls that is not empty. -/
def firstSecret? (calls : List Call) : Option Bytes :=
  (calls.filterMap Call.secret?).find? (· ≠ [])

/-- The bytes of the key that is installed. -/
def installed? (service : SessionService) : Option Bytes :=
  service.key.map SessionKey.bytes

theorem firstSecret?_append (calls later : List Call) :
    firstSecret? (calls ++ later) = (firstSecret? calls).or (firstSecret? later) := by
  rw [firstSecret?, List.filterMap_append, List.find?_append, firstSecret?, firstSecret?]

theorem firstSecret?_init {secret : Bytes} (h : secret ≠ []) :
    firstSecret? [.init secret] = some secret := by
  simp [firstSecret?, Call.secret?, h]

variable {service : SessionService} {identifier : String} {payload : ClaimMap} {now : Int64}

theorem key_eq_none_iff : service.key = none ↔ service.installed? = none := by
  rw [installed?, Option.map_eq_none_iff]

theorem exists_key {secret : Bytes} (h : service.installed? = some secret) :
    ∃ key, service.key = some key ∧ key.bytes = secret :=
  Option.map_eq_some_iff.mp h

/-! ### One call -/

/-- What a call for a key is told. -/
theorem serve_init (service : SessionService) (secret : Bytes) :
    (service.serve (.init secret)).2 =
      if secret = [] then .error (.configuration "signing key must not be empty")
      else if service.installed? = none then .ok .installed
      else .error .alreadyInitialized := by
  by_cases hsecret : secret = []
  · subst hsecret
    rfl
  · rw [if_neg hsecret]
    cases hkey : service.key <;> simp [serve, init, hsecret, installed?, hkey]

/-- A call changes nothing but an absent key, and this only if it brings one. -/
theorem serve_fst (service : SessionService) (call : Call) :
    (service.serve call).1.lifetime = service.lifetime ∧
      (service.serve call).1.installed? = service.installed?.or (firstSecret? [call]) := by
  cases call with
  | init secret =>
      by_cases hsecret : secret = []
      · subst hsecret
        exact ⟨rfl, Option.or_none.symm⟩
      · rw [firstSecret?_init hsecret]
        cases hkey : service.key <;> simp [serve, init, hsecret, installed?, hkey]
  | issue identifier payload now => exact ⟨rfl, Option.or_none.symm⟩
  | verify token now => exact ⟨rfl, Option.or_none.symm⟩
  | isInitialized => exact ⟨rfl, Option.or_none.symm⟩

/-- A call that fails changes nothing at all. -/
theorem serve_fst_of_error {call : Call} {error : SessionError}
    (h : (service.serve call).2 = .error error) : (service.serve call).1 = service := by
  cases call with
  | init secret =>
      rw [serve] at h ⊢
      cases hinit : service.init secret with
      | ok next => simp [hinit] at h
      | error cause => rfl
  | issue identifier payload now => rfl
  | verify token now => rfl
  | isInitialized => rfl

theorem serve_of_none (h : service.installed? = none) :
    (service.serve (.issue identifier payload now)).2 = .error .notInitialized ∧
      ∀ token, (service.serve (.verify token now)).2 = .error .notInitialized := by
  have hkey := key_eq_none_iff.mpr h
  constructor
  · rw [serve, issue, hkey]
    rfl
  · intro token
    rw [serve, verify, hkey]
    rfl

/-- What a call for a token is told once there is a key: the identifier is looked at before the
lifetime, and the payload not at all. -/
theorem serve_issue {secret : Bytes} (h : service.installed? = some secret) :
    (service.serve (.issue identifier payload now)).2 =
      if identifier = "" then .error .emptyIdentifier
      else if lastTime < service.lifetime then
        .error (.configuration "session lifetime is out of range")
      else
        .ok (.token (Bytes.toAscii
          (SessionToken.encode secret (service.claimsFor identifier payload now)))) := by
  obtain ⟨key, hkey, rfl⟩ := exists_key h
  by_cases hidentifier : identifier = ""
  · subst hidentifier
    rw [serve, issue, hkey]
    rfl
  · have hempty : identifier.isEmpty = false := by simpa using hidentifier
    rw [if_neg hidentifier, serve, issue, hkey]
    by_cases hlifetime : lastTime < service.lifetime
    · simp [hempty, hlifetime, Except.map]
    · simp [hempty, hlifetime, Except.map]

theorem exists_token_iff {secret : Bytes} (h : service.installed? = some secret) :
    (∃ text, (service.serve (.issue identifier payload now)).2 = .ok (.token text)) ↔
      identifier ≠ "" ∧ (service.lifetime : Int) ≤ lastTime := by
  rw [serve_issue h]
  by_cases hidentifier : identifier = ""
  · simp [hidentifier]
  · by_cases hlifetime : lastTime < service.lifetime
    · simp [hidentifier, hlifetime]
    · simp [hidentifier, hlifetime, not_lt.mp hlifetime]

/-- A token is sealed under the key that is installed when it is issued. -/
theorem installed?_of_serve {call : Call} {text : String}
    (h : (service.serve call).2 = .ok (.token text)) :
    ∃ secret claims, service.installed? = some secret ∧
      Bytes.ofString text = SessionToken.encode secret claims := by
  cases call with
  | init secret =>
      rw [serve_init] at h
      split_ifs at h
      exact absurd h (by simp)
  | issue identifier payload now =>
      cases hinstalled : service.installed? with
      | none =>
          rw [(serve_of_none hinstalled).left] at h
          exact absurd h (by simp)
      | some secret =>
          rw [serve_issue hinstalled] at h
          split_ifs at h
          obtain rfl := Reply.token.inj (Except.ok.inj h)
          exact ⟨secret, _, rfl,
            Bytes.ofString_toAscii fun _ hchar => SessionToken.lt_of_mem_encode hchar⟩
  | verify token now =>
      rw [serve] at h
      cases hverify : service.verify token now <;> simp [hverify, Except.map] at h
  | isInitialized => exact absurd h (by simp [serve])

/-! ### All calls -/

theorem serveAll_append (service : SessionService) (calls later : List Call) :
    service.serveAll (calls ++ later) =
      (((service.serveAll calls).1.serveAll later).1,
        (service.serveAll calls).2 ++ ((service.serveAll calls).1.serveAll later).2) := by
  induction calls generalizing service with
  | nil => rfl
  | cons call calls ih => simp only [List.cons_append, serveAll, ih]

theorem length_serveAll (service : SessionService) (calls : List Call) :
    (service.serveAll calls).2.length = calls.length := by
  induction calls generalizing service with
  | nil => rfl
  | cons call calls ih => rw [serveAll, List.length_cons, List.length_cons, ih]

/-- The reply to a call depends on the calls before it only through the service that they leave. -/
theorem getElem?_serveAll (service : SessionService) (calls later : List Call) (call : Call) :
    (service.serveAll (calls ++ call :: later)).2[calls.length]? =
      some ((service.serveAll calls).1.serve call).2 := by
  rw [serveAll_append, ← length_serveAll service calls, List.getElem?_append_right (Nat.le_refl _),
    Nat.sub_self]
  rfl

/-- Calls change nothing but an absent key, and the first one to bring a key decides it. -/
theorem serveAll_fst (service : SessionService) (calls : List Call) :
    (service.serveAll calls).1.lifetime = service.lifetime ∧
      (service.serveAll calls).1.installed? = service.installed?.or (firstSecret? calls) := by
  induction calls generalizing service with
  | nil => exact ⟨rfl, Option.or_none.symm⟩
  | cons call calls ih =>
      obtain ⟨hlifetime, hinstalled⟩ := serve_fst service call
      obtain ⟨hlifetimes, hlast⟩ := ih (service.serve call).1
      rw [hinstalled, Option.or_assoc, ← firstSecret?_append] at hlast
      exact ⟨hlifetimes.trans hlifetime, hlast⟩

/-- Every token among the replies is sealed under the key that is there in the end: the key under
which it was issued has stayed. -/
theorem installed?_of_mem_serveAll {calls : List Call} {text : String}
    (h : .ok (.token text) ∈ (service.serveAll calls).2) :
    ∃ secret claims, (service.serveAll calls).1.installed? = some secret ∧
      Bytes.ofString text = SessionToken.encode secret claims := by
  induction calls generalizing service with
  | nil => exact absurd h List.not_mem_nil
  | cons call calls ih =>
      rw [serveAll, List.mem_cons] at h
      rcases h with hreply | hlater
      · obtain ⟨secret, claims, hinstalled, htext⟩ := installed?_of_serve hreply.symm
        refine ⟨secret, claims, ?_, htext⟩
        rw [(serveAll_fst service (call :: calls)).right, hinstalled]
        rfl
      · exact ih hlater

/-- A service that is new and then serves calls, in any order, has the first key among them. At every
point, a call for a key succeeds only if there was none before, nothing is issued or verified
without one, and with one a token is issued for every payload unless there is nobody to issue it
to or its lifetime is out of range. A call that fails changes nothing, and all tokens are sealed
under the one key. -/
theorem serveAll_new (lifetime : Nat) (calls : List Call) :
    let service := ((new lifetime).serveAll calls).1
    let reply (call : Call) := (service.serve call).2
    service.installed? = firstSecret? calls ∧
    (∀ call later,
      ((new lifetime).serveAll (calls ++ call :: later)).2[calls.length]? = some (reply call)) ∧
    (∀ call error, reply call = .error error → (service.serve call).1 = service) ∧
    reply .isInitialized = .ok (.initialized (firstSecret? calls).isSome) ∧
    (∀ secret, reply (.init secret) =
      if secret = [] then .error (.configuration "signing key must not be empty")
      else if firstSecret? calls = none then .ok .installed
      else .error .alreadyInitialized) ∧
    (firstSecret? calls = none → ∀ identifier payload token now,
      reply (.issue identifier payload now) = .error .notInitialized ∧
      reply (.verify token now) = .error .notInitialized) ∧
    (firstSecret? calls ≠ none → ∀ identifier payload now,
      ((∃ text, reply (.issue identifier payload now) = .ok (.token text)) ↔
        identifier ≠ "" ∧ (lifetime : Int) ≤ 2 ^ 63 - 1) ∧
      (identifier = "" → reply (.issue identifier payload now) = .error .emptyIdentifier) ∧
      (identifier ≠ "" → 2 ^ 63 - 1 < (lifetime : Int) →
        reply (.issue identifier payload now) =
          .error (.configuration "session lifetime is out of range"))) ∧
    (∀ text, .ok (.token text) ∈ ((new lifetime).serveAll calls).2 →
      ∃ secret claims, firstSecret? calls = some secret ∧
        Bytes.ofString text = SessionToken.encode secret claims) := by
  intro service reply
  obtain ⟨hlifetime, hinstalled⟩ := serveAll_fst (new lifetime) calls
  have hkey : service.installed? = firstSecret? calls := hinstalled
  refine ⟨hkey, fun call later => getElem?_serveAll (new lifetime) calls later call,
    fun _ _ => serve_fst_of_error, ?_, ?_, ?_, ?_, ?_⟩
  · rw [← hkey]
    show _ = Except.ok (Reply.initialized (Option.map _ _).isSome)
    rw [Option.isSome_map]
    rfl
  · intro secret
    rw [← hkey]
    exact serve_init service secret
  · intro hnone identifier payload token now
    obtain ⟨hissue, hverify⟩ := serve_of_none (hkey.trans hnone)
    exact ⟨hissue, hverify token⟩
  · intro hsome identifier payload now
    obtain ⟨secret, hsecret⟩ := Option.ne_none_iff_exists'.mp hsome
    have hservice := hkey.trans hsecret
    have hissued : (∃ text, reply (.issue identifier payload now) = .ok (.token text)) ↔ _ :=
      exists_token_iff hservice
    rw [hlifetime] at hissued
    refine ⟨hissued, ?_, ?_⟩
    · intro hidentifier
      exact (serve_issue hservice).trans (if_pos hidentifier)
    · intro hidentifier hlate
      rw [← show service.lifetime = lifetime from hlifetime] at hlate
      exact (serve_issue hservice).trans ((if_neg hidentifier).trans (if_pos hlate))
  · intro text htext
    rw [← hkey]
    exact installed?_of_mem_serveAll htext

end WalletAuth.SessionService
