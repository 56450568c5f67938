import WalletAuth.Proofs.Session.Acceptance

/-! What a payload has no say in. The three reserved names are left out of it before anything is
written, so the claims of a token start with what the service itself puts there; of the payload only
the other names are left, in their order, and a token depends on nothing else of it. -/

namespace WalletAuth

open Json (Value)

namespace SessionToken

/-- The text between the two points of a token: the JSON text of its claims. -/
def claimsText? (token : Bytes) : Option Bytes :=
  match token.splitOn point with
  | [_, payload, _] => Base64Url.decodeBare? payload
  | _ => none

theorem claimsText?_encode (secret : Bytes) (claims : SessionClaims) :
    claimsText? (encode secret claims) = some claims.print := by
  have hheader : ∀ char ∈ Base64Url.encodeBare TokenHeader.issued.print, char ≠ point :=
    fun _ => ne_point_of_mem_encodeBare
  have hpayload : ∀ char ∈ Base64Url.encodeBare claims.print, char ≠ point :=
    fun _ => ne_point_of_mem_encodeBare
  have hsplit : (encode secret claims).splitOn point = [_, _, _] :=
    splitOn_sealed hheader hpayload secret
  rw [claimsText?, hsplit]
  exact Base64Url.decodeBare?_encodeBare _

/-- A token says, once each, whose it is, when it was issued and when it expires. -/
def Carries (token pubkey : String) (issuedAt expiresAt : Int) : Prop :=
  ∃ others, claimsText? (Bytes.ofString token) = some (Value.object
      ([("pubkey", .text pubkey), ("iat", .ofInt issuedAt), ("exp", .ofInt expiresAt)] ++
        others)).print ∧
    ∀ other ∈ others, other.1 ∉ SessionClaims.reservedNames

end SessionToken

namespace SessionService

open SessionClaims (reservedNames)

variable {service : SessionService} {key : SessionKey} {identifier : String}
  {payload other : ClaimMap} {now : Int64}

theorem without_eq_of_agree (hpayload : ClaimMap.Ascending payload)
    (hother : ClaimMap.Ascending other)
    (hagree : ∀ name, name ∉ reservedNames → other.lookup name = payload.lookup name) :
    ClaimMap.without reservedNames other = ClaimMap.without reservedNames payload := by
  apply (hother.without reservedNames).ext (hpayload.without reservedNames)
  intro name
  rw [ClaimMap.lookup_without, ClaimMap.lookup_without]
  by_cases hreserved : name ∈ reservedNames
  · rw [if_pos hreserved, if_pos hreserved]
  · rw [if_neg hreserved, if_neg hreserved, hagree name hreserved]

/-- A token is issued for what is left of a payload. -/
theorem issue_eq_of_without_eq
    (h : ClaimMap.without reservedNames other = ClaimMap.without reservedNames payload)
    (service : SessionService) (identifier : String) (now : Int64) :
    service.issue identifier other now = service.issue identifier payload now := by
  have hclaims : service.claimsFor identifier other now = service.claimsFor identifier payload now := by
    rw [claimsFor, claimsFor, h]
  rw [issue, issue, hclaims]

/-- The claims that a service writes: its own three, and what is left of the payload. -/
theorem fields_claimsFor (service : SessionService) (identifier : String) (payload : ClaimMap)
    (now : Int64) :
    (service.claimsFor identifier payload now).fields =
      [("pubkey", .text identifier), ("iat", .ofInt now.toInt),
        ("exp", .ofInt (min (now.toInt + service.lifetime) (2 ^ 63 - 1)))] ++
      ClaimValue.toJsonEntries (ClaimMap.without reservedNames payload) := by
  rw [SessionClaims.fields, claimsFor, toInt_expiry_eq_min]

theorem carries_encode (service : SessionService) (identifier : String) (payload : ClaimMap)
    (now : Int64) (secret : Bytes) :
    SessionToken.Carries
      (Bytes.toAscii (SessionToken.encode secret (service.claimsFor identifier payload now)))
      identifier now.toInt (min (now.toInt + service.lifetime) (2 ^ 63 - 1)) := by
  refine ⟨ClaimValue.toJsonEntries (ClaimMap.without reservedNames payload), ?_, ?_⟩
  · rw [Bytes.ofString_toAscii fun _ hchar => SessionToken.lt_of_mem_encode hchar,
      SessionToken.claimsText?_encode, SessionClaims.print, fields_claimsFor]
  · intro other hother
    rw [ClaimValue.toJsonEntries_eq_map] at hother
    obtain ⟨entry, hentry, rfl⟩ := List.mem_map.mp hother
    simpa using (List.mem_filter.mp hentry).right

/-- A payload cannot speak for the service. A token is the same without the reserved names in the
payload; its claims are the identifier, the time and the expiry, once each, and behind them the other
names of the payload in ascending order. So payloads that differ in reserved names only give the same
token. -/
theorem issue_claims (hkey : service.key = some key)
    (hlifetime : (service.lifetime : Int) ≤ 2 ^ 63 - 1) (hidentifier : identifier ≠ "")
    (hpayload : ClaimMap.Ascending payload) (now : Int64) :
    service.issue identifier (ClaimMap.without ["pubkey", "iat", "exp"] payload) now =
      service.issue identifier payload now ∧
    (∃ token others, service.issue identifier payload now = .ok token ∧
      SessionToken.claimsText? (Bytes.ofString token) = some (Value.object
        ([("pubkey", .text identifier), ("iat", .ofInt now.toInt),
          ("exp", .ofInt (min (now.toInt + service.lifetime) (2 ^ 63 - 1)))] ++ others)).print ∧
      ((others.map Prod.fst).Pairwise fun a b => Bytes.ofString a < Bytes.ofString b) ∧
      ∀ name, others.lookup name =
        if name ∈ ["pubkey", "iat", "exp"] then none
        else (payload.lookup name).map ClaimValue.toJson) ∧
    (∀ other, ClaimMap.Ascending other →
      (∀ name, name ∉ ["pubkey", "iat", "exp"] → other.lookup name = payload.lookup name) →
      service.issue identifier other now = service.issue identifier payload now) := by
  refine ⟨?_, ⟨_, ClaimValue.toJsonEntries (ClaimMap.without reservedNames payload),
    issue_eq hkey hlifetime hidentifier, ?_, ?_, ?_⟩, ?_⟩
  · exact issue_eq_of_without_eq (ClaimMap.without_without _ _) service identifier now
  · rw [Bytes.ofString_toAscii fun _ hchar => SessionToken.lt_of_mem_encode hchar,
      SessionToken.claimsText?_encode, SessionClaims.print, fields_claimsFor]
  · exact ClaimValue.pairwise_toJsonEntries (hpayload.without reservedNames)
  · intro name
    rw [ClaimValue.lookup_toJsonEntries, ClaimMap.lookup_without, apply_ite (Option.map _)]
    rfl
  · intro other hother hagree
    exact issue_eq_of_without_eq (without_eq_of_agree hpayload hother hagree) service identifier now

theorem issue_claims_forged :
    ∃ token others, (⟨some ⟨[107], by decide⟩, 604800⟩ : SessionService).issue "a"
        [("exp", .integer (-1)), ("pubkey", .text "b"), ("user", .text "x")] 1000 = .ok token ∧
      (⟨some ⟨[107], by decide⟩, 604800⟩ : SessionService).issue "a" [("user", .text "x")] 1000 =
        .ok token ∧
      SessionToken.claimsText? (Bytes.ofString token) = some (Value.object
        ([("pubkey", .text "a"), ("iat", .ofInt 1000), ("exp", .ofInt 605800)] ++ others)).print ∧
      others.lookup "exp" = none ∧ others.lookup "user" = some (.text "x") := by
  obtain ⟨hwithout, ⟨token, others, hissue, htext, -, hothers⟩, -⟩ :=
    @issue_claims ⟨some ⟨[107], by decide⟩, 604800⟩ ⟨[107], by decide⟩ "a"
      [("exp", .integer (-1)), ("pubkey", .text "b"), ("user", .text "x")] rfl (by decide) (by decide)
      (by decide) 1000
  exact ⟨token, others, hissue, hwithout.trans hissue, htext, hothers "exp", hothers "user"⟩

end SessionService

end WalletAuth
