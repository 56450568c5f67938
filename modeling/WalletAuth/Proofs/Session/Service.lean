import WalletAuth.Proofs.Session.Token
import WalletAuth.Session.Service

/-! What a service issues it reads back at once: the identity, both times and every claim that was
asked for, with the exception of a few registered names. Their meaning is the reader's own, and a
token with such a claim is issued all the same and then refused. -/

namespace WalletAuth.SessionService

open SessionClaims (reservedNames)
open SessionToken (IsRefused)

variable {service : SessionService} {key : SessionKey} {identifier : String} {payload : ClaimMap}
  {now : Int64}

/-- A lifetime only adds to a time, so of the two ends of the clock only the last can be met. -/
theorem toInt_expiry_eq_min (service : SessionService) (now : Int64) :
    (service.expiry now).toInt = min (now.toInt + service.lifetime) (2 ^ 63 - 1) := by
  have hlower := now.le_toInt
  rw [expiry, lastTime, Int64.toInt_ofInt_of_le] <;> omega

theorem readable_claimsFor (service : SessionService) (identifier : String) (now : Int64)
    (hascending : ClaimMap.Ascending payload)
    (hplain : ∀ entry ∈ payload, entry.2.Plain SessionClaims.maxExtraDepth) :
    (service.claimsFor identifier payload now).Readable where
  ascending := hascending.without reservedNames
  plain entry hentry := hplain entry (List.mem_filter.mp hentry).left
  unreserved entry hentry := by simpa using (List.mem_filter.mp hentry).right

theorem issue_eq (hkey : service.key = some key) (hlifetime : (service.lifetime : Int) ≤ lastTime)
    (hidentifier : identifier ≠ "") :
    service.issue identifier payload now =
      .ok (Bytes.toAscii
        (SessionToken.encode key.bytes (service.claimsFor identifier payload now))) := by
  have hempty : identifier.isEmpty = false := by simpa using hidentifier
  simp only [issue, hkey, hempty, if_neg (not_lt.mpr hlifetime)]
  rfl

theorem verify_toAscii_encode (hkey : service.key = some key) (claims : SessionClaims) :
    service.verify (Bytes.toAscii (SessionToken.encode key.bytes claims)) now =
      SessionToken.decode key.bytes (SessionToken.encode key.bytes claims) now := by
  simp only [verify, hkey,
    Bytes.ofString_toAscii fun _ hchar => SessionToken.lt_of_mem_encode hchar]

/-- A token for an identity alone reads back until it has expired. -/
theorem verify_claimsFor_nil (hkey : service.key = some key) (hnow : 0 ≤ now.toInt)
    (identifier : String) (later : Int64) :
    service.verify
        (Bytes.toAscii (SessionToken.encode key.bytes (service.claimsFor identifier [] now))) later =
      if (service.expiry now).toInt + SessionToken.leeway < later.toInt then .error .expired
      else .ok (service.claimsFor identifier [] now) := by
  have hreadable : (service.claimsFor identifier [] now).Readable :=
    readable_claimsFor service identifier now List.Pairwise.nil
      fun _ hentry => absurd hentry List.not_mem_nil
  have hexpiry : 0 ≤ (service.expiry now).toInt := by
    rw [toInt_expiry_eq_min]
    omega
  have hopen := SessionToken.open?_encode_of_not_refused hreadable hexpiry
    (fun _ hentry => absurd hentry List.not_mem_nil) key.bytes
  rw [verify_toAscii_encode hkey, SessionToken.decode_of_open? hopen]
  rfl

theorem not_mem_reservedNames {entry : String × ClaimValue} (h : IsRefused entry) :
    entry.1 ∉ reservedNames := by
  cases h <;> simp [reservedNames]

/-- A refused claim has no reserved name, so it is among those that a token carries. -/
theorem exists_isRefused_claimsFor :
    (∃ entry ∈ (service.claimsFor identifier payload now).extra, IsRefused entry) ↔
      ∃ entry ∈ payload, IsRefused entry := by
  constructor
  · rintro ⟨entry, hentry, hrefused⟩
    exact ⟨entry, (List.mem_filter.mp hentry).left, hrefused⟩
  · rintro ⟨entry, hentry, hrefused⟩
    have hname := not_mem_reservedNames hrefused
    exact ⟨entry, List.mem_filter.mpr ⟨hentry, by simpa using hname⟩, hrefused⟩

/-- A token is always issued. It reads back to what it was issued for, unless the payload has a
claim that the reader refuses, and then it is invalid from the start. -/
theorem verify_issue (hkey : service.key = some key)
    (hlifetime : (service.lifetime : Int) ≤ 2 ^ 63 - 1) (hidentifier : identifier ≠ "")
    (hascending : ClaimMap.Ascending payload)
    (hplain : ∀ entry ∈ payload, entry.2.Plain SessionClaims.maxExtraDepth)
    (hnow : 60 ≤ now.toInt) :
    ∃ token, service.issue identifier payload now = .ok token ∧
      ((∀ entry ∈ payload, ¬IsRefused entry) →
        ∃ claims, service.verify token now = .ok claims ∧ claims.pubkey = identifier ∧
          claims.issuedAt = now ∧
          claims.expiresAt.toInt = min (now.toInt + service.lifetime) (2 ^ 63 - 1) ∧
          claims.extra = ClaimMap.without ["pubkey", "iat", "exp"] payload) ∧
      ((∃ entry ∈ payload, IsRefused entry) → service.verify token now = .error .invalid) := by
  have hexpiry := toInt_expiry_eq_min service now
  have hlast := now.toInt_lt
  have hlater : now.toInt ≤ (service.expiry now).toInt := by omega
  have hreadable := readable_claimsFor service identifier now hascending hplain
  obtain ⟨hpass, hrefuse⟩ := SessionToken.decode_encode hreadable
    (show 0 ≤ (service.expiry now).toInt by omega)
    (show now.toInt ≤ (service.expiry now).toInt + 60 by omega) key.bytes
  refine ⟨_, issue_eq hkey hlifetime hidentifier, ?_, ?_⟩
  · intro hfine
    refine ⟨service.claimsFor identifier payload now, ?_, rfl, rfl, hexpiry, rfl⟩
    rw [verify_toAscii_encode hkey]
    apply hpass
    intro entry hentry hrefused
    obtain ⟨bad, hbad, hbadRefused⟩ := exists_isRefused_claimsFor.mp ⟨entry, hentry, hrefused⟩
    exact hfine bad hbad hbadRefused
  · intro hbad
    rw [verify_toAscii_encode hkey]
    exact hrefuse (exists_isRefused_claimsFor.mpr hbad)

theorem verify_issue_audience :
    ∃ token, (⟨some ⟨[107], by decide⟩, 604800⟩ : SessionService).issue "a" [("aud", .text "x")]
        1000 = .ok token ∧
      (⟨some ⟨[107], by decide⟩, 604800⟩ : SessionService).verify token 1000 = .error .invalid := by
  have hplain : ∀ entry ∈ ([("aud", .text "x")] : ClaimMap),
      entry.2.Plain SessionClaims.maxExtraDepth := by
    intro entry hentry
    rw [List.mem_singleton.mp hentry]
    exact .text "x"
  obtain ⟨token, hissue, -, hrefuse⟩ :=
    @verify_issue ⟨some ⟨[107], by decide⟩, 604800⟩ ⟨[107], by decide⟩ "a" [("aud", .text "x")] 1000
      rfl (by decide) (by decide) (List.pairwise_singleton _ _) hplain (by decide)
  exact ⟨token, hissue, hrefuse ⟨_, List.mem_singleton_self _, .audience "x"⟩⟩

end WalletAuth.SessionService
