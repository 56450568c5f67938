import WalletAuth.Proofs.Session.Acceptance

/-! How long a session token is good. Of all that is checked, only the expiry is held against the
clock, and it is checked before anything that a good form leaves open. So a token is either refused at
all times, or it is good for one identity until a minute after its expiry and has expired from then
on; neither the lifetime of the service nor the time of asking has a part in the identity. -/

namespace WalletAuth

namespace SessionToken

variable {secret token : Bytes} {now : Int64}

theorem expiresAt_nonneg_of_open? {content : Content} (h : open? secret token = some content) :
    0 ≤ content.claims.expiresAt.toInt := by
  obtain ⟨_, _, _, hopens⟩ := open?_eq_some_iff.mp h
  exact hopens.expiry

/-- A token has expired if it opens, whoever it is meant for, and is too old. -/
theorem decode_eq_expired_iff :
    decode secret token now = .error .expired ↔
      ∃ content, open? secret token = some content ∧
        content.claims.expiresAt.toInt + leeway < now.toInt := by
  rw [decode]
  cases open? secret token with
  | none => simp
  | some content =>
      by_cases hlate : content.claims.expiresAt.toInt + leeway < now.toInt
      · simp [hlate]
      · cases haudience : content.hasAudience <;> simp [hlate, haudience]

end SessionToken

namespace SessionService

variable {service other : SessionService} {token : String} {now later : Int64}
  {claims laterClaims : SessionClaims}

theorem verify_eq_expired_iff :
    service.verify token now = .error .expired ↔
      ∃ key content, service.key = some key ∧
        SessionToken.open? key.bytes (Bytes.ofString token) = some content ∧
          content.claims.expiresAt.toInt + SessionToken.leeway < now.toInt := by
  cases hkey : service.key with
  | none => simp [verify, hkey]
  | some key => simp [verify_of_key hkey, SessionToken.decode_eq_expired_iff]

/-- Services with the same key accept the same tokens, however long their own ones live. -/
theorem verify_eq_of_key_eq (h : other.key = service.key) (token : String) (now : Int64) :
    other.verify token now = service.verify token now := by
  rw [verify, h, verify]

/-- A token names the same claims whenever it is good. -/
theorem claims_eq_of_verify (h : service.verify token now = .ok claims)
    (hlater : service.verify token later = .ok laterClaims) : laterClaims = claims := by
  obtain ⟨key, hkey, hopen, -⟩ := verify_eq_ok_iff.mp h
  obtain ⟨laterKey, hlaterKey, hlaterOpen, -⟩ := verify_eq_ok_iff.mp hlater
  obtain rfl : laterKey = key := Option.some.inj (hlaterKey.symm.trans hkey)
  rw [hopen, Option.some.injEq, SessionToken.Content.mk.injEq] at hlaterOpen
  exact hlaterOpen.left.symm

/-- A token that is good later is good now. -/
theorem verify_of_le (hle : now.toInt ≤ later.toInt) (h : service.verify token later = .ok claims) :
    service.verify token now = .ok claims := by
  obtain ⟨key, hkey, hopen, hlater⟩ := verify_eq_ok_iff.mp h
  exact verify_eq_ok_iff.mpr ⟨key, hkey, hopen, hle.trans hlater⟩

/-- A token that has expired stays so. -/
theorem expired_of_le (hle : now.toInt ≤ later.toInt)
    (h : service.verify token now = .error .expired) :
    service.verify token later = .error .expired := by
  obtain ⟨key, content, hkey, hopen, hnow⟩ := verify_eq_expired_iff.mp h
  exact verify_eq_expired_iff.mpr ⟨key, content, hkey, hopen, hnow.trans_le hle⟩

/-- A token that is good at any time is good exactly until a minute after its expiry, which is no
negative time. -/
theorem interval_of_verify (h : service.verify token now = .ok claims) :
    0 ≤ claims.expiresAt.toInt ∧ ∀ time : Int64,
      (service.verify token time = .ok claims ↔ time.toInt ≤ claims.expiresAt.toInt + 60) ∧
      (service.verify token time = .error .expired ↔ claims.expiresAt.toInt + 60 < time.toInt) := by
  obtain ⟨key, hkey, hopen, -⟩ := verify_eq_ok_iff.mp h
  refine ⟨SessionToken.expiresAt_nonneg_of_open? hopen, fun time => ⟨?_, ?_⟩⟩
  · simp [verify_eq_ok_iff, hkey, hopen, SessionToken.leeway]
  · simp [verify_eq_expired_iff, hkey, hopen, SessionToken.leeway]

/-- Over all times, a token is refused throughout or good for the same claims in one interval, which
starts with the clock and ends a minute after the expiry that the claims name; from then on it has
expired. What it names depends neither on the time nor on the lifetime of the service, so a token
that was good later was good before, and one that has expired never comes back. -/
theorem verify_interval (service : SessionService) (token : String) :
    ((∀ now, ∃ error, service.verify token now = .error error) ∨
      ∃ claims, 0 ≤ claims.expiresAt.toInt ∧ ∀ now : Int64,
        (service.verify token now = .ok claims ↔ now.toInt ≤ claims.expiresAt.toInt + 60) ∧
        (service.verify token now = .error .expired ↔
          claims.expiresAt.toInt + 60 < now.toInt)) ∧
    (∀ other : SessionService, other.key = service.key →
      (∀ now, other.verify token now = service.verify token now) ∧
      ∀ now later claims laterClaims, service.verify token now = .ok claims →
        other.verify token later = .ok laterClaims → laterClaims = claims) ∧
    (∀ now later : Int64, now.toInt ≤ later.toInt →
      (∀ claims, service.verify token later = .ok claims → service.verify token now = .ok claims) ∧
      (service.verify token now = .error .expired →
        service.verify token later = .error .expired)) := by
  refine ⟨?_, ?_, ?_⟩
  · by_cases hgood : ∃ now claims, service.verify token now = .ok claims
    · obtain ⟨now, claims, hverify⟩ := hgood
      exact Or.inr ⟨claims, interval_of_verify hverify⟩
    · refine Or.inl fun now => ?_
      cases hverify : service.verify token now with
      | error error => exact ⟨error, rfl⟩
      | ok claims => exact absurd ⟨now, claims, hverify⟩ hgood
  · intro other hkey
    refine ⟨verify_eq_of_key_eq hkey token, ?_⟩
    intro now later claims laterClaims hverify hlater
    rw [verify_eq_of_key_eq hkey] at hlater
    exact claims_eq_of_verify hverify hlater
  · intro now later hle
    exact ⟨fun claims => verify_of_le hle, expired_of_le hle⟩

end SessionService

end WalletAuth
