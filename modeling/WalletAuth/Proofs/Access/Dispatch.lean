import WalletAuth.Access.Credential
import WalletAuth.Proofs.Session.Acceptance
import WalletAuth.Proofs.Signature.Timestamp

/-! The two kinds of credentials are told apart by their points. Session tokens have points and do
not start with one, signed timestamps have none, so the test on the text sends every credential to
the one reader that may accept it. -/

namespace WalletAuth

open Secp256k1 (PublicKey)
open SessionToken (IsPointed point)

variable {token : String}

/-- The test on the text of a credential, for one that is ASCII, on its bytes. -/
theorem looksLikeSession_iff (h : ∀ char ∈ Bytes.ofString token, char < 128) :
    looksLikeSession token = true ↔
      point ∈ Bytes.ofString token ∧ (Bytes.ofString token).head? ≠ some point := by
  have hchars : token.toList =
      (Bytes.ofString token).map fun char => Char.ofNat char.toNat := by
    conv_lhs => rw [← Bytes.toAscii_ofString h, Bytes.toAscii, String.toList_ofList]
  have hpoint : ∀ char ∈ Bytes.ofString token, Char.ofNat char.toNat = '.' ↔ char = point := by
    intro char hchar
    constructor
    · exact Bytes.charOfNat_injective (h char hchar) (show point < 128 by decide)
    · rintro rfl
      rfl
  rw [looksLikeSession, Bool.and_eq_true, List.contains_iff_mem, decide_eq_true_eq, hchars,
    List.mem_map, List.head?_map]
  generalize Bytes.ofString token = bytes at hpoint
  refine and_congr ?_ (not_congr ?_)
  · constructor
    · rintro ⟨char, hchar, hdot⟩
      exact (hpoint char hchar).mp hdot ▸ hchar
    · exact fun hmem => ⟨point, hmem, rfl⟩
  · cases bytes with
    | nil => simp
    | cons char chars => simpa using hpoint char List.mem_cons_self

theorem looksLikeSession_of_isPointed (h : IsPointed (Bytes.ofString token)) :
    looksLikeSession token = true :=
  (looksLikeSession_iff h.lt).mpr ⟨h.point_mem, h.head_ne⟩

theorem SessionService.looksLikeSession_of_verify {service : SessionService} {now : Int64}
    {claims : SessionClaims} (h : service.verify token now = .ok claims) :
    looksLikeSession token = true := by
  obtain ⟨key, -, hopen, -⟩ := verify_eq_ok_iff.mp h
  exact looksLikeSession_of_isPointed (SessionToken.isPointed_of_open? hopen)

theorem SignedTimestamp.not_looksLikeSession_of_verify {checkTime : Bool} {now : Int}
    {key : PublicKey} (h : verify token checkTime now = .ok key) :
    looksLikeSession token = false := by
  obtain ⟨timestamp, hsigner⟩ := exists_signerAndTime h
  obtain ⟨bytes, htoken, -⟩ := signerAndTime_eq_ok_iff.mp hsigner
  have hchar : ∀ char ∈ Bytes.ofString token, char < 128 ∧ char ≠ point := by
    intro char hmem
    rw [htoken] at hmem
    rcases Base64Url.isSymbol_or_eq_pad_of_mem_encode hmem with hsymbol | rfl
    · obtain ⟨-, hlt, hne⟩ := Base64Url.bounds_of_isSymbol char hsymbol
      exact ⟨UInt8.lt_trans hlt (by decide), hne⟩
    · decide
  rw [← Bool.not_eq_true, looksLikeSession_iff fun char hmem => (hchar char hmem).left]
  rintro ⟨hpoint, -⟩
  exact (hchar point hpoint).right rfl

namespace Server

variable {server : Server} {now : Int64} {caller : Caller}

theorem authenticate_of_looksLikeSession (h : looksLikeSession token = true) :
    server.authenticate now token = .ok caller ↔
      ∃ claims, server.sessions.verify token now = .ok claims ∧ caller = .ofClaims claims := by
  rw [authenticate, if_pos h]
  cases server.sessions.verify token now <;> simp [eq_comm]

theorem authenticate_of_not_looksLikeSession (h : looksLikeSession token = false) :
    server.authenticate now token = .ok caller ↔
      ∃ key, SignedTimestamp.verify token true now.toInt = .ok key ∧ caller = .ofSigner key := by
  rw [authenticate, if_neg (by rw [h]; exact Bool.false_ne_true)]
  cases SignedTimestamp.verify token true now.toInt <;> simp [eq_comm]

/-- A credential is accepted exactly if one of the two readers accepts it, and it stands for the
caller that this reader names. No credential is accepted by both, whenever each of them looks. -/
theorem authenticate_eq_ok_iff (server : Server) (now : Int64) (token : String) :
    (∀ caller, server.authenticate now token = .ok caller ↔
      (∃ claims, server.sessions.verify token now = .ok claims ∧
        now.toInt ≤ claims.expiresAt.toInt + 60 ∧
        caller = ⟨claims.pubkey, .session, some claims.expiresAt⟩) ∨
      (∃ key, SignedTimestamp.verify token true now.toInt = .ok key ∧
        caller = ⟨key.hex, .signedTimestamp, none⟩)) ∧
    (∀ time claims, server.sessions.verify token time = .ok claims →
      looksLikeSession token = true) ∧
    (∀ checkTime time key, SignedTimestamp.verify token checkTime time = .ok key →
      looksLikeSession token = false) ∧
    ¬((∃ time claims, server.sessions.verify token time = .ok claims) ∧
      ∃ checkTime time key, SignedTimestamp.verify token checkTime time = .ok key) := by
  have hsession (time : Int64) (claims : SessionClaims)
      (h : server.sessions.verify token time = .ok claims) : looksLikeSession token = true :=
    SessionService.looksLikeSession_of_verify h
  have hsigned (checkTime : Bool) (time : Int) (key : PublicKey)
      (h : SignedTimestamp.verify token checkTime time = .ok key) : looksLikeSession token = false :=
    SignedTimestamp.not_looksLikeSession_of_verify h
  refine ⟨?_, hsession, hsigned, ?_⟩
  · intro caller
    cases hlooks : looksLikeSession token with
    | true =>
        rw [authenticate_of_looksLikeSession hlooks]
        constructor
        · rintro ⟨claims, hclaims, rfl⟩
          obtain ⟨_, -, -, hnow⟩ := SessionService.verify_eq_ok_iff.mp hclaims
          exact Or.inl ⟨claims, hclaims, hnow, rfl⟩
        · rintro (⟨claims, hclaims, -, rfl⟩ | ⟨key, hkey, -⟩)
          · exact ⟨claims, hclaims, rfl⟩
          · exact absurd (hsigned true now.toInt key hkey) (by simp [hlooks])
    | false =>
        rw [authenticate_of_not_looksLikeSession hlooks]
        constructor
        · rintro ⟨key, hkey, rfl⟩
          exact Or.inr ⟨key, hkey, rfl⟩
        · rintro (⟨claims, hclaims, -, -⟩ | ⟨key, hkey, rfl⟩)
          · exact absurd (hsession now claims hclaims) (by simp [hlooks])
          · exact ⟨key, hkey, rfl⟩
  · rintro ⟨⟨time, claims, hclaims⟩, checkTime, time', key, hkey⟩
    exact absurd (hsession time claims hclaims) (by simp [hsigned checkTime time' key hkey])

end Server

end WalletAuth
