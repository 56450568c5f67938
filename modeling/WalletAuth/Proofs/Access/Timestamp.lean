import WalletAuth.Proofs.Access.Dispatch

/-! What becomes of the credential that a wallet makes. Every server finds the wallet's key in it,
initialized or not, and lets the wallet in from one minute before the time that was signed until five
minutes after; at all other times it blames the clock and nothing else. -/

namespace WalletAuth.Server

open Secp256k1 (PublicKey SigningKey)

/-- A credential whose signer is found is good around the time in it. -/
theorem authenticate_eq_of_signerAndTime {token : String} {timestamp : Nat} {key : PublicKey}
    (hsigner : SignedTimestamp.signerAndTime token = .ok (timestamp, key))
    (htimestamp : timestamp < 2 ^ 32) (server : Server) (now : Int64) :
    server.authenticate now token =
      if (timestamp : Int) + 300 < now.toInt then
        .error (.invalidSignature "signed timestamp is too old")
      else if now.toInt < (timestamp : Int) - 60 then
        .error (.invalidSignature "signed timestamp is in the future")
      else .ok ⟨key.hex, .signedTimestamp, none⟩ := by
  have hverify : SignedTimestamp.verify token false now.toInt = .ok key := by
    rw [SignedTimestamp.verify_false, hsigner]
    rfl
  rw [authenticate, if_neg (by simp [SignedTimestamp.not_looksLikeSession_of_verify hverify]),
    SignedTimestamp.verify_true_of_ok hsigner, SignedTimestamp.checkFresh_of_lt htimestamp]
  by_cases hlate : (timestamp : Int) + 300 < now.toInt
  · simp only [if_pos hlate]
    rfl
  · by_cases hearly : now.toInt < (timestamp : Int) - 60
    · simp only [if_neg hlate, if_pos hearly]
      rfl
    · simp only [if_neg hlate, if_neg hearly]
      rfl

/-- The credential that a wallet makes for a time is 92 symbols without padding and names the wallet
as its signer for good. As a login it counts from one minute before that time until five minutes
after, on any server. -/
theorem authenticate_issued {key : SigningKey} {seconds : UInt32} {token : String}
    (h : SignedTimestamp.issue key seconds = .ok token) :
    token.length = 92 ∧ Base64Url.IsSymbolText token ∧
    (∀ now, SignedTimestamp.verify token false now = .ok key.publicKey) ∧
    ∀ (server : Server) (now : Int64),
      (server.authenticate now token = .ok ⟨key.publicKey.hex, .signedTimestamp, none⟩ ↔
        (seconds.toNat : Int) - 60 ≤ now.toInt ∧ now.toInt ≤ seconds.toNat + 300) ∧
      (server.authenticate now token =
          .error (.invalidSignature "signed timestamp is too old") ↔
        (seconds.toNat : Int) + 300 < now.toInt) ∧
      (server.authenticate now token =
          .error (.invalidSignature "signed timestamp is in the future") ↔
        now.toInt < (seconds.toNat : Int) - 60) := by
  have hsigner := SignedTimestamp.signerAndTime_of_issue h
  obtain ⟨hlength, hsymbols⟩ := SignedTimestamp.text_of_issue h
  refine ⟨hlength, hsymbols, ?_, ?_⟩
  · intro now
    rw [SignedTimestamp.verify_false, hsigner]
    rfl
  · intro server now
    rw [authenticate_eq_of_signerAndTime hsigner seconds.toNat_lt]
    by_cases hlate : (seconds.toNat : Int) + 300 < now.toInt
    · rw [if_pos hlate]
      exact ⟨iff_of_false (by simp) (by omega), iff_of_true rfl hlate,
        iff_of_false (by simp) (by omega)⟩
    · rw [if_neg hlate]
      by_cases hearly : now.toInt < (seconds.toNat : Int) - 60
      · rw [if_pos hearly]
        exact ⟨iff_of_false (by simp) (by omega), iff_of_false (by simp) hlate,
          iff_of_true rfl hearly⟩
      · rw [if_neg hearly]
        exact ⟨iff_of_true rfl (by omega), iff_of_false (by simp) hlate,
          iff_of_false (by simp) hearly⟩

/-- A credential for the time that the bytes of "Sign" write, at the last second that it is good and
around the window. No session is needed: the server has no key for them. -/
theorem authenticate_issued_sign :
    let key : SigningKey := ⟨7, by decide⟩
    let server : Server := .new ⟨[], "", "", ""⟩ (.new 604800) .empty
    ∃ token, SignedTimestamp.issue key 1399416686 = .ok token ∧ token.length = 92 ∧
      server.authenticate 1399416986 token = .ok ⟨key.publicKey.hex, .signedTimestamp, none⟩ ∧
      server.authenticate 1399416987 token =
        .error (.invalidSignature "signed timestamp is too old") ∧
      server.authenticate 1399416625 token =
        .error (.invalidSignature "signed timestamp is in the future") := by
  intro key server
  obtain ⟨signature, hsign⟩ := exists_sign_seven
  have htime : Bytes.ofNat 4 (1399416686 : UInt32).toNat = Bytes.ofString "Sign" := by decide
  have hissue : SignedTimestamp.issue key 1399416686 =
      .ok (Base64Url.encodeText (Bytes.ofString "Sign" ++ signature.bytes)) :=
    SignedTimestamp.issue_eq_ok_iff.mpr ⟨signature, htime ▸ hsign, by rw [htime]⟩
  obtain ⟨hlength, -, -, hserver⟩ := authenticate_issued hissue
  exact ⟨_, hissue, hlength, (hserver server 1399416986).left.mpr (by decide),
    (hserver server 1399416987).right.left.mpr (by decide),
    (hserver server 1399416625).right.right.mpr (by decide)⟩

end WalletAuth.Server
