import WalletAuth.Proofs.Access.Timestamp
import WalletAuth.Proofs.Api.Login
import WalletAuth.Proofs.Json.Record

/-! Signed timestamps against logins. Both rest on a signature under the one digest of messages, and a
time is a message of four bytes: what is signed for the one is good for the other, and for no other
length of the message. Only one of the two looks at the clock, so a timestamp that spells a text and
has long expired still logs its signer in. -/

namespace WalletAuth

open Http (Request)
open Secp256k1 (PublicKey SigningKey)

/-! ### Logins in JSON -/

namespace LoginRequest

theorem read_print (login : LoginRequest) : read login.print = .ok login := by
  have hreads : Json.Schema.Reads [("message", .text), ("signature", .text)]
      [("message", .text login.message), ("signature", .text login.signature)] := by
    constructor
    case value =>
      simp only [List.forall_mem_cons]
      exact ⟨⟨.text, rfl, Json.FieldKind.reads_text _⟩, ⟨.text, rfl, Json.FieldKind.reads_text _⟩,
        fun _ hfield => absurd hfield List.not_mem_nil⟩
    case distinct =>
      show ["message", "signature"].Nodup
      decide
  rw [read, print, Json.readRecord_print hreads]
  rfl

theorem length_print_le (login : LoginRequest) :
    login.print.length ≤
      6 * ((Bytes.ofString login.message).length + (Bytes.ofString login.signature).length) + 29 := by
  have hlength : login.print.length =
      (Json.quote login.message).length + (Json.quote login.signature).length + 25 := by
    have hmessage : (Json.quote "message").length = 9 := by decide
    have hsignature : (Json.quote "signature").length = 11 := by decide
    simp only [print, Json.Value.print, Json.Value.printFields, Json.commaSeparated,
      List.length_cons, List.length_append, List.length_nil, hmessage, hsignature]
    omega
  have hmessage := Json.length_quote_le login.message
  have hsignature := Json.length_quote_le login.signature
  omega

/-- A request that sends a login to where logins are taken. -/
structure IsPostedBy (login : LoginRequest) (request : Request) : Prop where
  method : request.method = .post
  path : request.target.path = Bytes.ofString "/v1/auth/login"
  json : request.headers.announceJson = true
  body : request.body = login.print

/-- A login is read from the request that posts it, unless it is too long. -/
theorem IsPostedBy.loginRequest_eq {request : Request} {login : LoginRequest}
    (h : login.IsPostedBy request)
    (hlength : 6 * ((Bytes.ofString login.message).length +
      (Bytes.ofString login.signature).length) + 29 ≤ Server.maxBodyLength) :
    Server.loginRequest request = .ok login := by
  have hshort : ¬Server.maxBodyLength < login.print.length :=
    not_lt.mpr (login.length_print_le.trans hlength)
  simp only [Server.loginRequest, h.json, h.body, if_neg hshort, read_print]
  rfl

end LoginRequest

/-! ### Credentials put together -/

theorem CompactSignature.length_toBase64 (signature : CompactSignature) :
    (Bytes.ofString signature.toBase64).length = 88 := by
  rw [toBase64, Base64Url.ofString_encodeText, Base64Url.length_encode, signature.length_bytes]

namespace SignedTimestamp

variable {credential message : String} {bytes : Bytes} {signature : CompactSignature}
  {key : PublicKey} {now : Int}

/-- The bytes of a text and a signature are a credential exactly if the text has four bytes and its
signature logs the same signer in. -/
theorem verify_encodeText_iff :
    verify (Base64Url.encodeText (Bytes.ofString message ++ signature.bytes)) false now = .ok key ↔
      (Bytes.ofString message).length = 4 ∧
        recoverTextSigner signature.toBase64 message = .ok key := by
  rw [recoverTextSigner_toBase64_iff]
  constructor
  · intro h
    obtain ⟨timestamp, hsigner⟩ := exists_signerAndTime h
    obtain ⟨bytes, htext, hlength, -⟩ := signerAndTime_eq_ok_iff.mp hsigner
    have hbytes : Bytes.ofString message ++ signature.bytes = bytes := by
      have hdecode := CompactSignature.decodeBase64_eq_ok_iff.mpr htext
      rw [CompactSignature.decodeBase64_encodeText] at hdecode
      exact Except.ok.inj hdecode
    have hfour : (Bytes.ofString message).length = 4 := by
      rw [← hbytes, List.length_append, signature.length_bytes] at hlength
      omega
    exact ⟨hfour, ((signerAndTime_encodeText_iff hfour signature).mp hsigner).left⟩
  · rintro ⟨hfour, hrecover⟩
    rw [verify_false, (signerAndTime_encodeText_iff hfour signature).mpr ⟨hrecover, rfl⟩]
    rfl

/-- A credential comes apart into the bytes of a text, if it spells one, and a signature that logs
the signer in. -/
theorem exists_login_of_verify (h : verify credential false now = .ok key)
    (hdecode : CompactSignature.decodeBase64 credential = .ok bytes)
    (htext : Bytes.toString? (bytes.take 4) = some message) :
    ∃ signature : CompactSignature, signature.bytes = bytes.drop 4 ∧
      (Bytes.ofString message).length = 4 ∧
      recoverTextSigner signature.toBase64 message = .ok key := by
  obtain ⟨timestamp, hsigner⟩ := exists_signerAndTime h
  obtain ⟨bytes', hcredential, hlength, -⟩ := signerAndTime_eq_ok_iff.mp hsigner
  obtain rfl : bytes' = bytes := by
    rw [CompactSignature.decodeBase64_eq_ok_iff.mpr hcredential] at hdecode
    exact Except.ok.inj hdecode
  have hsignature : (bytes'.drop 4).length = 65 := by
    rw [List.length_drop]
    omega
  have hwhole : Base64Url.encodeText (Bytes.ofString message ++ bytes'.drop 4) = credential := by
    rw [Bytes.ofString_of_toString? htext, List.take_append_drop]
    apply Bytes.ofString_injective
    rw [Base64Url.ofString_encodeText, hcredential]
  exact ⟨⟨bytes'.drop 4, hsignature⟩, rfl, verify_encodeText_iff.mp (hwhole ▸ h)⟩

end SignedTimestamp

namespace Server

variable {server : Server} {key : PublicKey}

/-- A credential with a signer is good on every server around the time in it. -/
theorem authenticate_of_signerAndTime {credential : String} {timestamp : Nat} {now : Int64}
    (hsigner : SignedTimestamp.signerAndTime credential = .ok (timestamp, key))
    (htimestamp : timestamp < 2 ^ 32) (hearly : (timestamp : Int) - 60 ≤ now.toInt)
    (hlate : now.toInt ≤ timestamp + 300) :
    server.authenticate now credential = .ok (.ofSigner key) := by
  rw [authenticate_eq_of_signerAndTime hsigner htimestamp, if_neg (not_lt.mpr hlate),
    if_neg (not_lt.mpr hearly)]
  rfl

/-- The token of a login is good at once. -/
theorem authenticate_of_issue {sessionKey : SessionKey} {token : String} {now : Int64}
    (hkey : server.sessions.key = some sessionKey)
    (hlifetime : (server.sessions.lifetime : Int) ≤ 2 ^ 63 - 1) (hnow : 0 ≤ now.toInt)
    (hissue : server.sessions.issue key.hex [] now = .ok token) :
    server.authenticate now token = .ok ⟨key.hex, .session, some (server.sessions.expiry now)⟩ := by
  obtain ⟨token', hissue', hpointed, hverify⟩ :=
    SessionService.exists_issue hkey hlifetime key.hex_ne_empty hnow
  obtain rfl : token' = token := Except.ok.inj (hissue'.symm.trans hissue)
  have hunexpired : ¬(server.sessions.expiry now).toInt + SessionToken.leeway < now.toInt := by
    have hlast := now.toInt_lt
    rw [SessionService.toInt_expiry_eq_min, SessionToken.leeway]
    omega
  exact (authenticate_of_looksLikeSession (looksLikeSession_of_isPointed hpointed)).mpr
    ⟨_, (hverify now).trans (if_neg hunexpired), rfl⟩

/-- For a text of four bytes, and for no other, its bytes and a signature are a timestamp credential
of the very signer that the signature logs in. So whoever holds a credential that spells a text, old
as it may be, is given a session of its signer, and whoever holds a login of four bytes has a
credential for the time that they spell. -/
theorem login_timestamp_interchange (message : String) :
    let time := Bytes.ofString message
    (∀ (signature : CompactSignature) (key : PublicKey) (now : Int),
      SignedTimestamp.verify (Base64Url.encodeText (time ++ signature.bytes)) false now = .ok key ↔
        time.length = 4 ∧ recoverTextSigner signature.toBase64 message = .ok key) ∧
    (∀ credential bytes key past, SignedTimestamp.verify credential false past = .ok key →
      CompactSignature.decodeBase64 credential = .ok bytes →
      Bytes.toString? (bytes.take 4) = some message →
      ∀ (server : Server) (sessionKey : SessionKey), server.sessions.key = some sessionKey →
      (server.sessions.lifetime : Int) ≤ 2 ^ 63 - 1 →
      ∀ (now : Int64) (request : Request),
      LoginRequest.IsPostedBy ⟨message, Base64Url.encodeText (bytes.drop 4)⟩ request →
      ∃ token, server.sessions.issue key.hex [] now = .ok token ∧
        Answers (server.respond now request) 200
          (.object [("pubkey", .text key.hex), ("token", .text token),
            ("is_admin", .bool (server.settings.isAdmin key.hex))]) ∧
        (0 ≤ now.toInt → server.authenticate now token =
          .ok ⟨key.hex, .session, some (server.sessions.expiry now)⟩)) ∧
    (∀ (signature : CompactSignature) (key : PublicKey), time.length = 4 →
      recoverTextSigner signature.toBase64 message = .ok key →
      ∀ (server : Server) (now : Int64), (time.toNat : Int) - 60 ≤ now.toInt →
      now.toInt ≤ time.toNat + 300 →
      server.authenticate now (Base64Url.encodeText (time ++ signature.bytes)) =
        .ok ⟨key.hex, .signedTimestamp, none⟩) := by
  intro time
  refine ⟨fun signature key now => SignedTimestamp.verify_encodeText_iff, ?_, ?_⟩
  · intro credential bytes key past hverify hdecode htext server sessionKey hkey hlifetime now
      request hposted
    obtain ⟨signature, hbytes, hfour, hsigner⟩ :=
      SignedTimestamp.exists_login_of_verify hverify hdecode htext
    rw [← hbytes] at hposted
    have hlogin : loginRequest request = .ok ⟨message, signature.toBase64⟩ := by
      apply hposted.loginRequest_eq
      show 6 * (time.length + (Bytes.ofString signature.toBase64).length) + 29 ≤ maxBodyLength
      rw [hfour, signature.length_toBase64]
      decide
    have hissue : server.sessions.issue key.hex [] now = .ok _ :=
      SessionService.issue_eq hkey hlifetime key.hex_ne_empty
    exact ⟨_, hissue, respond_login hposted.method hposted.path hlogin (issueTo_eq hsigner hissue),
      fun hnow => authenticate_of_issue hkey hlifetime hnow hissue⟩
  · intro signature key hfour hsigner server now hearly hlate
    have hcredential := (SignedTimestamp.signerAndTime_encodeText_iff hfour signature).mpr
      ⟨recoverTextSigner_toBase64_iff.mp hsigner, rfl⟩
    have htime : time.toNat < 2 ^ 32 := by
      have hlt := Bytes.toNat_lt time
      rw [hfour] at hlt
      exact hlt
    exact authenticate_of_signerAndTime hcredential htime hearly hlate

/-- A credential that has expired logs its signer in. -/
theorem login_timestamp_interchange_seed :
    let credential :=
      "c2VlZB95vmZ--dy7rFWgYpXOhwsHApv82y3OKNlZ8oFbFvgXmFG73zQGZpeZ1UMo9iglDNb8Byo2I-MHx_TLhg7Ip32G"
    let key := SigningKey.publicKey ⟨1, by decide⟩
    let server : Server := .new ⟨[], "", "", ""⟩ ⟨some ⟨[107], by decide⟩, 604800⟩ .empty
    SignedTimestamp.verify credential true 2000000000 = .error (.expired 1936024932) ∧
      server.authenticate 1936024932 credential = .ok ⟨key.hex, .signedTimestamp, none⟩ ∧
      ∃ signature token,
        recoverTextSigner signature "seed" = .ok key ∧
        Answers (server.respond 2000000000 ⟨.post, ⟨Bytes.ofString "/v1/auth/login", none⟩,
            [⟨"content-type", Bytes.ofString "application/json"⟩],
            LoginRequest.print ⟨"seed", signature⟩⟩) 200
          (.object [("pubkey", .text key.hex), ("token", .text token),
            ("is_admin", .bool false)]) ∧
        server.authenticate 2000000000 token =
          .ok ⟨key.hex, .session, some (server.sessions.expiry 2000000000)⟩ := by
  intro credential key server
  obtain ⟨signature, htext, hrecover⟩ := SignedTimestamp.exists_signature_seed
  have hcredential : Base64Url.encodeText (Bytes.ofString "seed" ++ signature.bytes) = credential :=
    htext
  have hsigner : SignedTimestamp.signerAndTime credential = .ok (1936024932, key) :=
    hcredential ▸ (SignedTimestamp.signerAndTime_encodeText_iff rfl signature).mpr ⟨hrecover, rfl⟩
  have hexpired : SignedTimestamp.verify credential true 2000000000 =
      .error (.expired 1936024932) := by
    rw [SignedTimestamp.verify_true_of_ok hsigner]
    exact (SignedTimestamp.map_checkFresh_iff (by decide) _).right.left.mpr (by decide)
  have hmessage : recoverTextSigner signature.toBase64 "seed" = .ok key :=
    recoverTextSigner_toBase64 hrecover
  have hdecode : CompactSignature.decodeBase64 credential =
      .ok (Bytes.ofString "seed" ++ signature.bytes) :=
    hcredential ▸ CompactSignature.decodeBase64_encodeText _
  have hjson : Http.Headers.announceJson
      [⟨"content-type", Bytes.ofString "application/json"⟩] = true := by decide
  have hposted : LoginRequest.IsPostedBy ⟨"seed", signature.toBase64⟩
      ⟨.post, ⟨Bytes.ofString "/v1/auth/login", none⟩,
        [⟨"content-type", Bytes.ofString "application/json"⟩],
        LoginRequest.print ⟨"seed", signature.toBase64⟩⟩ :=
    ⟨rfl, rfl, hjson, rfl⟩
  have hadmin (pubkey : String) : server.settings.isAdmin pubkey = false := Bool.and_false _
  obtain ⟨hiff, hlogin, hauthenticate⟩ := login_timestamp_interchange "seed"
  have hverify : SignedTimestamp.verify credential false 2000000000 = .ok key :=
    hcredential ▸ (hiff signature key 2000000000).mpr ⟨rfl, hmessage⟩
  obtain ⟨token, -, hanswer, htoken⟩ := hlogin credential _ key 2000000000 hverify hdecode
    (Bytes.toString?_ofString "seed") server ⟨[107], by decide⟩ rfl (by decide) 2000000000 _ hposted
  rw [hadmin] at hanswer
  have hfresh : server.authenticate 1936024932 credential =
      .ok ⟨key.hex, .signedTimestamp, none⟩ :=
    hcredential ▸ hauthenticate signature key rfl hmessage server 1936024932 (by decide) (by decide)
  exact ⟨hexpired, hfresh, signature.toBase64, token, hmessage, hanswer, htoken (by decide)⟩

end Server

end WalletAuth
