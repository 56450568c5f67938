import WalletAuth.Proofs.Access.Credential
import WalletAuth.Proofs.Access.Dispatch

/-! How issued credentials travel. Session tokens and signed timestamps alike are made of symbols and
points, which stand for themselves in a header field and in a query, so it makes no difference in
which of the two a caller presents one. -/

namespace WalletAuth

open Http (Header Headers Request Target)
open Http.Form (IsPlain Spells)
open SessionToken (point)

variable {token : String}

/-! ### Portable text -/

/-- Symbols and points are plain in a query. -/
theorem isPlain_of_point_or_isSymbol {char : UInt8}
    (h : char = point ∨ Base64Url.isSymbol char = true) : IsPlain char := by
  have hall : ∀ char, char = point ∨ Base64Url.isSymbol char = true → IsPlain char :=
    Bytes.forall_byte (by decide +kernel)
  exact hall char h

/-- Texts of symbols and points, with something in them. -/
structure IsPortable (token : String) : Prop where
  ne_empty : token ≠ ""
  point_or_isSymbol : ∀ char ∈ Bytes.ofString token,
    char = point ∨ Base64Url.isSymbol char = true

namespace IsPortable

variable (h : IsPortable token)
include h

theorem bounds : ∀ char ∈ Bytes.ofString token, 32 < char ∧ char < 127 :=
  fun char hchar => SessionToken.bounds_of_point_or_isSymbol (h.point_or_isSymbol char hchar)

theorem spells : Spells (Bytes.ofString token) (Bytes.ofString token) :=
  Http.Form.spells_self fun char hchar =>
    isPlain_of_point_or_isSymbol (h.point_or_isSymbol char hchar)

/-- In a header field, portable text is presented as it is, whatever the query says. -/
theorem presentedToken?_of_first {headers : Headers}
    (hfirst : headers.first? tokenName = some (Bytes.ofString token)) (target : Target) :
    presentedToken? headers target = some token := by
  rw [WalletAuth.presentedToken?_of_first hfirst]
  exact headerToken?_of_visible (mt Bytes.ofString_eq_nil_iff.mp h.ne_empty) h.bounds

end IsPortable

theorem isPortable_of_isPointed (h : SessionToken.IsPointed (Bytes.ofString token)) :
    IsPortable token :=
  ⟨mt Bytes.ofString_eq_nil_iff.mpr (List.ne_nil_of_mem h.point_mem), h.isSymbol⟩

theorem presentedToken?_of_isPointed (h : SessionToken.IsPointed (Bytes.ofString token))
    {headers : Headers} (hfirst : headers.first? "token" = some (Bytes.ofString token))
    (target : Target) : presentedToken? headers target = some token :=
  (isPortable_of_isPointed h).presentedToken?_of_first hfirst target

/-! ### Issued credentials -/

/-- What a service issues is sealed under its key. -/
theorem SessionService.exists_encode_of_issue {service : SessionService} {identifier : String}
    {payload : ClaimMap} {now : Int64} (h : service.issue identifier payload now = .ok token) :
    ∃ secret claims, Bytes.ofString token = SessionToken.encode secret claims := by
  rw [issue] at h
  split at h
  · exact absurd h (by simp)
  · split_ifs at h
    rw [← Except.ok.inj h]
    exact ⟨_, _, Bytes.ofString_toAscii fun _ hchar => SessionToken.lt_of_mem_encode hchar⟩

/-- A credential that was made by a service or by a wallet. -/
inductive IsIssued (token : String) : Prop where
  | session {service : SessionService} {identifier : String} {payload : ClaimMap} {now : Int64}
      (h : service.issue identifier payload now = .ok token)
  | timestamp {key : Secp256k1.SigningKey} {seconds : UInt32}
      (h : SignedTimestamp.issue key seconds = .ok token)

theorem IsIssued.isPortable (h : IsIssued token) : IsPortable token := by
  cases h with
  | session h =>
      obtain ⟨secret, claims, htoken⟩ := SessionService.exists_encode_of_issue h
      exact isPortable_of_isPointed (htoken ▸ SessionToken.isPointed_encode secret claims)
  | timestamp h =>
      obtain ⟨bytes, hlength, htoken⟩ := SignedTimestamp.ofString_of_issue h
      have hsymbols : ∀ char ∈ Bytes.ofString token, Base64Url.isSymbol char = true :=
        htoken ▸ fun _ => Base64Url.isSymbol_of_mem_encodeBare
      refine ⟨?_, fun char hchar => Or.inr (hsymbols char hchar)⟩
      rintro rfl
      exact absurd (SignedTimestamp.text_of_issue h).left (by decide)

/-- An issued credential may stand in a header field, and in a query as it is. From both it is read
as it was issued, so the caller that it stands for does not depend on how it is presented. -/
theorem presentedToken?_issued (h : IsIssued token) :
    Header.ofBytes? (Bytes.ofString "token") (Bytes.ofString token) =
      some ⟨"token", Bytes.ofString token⟩ ∧
    (∀ headers target, Headers.first? headers "token" = some (Bytes.ofString token) →
      presentedToken? headers target = some token) ∧
    (∀ headers path target, (∀ header ∈ headers, header.name ≠ "token") →
      (∀ char ∈ path, ¬Target.EndsPath char) →
      Target.parse? (path ++ Bytes.ofString "?token=" ++ Bytes.ofString token) = some target →
      presentedToken? headers target = some token) ∧
    (∀ path, (∀ char ∈ path, Target.isPathChar char = true) →
      ((∃ target, Target.parse?
          (47 :: path ++ Bytes.ofString "?token=" ++ Bytes.ofString token) = some target) ↔
        (47 :: path ++ Bytes.ofString "?token=" ++ Bytes.ofString token).length ≤ 65534 ∧
          Bytes.IsText (47 :: path ++ Bytes.ofString "?token=" ++ Bytes.ofString token))) ∧
    ∀ (server : Server) (now : Int64) (path : Bytes) (inHeader inQuery : Request),
      inHeader.headers.first? "token" = some (Bytes.ofString token) →
      (∀ header ∈ inQuery.headers, header.name ≠ "token") →
      (∀ char ∈ path, ¬Target.EndsPath char) →
      Target.parse? (path ++ Bytes.ofString "?token=" ++ Bytes.ofString token) =
        some inQuery.target →
      server.authenticateRequest now inHeader = server.authenticate now token ∧
        server.authenticateRequest now inQuery = server.authenticate now token := by
  have hportable := h.isPortable
  have hheader (headers : Headers) (target : Target)
      (hfirst : headers.first? "token" = some (Bytes.ofString token)) :
      presentedToken? headers target = some token :=
    hportable.presentedToken?_of_first hfirst target
  have hquery (headers : Headers) (path : Bytes) (target : Target)
      (hnone : ∀ header ∈ headers, header.name ≠ "token")
      (hpath : ∀ char ∈ path, ¬Target.EndsPath char)
      (hparse : Target.parse? (path ++ Bytes.ofString "?token=" ++ Bytes.ofString token) =
        some target) : presentedToken? headers target = some token :=
    presentedToken?_of_parse? (Headers.first?_eq_none hnone) hpath hportable.spells
      hportable.ne_empty hparse
  refine ⟨ofBytes?_of_visible hportable.bounds, hheader, hquery, ?_, ?_⟩
  · exact fun path hpath => exists_parse?_spelled_iff hpath hportable.spells
  · intro server now path inHeader inQuery hfirst hnone hpath hparse
    simp only [Server.authenticateRequest, hheader _ inHeader.target hfirst,
      hquery _ path _ hnone hpath hparse, and_self]

/-- A credential of a wallet, presented to the same endpoint in both ways. -/
theorem presentedToken?_issued_sign :
    ∃ token target, SignedTimestamp.issue ⟨7, by decide⟩ 1399416686 = .ok token ∧
      Target.parse? (Bytes.ofString "/v1/auth/me" ++ Bytes.ofString "?token=" ++
        Bytes.ofString token) = some target ∧
      presentedToken? [] target = some token ∧
      presentedToken? [⟨"token", Bytes.ofString token⟩] ⟨[47], none⟩ = some token := by
  obtain ⟨signature, hsign⟩ := exists_sign_seven
  have htime : Bytes.ofNat 4 (1399416686 : UInt32).toNat = Bytes.ofString "Sign" := by decide
  have hissue : SignedTimestamp.issue ⟨7, by decide⟩ 1399416686 =
      .ok (Base64Url.encodeText (Bytes.ofString "Sign" ++ signature.bytes)) :=
    SignedTimestamp.issue_eq_ok_iff.mpr ⟨signature, htime ▸ hsign, by rw [htime]⟩
  have hlength : (Bytes.ofString
      (Base64Url.encodeText (Bytes.ofString "Sign" ++ signature.bytes))).length = 92 := by
    rw [Base64Url.ofString_encodeText, Base64Url.length_encode, List.length_append,
      signature.length_bytes]
    rfl
  obtain ⟨-, hheader, hquery, hfits, -⟩ := presentedToken?_issued (.timestamp hissue)
  have hchars : ∀ char ∈ Bytes.ofString "v1/auth/me", Target.isPathChar char = true :=
    List.all_eq_true.mp (by decide)
  have htext : Bytes.IsText (Bytes.ofString "/v1/auth/me" ++ Bytes.ofString "?token=" ++
      Bytes.ofString (Base64Url.encodeText (Bytes.ofString "Sign" ++ signature.bytes))) :=
    ((Bytes.isText_ofString _).append (Bytes.isText_ofString _)).append (Bytes.isText_ofString _)
  have hshort : (Bytes.ofString "/v1/auth/me" ++ Bytes.ofString "?token=" ++
      Bytes.ofString
        (Base64Url.encodeText (Bytes.ofString "Sign" ++ signature.bytes))).length ≤ 65534 := by
    rw [List.length_append, hlength]
    decide
  obtain ⟨target, hparse⟩ := (hfits (Bytes.ofString "v1/auth/me") hchars).mpr ⟨hshort, htext⟩
  have hpath : ∀ char ∈ Bytes.ofString "/v1/auth/me", ¬Target.EndsPath char :=
    List.all_iff_forall_prop.mp (by decide)
  exact ⟨_, target, hissue, hparse, hquery [] _ _ (by simp) hpath hparse, hheader _ _ rfl⟩

end WalletAuth
