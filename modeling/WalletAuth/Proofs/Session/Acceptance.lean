import WalletAuth.Proofs.Session.Service

/-! What the reader of session tokens accepts. A token opens under a secret only if it consists of
three segments, the first names the one algorithm and the last is the authentication code of the
other two; the code has a single spelling, so nothing about an accepted token can be varied but the
two segments that the code covers. -/

namespace WalletAuth

open Json (Value)

/-! ### The algorithm -/

namespace TokenHeader

/-- The algorithm that the first segment of a token names, in its only field for it. -/
def algorithm? (segment : Bytes) : Option String := do
  let fields ← SessionClaims.parseFields? (← Base64Url.decodeBare? segment)
  chosen? (← SessionClaims.onlyField? "alg" fields)

theorem fieldOk_alg (value : Value) : fieldOk "alg" value = (chosen? value == some algorithm) := by
  simp [fieldOk, textFields, textListFields]

theorem chosen?_of_accepts {fields : List (String × Value)} (h : accepts (.object fields) = true) :
    (SessionClaims.onlyField? "alg" fields).bind chosen? = some algorithm := by
  simp only [accepts, Bool.and_eq_true, List.any_eq_true, List.all_eq_true] at h
  obtain ⟨⟨⟨field, hfield, hname⟩, honce⟩, hok⟩ := h
  have hmem : field ∈ fields.filter fun field => field.1 == "alg" :=
    List.mem_filter.mpr ⟨hfield, hname⟩
  have hlength : (fields.filter fun field => field.1 == "alg").length ≤ 1 :=
    of_decide_eq_true (List.all_eq_true.mp honce "alg" List.mem_cons_self)
  have honly : fields.filter (fun field => field.1 == "alg") = [field] := by
    cases hfilter : fields.filter fun field => field.1 == "alg" with
    | nil => simp [hfilter] at hmem
    | cons first others =>
        rw [hfilter] at hmem hlength
        obtain rfl : others = [] := by simpa using hlength
        rw [List.mem_singleton.mp hmem]
  obtain ⟨name, value⟩ := field
  obtain rfl : name = "alg" := by simpa using hname
  have hvalue := hok ("alg", value) hfield
  rw [fieldOk_alg, beq_iff_eq] at hvalue
  rw [SessionClaims.onlyField?, honly, Option.bind_some, hvalue]

theorem algorithm?_of_accepts {segment : Bytes} {value : Value}
    (hvalue : (Base64Url.decodeBare? segment).bind Json.parse? = some value)
    (h : accepts value = true) : algorithm? segment = some algorithm := by
  obtain ⟨bytes, hbytes, hparse⟩ := Option.bind_eq_some_iff.mp hvalue
  cases value with
  | object fields =>
      have hfields : SessionClaims.parseFields? bytes = some fields := by
        rw [SessionClaims.parseFields?, hparse]
      simp only [algorithm?, hbytes, hfields, Option.bind_eq_bind, Option.bind_some]
      exact chosen?_of_accepts h
  | _ => exact absurd h Bool.false_ne_true

end TokenHeader

namespace SessionToken

variable {secret token : Bytes} {content : Content}

/-! ### Segments -/

theorem splitLast?_eq_some_iff {text front back : Bytes} :
    splitLast? text = some (front, back) ↔
      text = front ++ point :: back ∧ ∀ char ∈ back, char ≠ point := by
  constructor
  · intro h
    have htext : text.reverse.takeWhile (· ≠ point) ++ text.reverse.dropWhile (· ≠ point) =
        text.reverse := List.takeWhile_append_dropWhile
    have hnone : ∀ char ∈ text.reverse.takeWhile (· ≠ point), char ≠ point :=
      fun char hchar => of_decide_eq_true (List.all_eq_true.mp List.all_takeWhile char hchar)
    have hhead := List.head?_dropWhile_not (fun char => decide (char ≠ point)) text.reverse
    simp only [splitLast?] at h
    generalize text.reverse.takeWhile (· ≠ point) = run at htext hnone h
    cases hdrop : text.reverse.dropWhile (· ≠ point) with
    | nil =>
        rw [hdrop] at h
        exact absurd h (by simp)
    | cons mark rest =>
        rw [hdrop] at htext hhead h
        obtain ⟨rfl, rfl⟩ := Prod.mk.inj (Option.some.inj h)
        obtain rfl : mark = point := by simpa using hhead
        refine ⟨?_, fun char hchar => hnone char (List.mem_reverse.mp hchar)⟩
        calc text = (run ++ point :: rest).reverse := by rw [htext, List.reverse_reverse]
          _ = rest.reverse ++ point :: run.reverse := by simp
  · rintro ⟨rfl, hback⟩
    exact splitLast?_append hback

section Segment

variable {segment bs : Bytes}

theorem isSymbol_of_decodeBare? (h : Base64Url.decodeBare? segment = some bs) :
    ∀ char ∈ segment, Base64Url.isSymbol char = true := by
  rw [Base64Url.decodeBare?_eq_some_iff.mp h]
  exact fun _ => Base64Url.isSymbol_of_mem_encodeBare

theorem ne_point_of_decodeBare? (h : Base64Url.decodeBare? segment = some bs) :
    ∀ char ∈ segment, char ≠ point :=
  fun char hchar => (Base64Url.bounds_of_isSymbol char (isSymbol_of_decodeBare? h char hchar)).right.right

end Segment

/-- A text together with its authentication code. -/
def sealed (secret signed : Bytes) : Bytes :=
  signed ++ point :: Base64Url.encodeBare (Hmac.code secret signed)

/-- What the first two segments of a token have to hold for the token to open to a content. -/
structure Opens (header payload : Bytes) (content : Content) : Prop where
  header : ∃ value, (Base64Url.decodeBare? header).bind Json.parse? = some value ∧
    TokenHeader.accepts value = true
  payload : ∃ fields, (Base64Url.decodeBare? payload).bind SessionClaims.parseFields? = some fields ∧
    SessionClaims.ofFields? fields = some content.claims ∧ registeredReadable fields = true ∧
      namesAudience fields = content.hasAudience
  expiry : 0 ≤ content.claims.expiresAt.toInt

/-- A token opens exactly if it is sealed under the secret and both its other segments are in
order. -/
theorem open?_eq_some_iff :
    open? secret token = some content ↔
      ∃ header payload, token = sealed secret (header ++ point :: payload) ∧
        Opens header payload content := by
  constructor
  · intro h
    simp only [open?, Option.bind_eq_bind, Option.bind_eq_some_iff, Prod.exists,
      Option.guard_eq_some', exists_const, Option.pure_def, Option.some.injEq] at h
    obtain ⟨signed, code, htoken, header, payload, hsigned, value, ⟨bytes, hbytes, hvalue⟩, haccepts,
      found, hfound, hcode, fields, ⟨spelled, hspelled, hfields⟩, claims, hclaims,
      ⟨hexpiry, hreadable⟩, rfl⟩ := h
    obtain ⟨rfl, -⟩ := splitLast?_eq_some_iff.mp htoken
    obtain ⟨rfl, -⟩ := splitLast?_eq_some_iff.mp hsigned
    refine ⟨header, payload, ?_, ⟨value, ?_, haccepts⟩, ⟨fields, ?_, hclaims, hreadable, rfl⟩, hexpiry⟩
    · rw [sealed, ← hcode, ← Base64Url.decodeBare?_eq_some_iff.mp hfound]
    · rw [hbytes, Option.bind_some, hvalue]
    · rw [hspelled, Option.bind_some, hfields]
  · rintro ⟨header, payload, rfl, ⟨value, hvalue, haccepts⟩,
      ⟨fields, hfields, hclaims, hreadable, haudience⟩, hexpiry⟩
    obtain ⟨spelled, hspelled, -⟩ := Option.bind_eq_some_iff.mp hfields
    have hpayload : splitLast? (header ++ point :: payload) = some (header, payload) :=
      splitLast?_append (ne_point_of_decodeBare? hspelled)
    simp only [open?, sealed, splitLast?_encodeBare, hpayload, Base64Url.decodeBare?_encodeBare,
      hvalue, haccepts, hfields, hclaims, hexpiry, hreadable, haudience, Option.bind_eq_bind,
      Option.bind_some, guard, and_self, if_true]
    rfl

theorem Opens.parse? {header payload : Bytes} (h : Opens header payload content) :
    (Base64Url.decodeBare? payload).bind SessionClaims.parse? = some content.claims := by
  obtain ⟨fields, hfields, hclaims, -, -⟩ := h.payload
  obtain ⟨spelled, hspelled, hparse⟩ := Option.bind_eq_some_iff.mp hfields
  rw [hspelled, Option.bind_some, SessionClaims.parse?, hparse, Option.bind_some, hclaims]

/-- A sealed text of two segments comes apart at its two points. -/
theorem splitOn_sealed {header payload : Bytes} (hheader : ∀ char ∈ header, char ≠ point)
    (hpayload : ∀ char ∈ payload, char ≠ point) (secret : Bytes) :
    (sealed secret (header ++ point :: payload)).splitOn point =
      [header, payload, Base64Url.encodeBare (Hmac.code secret (header ++ point :: payload))] := by
  have hjoin : sealed secret (header ++ point :: payload) = [point].intercalate
      [header, payload, Base64Url.encodeBare (Hmac.code secret (header ++ point :: payload))] := by
    simp [sealed, List.intercalate]
  rw [hjoin]
  apply List.splitOn_intercalate
  · intro segment hsegment hpoint
    simp only [List.mem_cons, List.not_mem_nil, or_false] at hsegment
    rcases hsegment with rfl | rfl | rfl
    · exact hheader point hpoint rfl
    · exact hpayload point hpoint rfl
    · exact ne_point_of_mem_encodeBare hpoint rfl
  · exact List.cons_ne_nil _ _

theorem Opens.splitOn_sealed {header payload : Bytes} (h : Opens header payload content)
    (secret : Bytes) :
    (sealed secret (header ++ point :: payload)).splitOn point =
      [header, payload, Base64Url.encodeBare (Hmac.code secret (header ++ point :: payload))] := by
  obtain ⟨value, hvalue, -⟩ := h.header
  obtain ⟨headerBytes, hheader, -⟩ := Option.bind_eq_some_iff.mp hvalue
  obtain ⟨payloadBytes, hpayload, -⟩ := Option.bind_eq_some_iff.mp h.parse?
  exact SessionToken.splitOn_sealed (ne_point_of_decodeBare? hheader)
    (ne_point_of_decodeBare? hpayload) secret

/-- The characters of a token: it has a point, but not at the start, and symbols apart from that. -/
structure IsPointed (token : Bytes) : Prop where
  point_mem : point ∈ token
  head_ne : token.head? ≠ some point
  isSymbol : ∀ char ∈ token, char = point ∨ Base64Url.isSymbol char = true

theorem isPointed_sealed {header payload : Bytes} (hne : header ≠ [])
    (hheader : ∀ char ∈ header, Base64Url.isSymbol char = true)
    (hpayload : ∀ char ∈ payload, Base64Url.isSymbol char = true) (secret : Bytes) :
    IsPointed (sealed secret (header ++ point :: payload)) := by
  constructor
  case point_mem => simp [sealed]
  case head_ne =>
    obtain ⟨char, chars, rfl⟩ := List.exists_cons_of_ne_nil hne
    intro hhead
    obtain ⟨-, -, hchar⟩ := Base64Url.bounds_of_isSymbol char (hheader char List.mem_cons_self)
    exact hchar (Option.some.inj hhead)
  case isSymbol =>
    intro char hchar
    simp only [sealed, List.mem_append, List.mem_cons] at hchar
    rcases hchar with (hchar | rfl | hchar) | rfl | hchar
    · exact Or.inr (hheader char hchar)
    · exact Or.inl rfl
    · exact Or.inr (hpayload char hchar)
    · exact Or.inl rfl
    · exact Or.inr (Base64Url.isSymbol_of_mem_encodeBare hchar)

theorem isPointed_of_open? (h : open? secret token = some content) : IsPointed token := by
  obtain ⟨header, payload, rfl, hopens⟩ := open?_eq_some_iff.mp h
  obtain ⟨value, hvalue, -⟩ := hopens.header
  obtain ⟨headerBytes, hheader, hparse⟩ := Option.bind_eq_some_iff.mp hvalue
  obtain ⟨payloadBytes, hpayload, -⟩ := Option.bind_eq_some_iff.mp hopens.parse?
  refine isPointed_sealed ?_ (isSymbol_of_decodeBare? hheader) (isSymbol_of_decodeBare? hpayload)
    secret
  rintro rfl
  obtain rfl : [] = headerBytes := Option.some.inj hheader
  exact absurd (Json.parse?_nil.symm.trans hparse) (by simp)

theorem isPointed_encode (secret : Bytes) (claims : SessionClaims) :
    IsPointed (encode secret claims) :=
  isPointed_sealed (by decide) (fun _ => Base64Url.isSymbol_of_mem_encodeBare)
    (fun _ => Base64Url.isSymbol_of_mem_encodeBare) secret

theorem bounds_of_point_or_isSymbol {char : UInt8}
    (h : char = point ∨ Base64Url.isSymbol char = true) : 32 < char ∧ char < 127 := by
  rcases h with rfl | hsymbol
  · decide
  · obtain ⟨hlower, hupper, -⟩ := Base64Url.bounds_of_isSymbol char hsymbol
    exact ⟨hlower, hupper⟩

theorem IsPointed.bounds (h : IsPointed token) : ∀ char ∈ token, 32 < char ∧ char < 127 :=
  fun char hchar => bounds_of_point_or_isSymbol (h.isSymbol char hchar)

theorem IsPointed.lt (h : IsPointed token) : ∀ char ∈ token, char < 128 :=
  fun char hchar => UInt8.lt_trans (h.bounds char hchar).right (by decide)

/-! ### Time -/

theorem decode_eq_ok_iff {claims : SessionClaims} {now : Int64} :
    decode secret token now = .ok claims ↔
      open? secret token = some ⟨claims, false⟩ ∧
        now.toInt ≤ claims.expiresAt.toInt + leeway := by
  rw [decode]
  cases open? secret token with
  | none => simp
  | some found =>
      obtain ⟨found, hasAudience⟩ := found
      by_cases hlate : found.expiresAt.toInt + leeway < now.toInt
      · simp only [if_pos hlate, Option.some.injEq, Content.mk.injEq]
        refine iff_of_false (by simp) ?_
        rintro ⟨⟨rfl, -⟩, hnow⟩
        exact absurd hnow (not_le.mpr hlate)
      · cases hasAudience with
        | true => simp [hlate]
        | false =>
            simp only [if_neg hlate, Bool.false_eq_true, if_false, Except.ok.injEq,
              Option.some.injEq, Content.mk.injEq, and_true]
            constructor
            · rintro rfl
              exact ⟨rfl, not_lt.mp hlate⟩
            · exact fun h => h.left

end SessionToken

/-! ### Services -/

namespace SessionService

open SessionToken (point sealed)

variable {service : SessionService} {key : SessionKey} {token : String} {now : Int64}
  {claims : SessionClaims}

theorem verify_of_key (hkey : service.key = some key) (token : String) (now : Int64) :
    service.verify token now = SessionToken.decode key.bytes (Bytes.ofString token) now := by
  rw [verify, hkey]

theorem verify_eq_ok_iff :
    service.verify token now = .ok claims ↔
      ∃ key, service.key = some key ∧
        SessionToken.open? key.bytes (Bytes.ofString token) = some ⟨claims, false⟩ ∧
          now.toInt ≤ claims.expiresAt.toInt + SessionToken.leeway := by
  cases hkey : service.key with
  | none => simp [verify, hkey]
  | some key => simp [verify_of_key hkey, SessionToken.decode_eq_ok_iff]

/-- A token for an identity alone is always issued, and it is good until it expires. -/
theorem exists_issue {identifier : String} {issued : Int64} (hkey : service.key = some key)
    (hlifetime : (service.lifetime : Int) ≤ lastTime) (hidentifier : identifier ≠ "")
    (hissued : 0 ≤ issued.toInt) :
    ∃ token, service.issue identifier [] issued = .ok token ∧
      SessionToken.IsPointed (Bytes.ofString token) ∧
      ∀ now, service.verify token now =
        if (service.expiry issued).toInt + SessionToken.leeway < now.toInt then .error .expired
        else .ok (service.claimsFor identifier [] issued) := by
  refine ⟨_, issue_eq hkey hlifetime hidentifier, ?_,
    verify_claimsFor_nil hkey hissued identifier⟩
  rw [Bytes.ofString_toAscii fun _ hchar => SessionToken.lt_of_mem_encode hchar]
  exact SessionToken.isPointed_encode _ _

/-- Whatever a service accepts is sealed under its key with the one algorithm and holds the claims
that are returned, not expired; under any other algorithm or with any other code it is invalid. -/
theorem verify_sealed (hkey : service.key = some key) (token : String) (now : Int64) :
    (∀ claims, service.verify token now = .ok claims → ∃ header payload,
      (Bytes.ofString token).splitOn point = [header, payload,
        Base64Url.encodeBare (Hmac.code key.bytes (header ++ point :: payload))] ∧
      TokenHeader.algorithm? header = some "HS256" ∧
      (Base64Url.decodeBare? payload).bind SessionClaims.parse? = some claims ∧
      0 ≤ claims.expiresAt.toInt ∧ now.toInt ≤ claims.expiresAt.toInt + 60) ∧
    (∀ header payload code, (Bytes.ofString token).splitOn point = [header, payload, code] →
      TokenHeader.algorithm? header ≠ some "HS256" ∨
        code ≠ Base64Url.encodeBare (Hmac.code key.bytes (header ++ point :: payload)) →
      service.verify token now = .error .invalid) := by
  rw [verify_of_key hkey]
  constructor
  · intro claims hdecode
    obtain ⟨hopen, hnow⟩ := SessionToken.decode_eq_ok_iff.mp hdecode
    obtain ⟨header, payload, htoken, hopens⟩ := SessionToken.open?_eq_some_iff.mp hopen
    obtain ⟨value, hvalue, haccepts⟩ := hopens.header
    refine ⟨header, payload, ?_, ?_, hopens.parse?, hopens.expiry, hnow⟩
    · rw [htoken, hopens.splitOn_sealed]
    · exact TokenHeader.algorithm?_of_accepts hvalue haccepts
  · intro header payload code hsplit hbad
    rw [SessionToken.decode]
    cases hopen : SessionToken.open? key.bytes (Bytes.ofString token) with
    | none => rfl
    | some content =>
        obtain ⟨header', payload', htoken, hopens⟩ := SessionToken.open?_eq_some_iff.mp hopen
        obtain ⟨value, hvalue, haccepts⟩ := hopens.header
        rw [htoken, hopens.splitOn_sealed] at hsplit
        simp only [List.cons.injEq, and_true] at hsplit
        obtain ⟨rfl, rfl, rfl⟩ := hsplit
        rcases hbad with halgorithm | hcode
        · exact absurd (TokenHeader.algorithm?_of_accepts hvalue haccepts) halgorithm
        · exact absurd rfl hcode

theorem verify_sealed_issued :
    ∃ token claims header payload,
      (⟨some ⟨[107], by decide⟩, 604800⟩ : SessionService).verify token 1000 = .ok claims ∧
      (Bytes.ofString token).splitOn point = [header, payload,
        Base64Url.encodeBare (Hmac.code [107] (header ++ point :: payload))] ∧
      TokenHeader.algorithm? header = some "HS256" ∧
      (⟨some ⟨[107], by decide⟩, 604800⟩ : SessionService).verify ".." 1000 = .error .invalid := by
  have hverify := @verify_claimsFor_nil ⟨some ⟨[107], by decide⟩, 604800⟩ ⟨[107], by decide⟩ 1000 rfl
    (by decide) "a" 1000
  rw [if_neg (by decide)] at hverify
  obtain ⟨hsealed, -⟩ :=
    @verify_sealed ⟨some ⟨[107], by decide⟩, 604800⟩ ⟨[107], by decide⟩ rfl _ 1000
  obtain ⟨header, payload, hsegments, halgorithm, -⟩ := hsealed _ hverify
  obtain ⟨-, hrefused⟩ :=
    @verify_sealed ⟨some ⟨[107], by decide⟩, 604800⟩ ⟨[107], by decide⟩ rfl ".." 1000
  exact ⟨_, _, header, payload, hverify, hsegments, halgorithm,
    hrefused [] [] [] (by decide) (Or.inl (by decide))⟩

end SessionService

end WalletAuth
