import WalletAuth.Proofs.Claims.Session
import WalletAuth.Proofs.Encoding.Base64Url
import WalletAuth.Session.Token

/-! What a token holds is what it was made of. Its parts have no point in them, so it comes apart
where it was put together; and of the claims that were asked for, the reader refuses exactly those
under a registered name whose value that name does not allow. -/

namespace WalletAuth.SessionToken

open ClaimValue (toJsonEntries)
open Json (Value)

/-! ### Parts -/

theorem ne_point_of_mem_encodeBare {bs : Bytes} {char : UInt8} (h : char ∈ Base64Url.encodeBare bs) :
    char ≠ point :=
  (Base64Url.bounds_of_isSymbol char (Base64Url.isSymbol_of_mem_encodeBare h)).right.right

theorem splitLast?_append {front back : Bytes} (h : ∀ char ∈ back, char ≠ point) :
    splitLast? (front ++ point :: back) = some (front, back) := by
  have hback : ∀ char ∈ back.reverse, decide (char ≠ point) = true :=
    fun char hchar => decide_eq_true (h char (List.mem_reverse.mp hchar))
  have hbackwards : (front ++ point :: back).reverse = back.reverse ++ point :: front.reverse := by
    simp
  have hdrop : (point :: front.reverse).dropWhile (· ≠ point) = point :: front.reverse :=
    List.dropWhile_cons_of_neg (by simp)
  have htake : (point :: front.reverse).takeWhile (· ≠ point) = [] :=
    List.takeWhile_cons_of_neg (by simp)
  simp only [splitLast?, hbackwards, List.dropWhile_append_of_pos hback,
    List.takeWhile_append_of_pos hback, hdrop, htake, List.append_nil, List.reverse_reverse]

theorem splitLast?_encodeBare (front bs : Bytes) :
    splitLast? (front ++ point :: Base64Url.encodeBare bs) = some (front, Base64Url.encodeBare bs) :=
  splitLast?_append fun _ => ne_point_of_mem_encodeBare

theorem lt_of_mem_encode {secret : Bytes} {claims : SessionClaims} {char : UInt8}
    (h : char ∈ encode secret claims) : char < 128 := by
  simp only [encode, List.mem_append, List.mem_cons] at h
  rcases h with (h | rfl | h) | rfl | h
  · exact Base64Url.lt_of_mem_encodeBare h
  · decide
  · exact Base64Url.lt_of_mem_encodeBare h
  · decide
  · exact Base64Url.lt_of_mem_encodeBare h

/-! ### The header -/

theorem within_issued : TokenHeader.issued.Within Json.maxDepth := by
  show (Value.object _).Within (126 + 1)
  apply Value.Within.object
  intro field hfield
  simp only [List.mem_cons, List.not_mem_nil, or_false] at hfield
  rcases hfield with rfl | rfl
  · exact .text "JWT"
  · exact .text TokenHeader.algorithm

theorem accepts_issued : TokenHeader.accepts TokenHeader.issued = true := by decide

/-! ### Opening -/

/-- A token opens to its claims, provided that the registered ones among them can be read. -/
theorem open?_encode {claims : SessionClaims} (h : claims.Readable)
    (hexpiry : 0 ≤ claims.expiresAt.toInt) (secret : Bytes) :
    open? secret (encode secret claims) =
      if registeredReadable claims.fields then some ⟨claims, namesAudience claims.fields⟩
      else none := by
  have hheader := Json.parse?_print within_issued
  have hfields := SessionClaims.parseFields?_print h
  simp only [open?, encode, splitLast?_encodeBare, Base64Url.decodeBare?_encodeBare, hheader,
    hfields, Option.bind_eq_bind, Option.bind_some]
  by_cases hreadable : registeredReadable claims.fields = true <;>
    simp [guard, accepts_issued, SessionClaims.ofFields?_fields h, hexpiry, hreadable, failure]

/-! ### Registered claims -/

/-- Claims that the reader refuses to pass on: an audience that it takes for somebody else, a subject
that is no plain value, and a start that is neither empty nor a plain value. -/
inductive IsRefused : String × ClaimValue → Prop
  | audience (value : String) : IsRefused ("aud", .text value)
  | audiences {items : List ClaimValue} (h : ∀ item ∈ items, ∃ value, item = .text value) :
      IsRefused ("aud", .list items)
  | subjectList (items : List ClaimValue) : IsRefused ("sub", .list items)
  | subjectMap (entries : ClaimMap) : IsRefused ("sub", .map entries)
  | startList (item : ClaimValue) (items : List ClaimValue) :
      IsRefused ("nbf", .list (item :: items))
  | startMap (entry : String × ClaimValue) (entries : ClaimMap) :
      IsRefused ("nbf", .map (entry :: entries))

/-- Whether one registered claim can be read. -/
def isReadable (field : String × Value) : Bool :=
  match field.2 with
  | .list items => !(field.1 == "sub" || (field.1 == "nbf" && !items.isEmpty))
  | .object entries => !(field.1 == "sub" || (field.1 == "nbf" && !entries.isEmpty))
  | _ => true

/-- Whether one claim names an audience. -/
def isAudience (field : String × Value) : Bool :=
  field.1 == "aud" &&
    match field.2 with
    | .text _ => true
    | .list items => items.all TokenHeader.isText
    | _ => false

theorem registeredReadable_eq (fields : List (String × Value)) :
    registeredReadable fields =
      (TokenHeader.namesOnce registeredNames fields && fields.all isReadable) := rfl

theorem namesAudience_eq (fields : List (String × Value)) :
    namesAudience fields = fields.any isAudience := rfl

theorem namesOnce_of_nodup {names : List String} {fields : List (String × Value)}
    (h : (fields.map Prod.fst).Nodup) : TokenHeader.namesOnce names fields = true := by
  rw [TokenHeader.namesOnce, List.all_eq_true]
  intro name _
  have hcount : (fields.filter fun field => field.1 == name).length =
      (fields.map Prod.fst).count name := by
    rw [← List.countP_eq_length_filter, List.count, List.countP_map]
    rfl
  rw [hcount]
  exact decide_eq_true (List.nodup_iff_count.mp h name)

theorem isText_toJson {value : ClaimValue} :
    TokenHeader.isText value.toJson = true ↔ ∃ text, value = .text text := by
  cases value <;> simp [ClaimValue.toJson, TokenHeader.isText, Value.ofInt]

theorem isAudience_list (name : String) (items : List ClaimValue) :
    isAudience (name, ClaimValue.toJson (.list items)) = true ↔
      name = "aud" ∧ ∀ item ∈ items, ∃ text, item = .text text := by
  rw [ClaimValue.toJson, ClaimValue.toJsonItems_eq_map]
  simp [isAudience, isText_toJson]

theorem isReadable_list (name : String) (items : List ClaimValue) :
    isReadable (name, ClaimValue.toJson (.list items)) = false ↔
      name = "sub" ∨ name = "nbf" ∧ items ≠ [] := by
  rw [ClaimValue.toJson, ClaimValue.toJsonItems_eq_map]
  simp [isReadable, ← or_iff_not_imp_left]

theorem isReadable_map (name : String) (entries : ClaimMap) :
    isReadable (name, ClaimValue.toJson (.map entries)) = false ↔
      name = "sub" ∨ name = "nbf" ∧ entries ≠ [] := by
  rw [ClaimValue.toJson, ClaimValue.toJsonEntries_eq_map]
  simp [isReadable, ← or_iff_not_imp_left]

theorem isRefused_iff (name : String) (value : ClaimValue) :
    IsRefused (name, value) ↔
      isReadable (name, value.toJson) = false ∨ isAudience (name, value.toJson) = true := by
  constructor
  · intro h
    cases h with
    | audience value => exact Or.inr rfl
    | audiences h => exact Or.inr ((isAudience_list _ _).mpr ⟨rfl, h⟩)
    | subjectList items => exact Or.inl ((isReadable_list _ _).mpr (Or.inl rfl))
    | subjectMap entries => exact Or.inl ((isReadable_map _ _).mpr (Or.inl rfl))
    | startList item items =>
        exact Or.inl ((isReadable_list _ _).mpr (Or.inr ⟨rfl, List.cons_ne_nil item items⟩))
    | startMap entry entries =>
        exact Or.inl ((isReadable_map _ _).mpr (Or.inr ⟨rfl, List.cons_ne_nil entry entries⟩))
  · intro h
    cases value with
    | null => simp [ClaimValue.toJson, isReadable, isAudience] at h
    | bool value => simp [ClaimValue.toJson, isReadable, isAudience] at h
    | integer value => simp [ClaimValue.toJson, Value.ofInt, isReadable, isAudience] at h
    | float value => simp [ClaimValue.toJson, isReadable, isAudience] at h
    | text value =>
        obtain rfl : name = "aud" := by simpa [ClaimValue.toJson, isReadable, isAudience] using h
        exact .audience value
    | list items =>
        rw [isReadable_list, isAudience_list] at h
        rcases h with (rfl | ⟨rfl, hitems⟩) | ⟨rfl, htexts⟩
        · exact .subjectList items
        · obtain ⟨item, items, rfl⟩ := List.exists_cons_of_ne_nil hitems
          exact .startList item items
        · exact .audiences htexts
    | map entries =>
        have haudience : isAudience (name, ClaimValue.toJson (.map entries)) = false :=
          Bool.and_false _
        rw [isReadable_map, haudience] at h
        rcases h with (rfl | ⟨rfl, hentries⟩) | habsurd
        · exact .subjectMap entries
        · obtain ⟨entry, entries, rfl⟩ := List.exists_cons_of_ne_nil hentries
          exact .startMap entry entries
        · exact absurd habsurd Bool.false_ne_true

section Registered

variable {claims : SessionClaims}

theorem nodup_fields (h : claims.Readable) : (claims.fields.map Prod.fst).Nodup := by
  have hnames : claims.fields.map Prod.fst =
      SessionClaims.reservedNames ++ claims.extra.map Prod.fst := by
    rw [SessionClaims.fields, ClaimValue.toJsonEntries_eq_map, List.map_append, List.map_map]
    rfl
  rw [hnames, List.nodup_append]
  refine ⟨by decide, h.ascending.nodup, ?_⟩
  rintro name hreserved other hother rfl
  obtain ⟨entry, hentry, rfl⟩ := List.mem_map.mp hother
  exact h.unreserved entry hentry hreserved

/-- The fields that the service itself sets can be read and name no audience. -/
theorem registered_reserved (claims : SessionClaims) :
    ∀ field ∈ [("pubkey", Value.text claims.pubkey), ("iat", .ofInt claims.issuedAt.toInt),
      ("exp", .ofInt claims.expiresAt.toInt)], isReadable field = true ∧ isAudience field = false := by
  simp [isReadable, isAudience, Value.ofInt]

/-- Nothing but the claims that were asked for decides whether a token is passed on. -/
theorem registered_iff (h : claims.Readable) :
    (registeredReadable claims.fields = true ∧ namesAudience claims.fields = false) ↔
      ∀ entry ∈ claims.extra, ¬IsRefused entry := by
  rw [registeredReadable_eq, namesOnce_of_nodup (nodup_fields h), Bool.true_and, namesAudience_eq,
    List.all_eq_true, List.any_eq_false]
  constructor
  · rintro ⟨hreadable, haudience⟩ ⟨name, value⟩ hentry hrefused
    have hfield : (name, value.toJson) ∈ claims.fields :=
      SessionClaims.mem_fields_iff.mpr (Or.inr ⟨(name, value), hentry, rfl⟩)
    rcases (isRefused_iff name value).mp hrefused with hbad | hbad
    · exact absurd (hreadable _ hfield) (by simp [hbad])
    · exact haudience _ hfield hbad
  · intro hextra
    have hall : ∀ field ∈ claims.fields, isReadable field = true ∧ isAudience field = false := by
      intro field hfield
      rcases SessionClaims.mem_fields_iff.mp hfield with hreserved | ⟨⟨name, value⟩, hentry, rfl⟩
      · exact registered_reserved claims field hreserved
      · have hfine := hextra (name, value) hentry
        rw [isRefused_iff, not_or] at hfine
        simpa using hfine
    constructor
    · intro field hfield
      exact (hall field hfield).left
    · intro field hfield
      rw [(hall field hfield).right]
      exact Bool.false_ne_true

/-- A token with no claim that is refused opens to the claims it was made of. -/
theorem open?_encode_of_not_refused (h : claims.Readable) (hexpiry : 0 ≤ claims.expiresAt.toInt)
    (hextra : ∀ entry ∈ claims.extra, ¬IsRefused entry) (secret : Bytes) :
    open? secret (encode secret claims) = some ⟨claims, false⟩ := by
  obtain ⟨hreadable, haudience⟩ := (registered_iff h).mpr hextra
  rw [open?_encode h hexpiry, if_pos hreadable, haudience]

theorem decode_of_open? {secret token : Bytes} (h : open? secret token = some ⟨claims, false⟩)
    (now : Int64) :
    decode secret token now =
      if claims.expiresAt.toInt + leeway < now.toInt then .error .expired else .ok claims := by
  rw [decode, h]
  rfl

/-- A token that has not expired is passed on, unless one of its claims is refused. -/
theorem decode_encode (h : claims.Readable) (hexpiry : 0 ≤ claims.expiresAt.toInt) {now : Int64}
    (hnow : now.toInt ≤ claims.expiresAt.toInt + leeway) (secret : Bytes) :
    ((∀ entry ∈ claims.extra, ¬IsRefused entry) →
        decode secret (encode secret claims) now = .ok claims) ∧
      ((∃ entry ∈ claims.extra, IsRefused entry) →
        decode secret (encode secret claims) now = .error .invalid) := by
  have hopen := open?_encode h hexpiry secret
  have hiff := registered_iff h
  constructor
  · intro hextra
    rw [decode_of_open? (open?_encode_of_not_refused h hexpiry hextra secret),
      if_neg (not_lt.mpr hnow)]
  · rintro ⟨entry, hentry, hrefused⟩
    rw [decode, hopen]
    by_cases hreadable : registeredReadable claims.fields = true
    · have haudience : namesAudience claims.fields = true := by
        by_contra hnone
        exact hiff.mp ⟨hreadable, Bool.eq_false_of_not_eq_true hnone⟩ entry hentry hrefused
      rw [if_pos hreadable]
      simp only [haudience, if_neg (not_lt.mpr hnow)]
      rfl
    · rw [if_neg hreadable]

end Registered

end WalletAuth.SessionToken
