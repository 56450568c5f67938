import WalletAuth.Claims.Session
import WalletAuth.Proofs.Claims.Value

/-! Claims read back from their JSON text. The reserved names are found once each, since no other
claim has one of them, and the other claims are left in their order. -/

namespace WalletAuth

open ClaimValue (ofJson toJsonEntries)

/-- The value of an integer claim reads back. -/
theorem ClaimValue.ofJson_ofInt (value : Int64) : ofJson (.ofInt value.toInt) = .integer value :=
  (Plain.integer value : Plain 0 (.integer value)).ofJson_toJson

namespace SessionClaims

/-- How deep the values beside the identity may nest: the claims themselves are an object. -/
def maxExtraDepth : Nat := Json.maxDepth - 1

/-- Claims that are read back: the others are ordered, without fractions, not too deep, and none
has a reserved name. -/
structure Readable (claims : SessionClaims) : Prop where
  ascending : ClaimMap.Ascending claims.extra
  plain : ∀ entry ∈ claims.extra, entry.2.Plain maxExtraDepth
  unreserved : ∀ entry ∈ claims.extra, entry.1 ∉ reservedNames

variable {claims : SessionClaims}

theorem mem_fields_iff {field : String × Json.Value} :
    field ∈ claims.fields ↔
      field ∈ [("pubkey", .text claims.pubkey), ("iat", .ofInt claims.issuedAt.toInt),
        ("exp", .ofInt claims.expiresAt.toInt)] ∨
      ∃ entry ∈ claims.extra, (entry.1, entry.2.toJson) = field := by
  rw [fields, ClaimValue.toJsonEntries_eq_map, List.mem_append, List.mem_map]

theorem within_fields_of_plain {depth : Nat} (h : ∀ entry ∈ claims.extra, entry.2.Plain depth) :
    (Json.Value.object claims.fields).Within (depth + 1) := by
  have htime (time : Int64) : (Json.Value.ofInt time.toInt).Within depth :=
    (ClaimValue.Plain.integer time).within_toJson
  apply Json.Value.Within.object
  intro field hfield
  rcases mem_fields_iff.mp hfield with hreserved | ⟨entry, hentry, rfl⟩
  · simp only [List.mem_cons, List.not_mem_nil, or_false] at hreserved
    rcases hreserved with rfl | rfl | rfl
    · exact .text claims.pubkey
    · exact htime claims.issuedAt
    · exact htime claims.expiresAt
  · exact (h entry hentry).within_toJson

theorem within_fields (h : claims.Readable) : (Json.Value.object claims.fields).Within Json.maxDepth :=
  within_fields_of_plain h.plain

theorem parseFields?_print (h : claims.Readable) : parseFields? claims.print = some claims.fields := by
  rw [parseFields?, print, Json.parse?_print (within_fields h)]

theorem filter_toJsonEntries {entries : ClaimMap} {name : String}
    (h : ∀ entry ∈ entries, entry.1 ≠ name) :
    ((toJsonEntries entries).filter fun field => field.1 == name) = [] := by
  rw [ClaimValue.toJsonEntries_eq_map, List.filter_eq_nil_iff]
  intro field hfield
  obtain ⟨entry, hentry, rfl⟩ := List.mem_map.mp hfield
  simpa using h entry hentry

theorem filter_fields (h : claims.Readable) {name : String} (hname : name ∈ reservedNames) :
    (claims.fields.filter fun field => field.1 == name) =
      [("pubkey", .text claims.pubkey), ("iat", .ofInt claims.issuedAt.toInt),
        ("exp", .ofInt claims.expiresAt.toInt)].filter fun field => field.1 == name := by
  rw [fields, List.filter_append, filter_toJsonEntries, List.append_nil]
  rintro entry hentry rfl
  exact h.unreserved entry hentry hname

theorem onlyText?_pubkey (h : claims.Readable) :
    onlyText? "pubkey" claims.fields = some claims.pubkey := by
  rw [onlyText?, onlyField?, filter_fields h (by decide)]
  rfl

theorem onlyTime?_iat (h : claims.Readable) :
    onlyTime? "iat" claims.fields = some claims.issuedAt := by
  rw [onlyTime?, onlyField?, filter_fields h (by decide)]
  simp [ClaimValue.ofJson_ofInt]

theorem onlyTime?_exp (h : claims.Readable) :
    onlyTime? "exp" claims.fields = some claims.expiresAt := by
  rw [onlyTime?, onlyField?, filter_fields h (by decide)]
  simp [ClaimValue.ofJson_ofInt]

theorem without_of_unreserved {entries : ClaimMap} (h : ∀ entry ∈ entries, entry.1 ∉ reservedNames) :
    ClaimMap.without reservedNames entries = entries := by
  rw [ClaimMap.without, List.filter_eq_self]
  intro entry hentry
  simpa using h entry hentry

theorem ofFields?_fields (h : claims.Readable) : ofFields? claims.fields = some claims := by
  have hextra : ClaimValue.ofJsonFields (toJsonEntries claims.extra) = claims.extra :=
    ClaimValue.ofJsonFields_toJsonEntries fun entry hentry => (h.plain entry hentry).ofJson_toJson
  have hothers : ClaimMap.without reservedNames (ClaimValue.ofJsonFields claims.fields) =
      claims.extra := by
    rw [fields]
    simp only [List.cons_append, List.nil_append, ClaimValue.ofJsonFields, hextra]
    exact without_of_unreserved h.unreserved
  simp only [ofFields?, onlyText?_pubkey h, onlyTime?_iat h, onlyTime?_exp h, hothers,
    ClaimMap.ofList_of_ascending h.ascending]

/-- Claims read back. -/
theorem parse?_print (h : claims.Readable) : parse? claims.print = some claims := by
  rw [parse?, parseFields?_print h, Option.bind_some, ofFields?_fields h]

end SessionClaims

end WalletAuth
