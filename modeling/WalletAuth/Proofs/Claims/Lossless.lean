import WalletAuth.Proofs.Claims.Session
import WalletAuth.Proofs.Json.Nesting

/-! What JSON keeps of claims. Everything without fractions is read back as it was written, each value
as the kind it was and each claim under its own name, as long as lists and maps nest no deeper than
the reader follows; what nests deeper is not read at all. -/

namespace WalletAuth

namespace ClaimValue

variable {value : ClaimValue} {nesting depth : Nat}

/-- A value nests as deep as the JSON that is written for it. -/
theorem Plain.of_within_toJson (h : value.Plain nesting) (hwithin : value.toJson.Within depth) :
    value.Plain depth := by
  induction h generalizing depth with
  | null => exact .null
  | bool value => exact .bool value
  | integer value => exact .integer value
  | text value => exact .text value
  | list _ ih =>
      rename_i items _
      rw [toJson, toJsonItems_eq_map] at hwithin
      cases hwithin with
      | list hitems =>
          apply Plain.list
          intro item hitem
          exact ih item hitem (hitems _ (List.mem_map_of_mem hitem))
  | map ascending _ ih =>
      rename_i entries _
      rw [toJson, toJsonEntries_eq_map] at hwithin
      cases hwithin with
      | object hfields =>
          apply Plain.map ascending
          intro entry hentry
          exact ih entry hentry (hfields _ (List.mem_map_of_mem hentry))

theorem parse?_print (h : value.Plain Json.maxDepth) : parse? value.print = some value := by
  rw [parse?, print, Json.parse?_print h.within_toJson, Option.map_some, h.ofJson_toJson]

theorem parse?_print_eq_none (h : value.Plain nesting) (hdeep : ¬value.Plain Json.maxDepth) :
    parse? value.print = none := by
  have hjson : ¬value.toJson.Within Json.maxDepth :=
    fun hwithin => hdeep (h.of_within_toJson hwithin)
  rw [parse?, print, Json.parse?_eq_none h.within_toJson hjson, Option.map_none]

/-- Lists within lists, so many of them. -/
def tower : Nat → ClaimValue
  | 0 => .null
  | height + 1 => .list [tower height]

theorem plain_tower_iff {height : Nat} : (tower height).Plain depth ↔ height ≤ depth := by
  induction height generalizing depth with
  | zero => exact iff_of_true .null (Nat.zero_le depth)
  | succ height ih =>
      constructor
      · intro h
        cases h with
        | list hitems =>
            exact Nat.succ_le_succ (ih.mp (hitems _ List.mem_cons_self))
      · intro h
        obtain ⟨depth, rfl⟩ := Nat.exists_eq_add_of_lt h
        apply Plain.list
        intro item hitem
        rw [List.mem_singleton.mp hitem]
        exact ih.mpr (Nat.le_add_right height depth)

end ClaimValue

namespace SessionClaims

variable {claims : SessionClaims} {nesting : Nat}

theorem parse?_print_eq_none (h : ∀ entry ∈ claims.extra, entry.2.Plain nesting)
    (hdeep : ∃ entry ∈ claims.extra, ¬entry.2.Plain maxExtraDepth) :
    parse? claims.print = none := by
  have hjson : ¬(Json.Value.object claims.fields).Within (maxExtraDepth + 1) := by
    intro hwithin
    obtain ⟨entry, hentry, hdeep⟩ := hdeep
    have hfield : (entry.1, entry.2.toJson) ∈ claims.fields :=
      mem_fields_iff.mpr (Or.inr ⟨entry, hentry, rfl⟩)
    cases hwithin with
    | object hfields => exact hdeep ((h entry hentry).of_within_toJson (hfields _ hfield))
  rw [parse?, parseFields?, print, Json.parse?_eq_none (within_fields_of_plain h) hjson]
  rfl

end SessionClaims

/-- Claims in JSON lose nothing. Claims and values without fractions are read back as they were if
their text nests at most 127 lists and maps, the claims themselves counted; otherwise they are not
read. -/
theorem claims_lossless :
    (∀ claims : SessionClaims, ClaimMap.Ascending claims.extra →
      (∀ entry ∈ claims.extra, entry.1 ∉ ["pubkey", "iat", "exp"]) →
      ((∀ entry ∈ claims.extra, entry.2.Plain 126) →
        SessionClaims.parse? claims.print = some claims) ∧
      ∀ nesting, (∀ entry ∈ claims.extra, entry.2.Plain nesting) →
        (∃ entry ∈ claims.extra, ¬entry.2.Plain 126) →
        SessionClaims.parse? claims.print = none) ∧
    ∀ value : ClaimValue,
      (value.Plain 127 → ClaimValue.parse? value.print = some value) ∧
      ∀ nesting, value.Plain nesting → ¬value.Plain 127 → ClaimValue.parse? value.print = none := by
  constructor
  · intro claims hascending hunreserved
    constructor
    · intro hplain
      exact SessionClaims.parse?_print ⟨hascending, hplain, hunreserved⟩
    · intro nesting hplain hdeep
      exact SessionClaims.parse?_print_eq_none hplain hdeep
  · intro value
    exact ⟨ClaimValue.parse?_print, fun _ => ClaimValue.parse?_print_eq_none⟩

theorem claims_lossless_tower :
    let claims : SessionClaims := ⟨"02abc", -1, 1700604800,
      [("l", .list [.integer (-1), .text "a"]), ("t", .tower 126)]⟩
    SessionClaims.parse? claims.print = some claims ∧
      ClaimValue.parse? (ClaimValue.tower 127).print = some (.tower 127) ∧
      ClaimValue.parse? (ClaimValue.tower 128).print = none := by
  intro claims
  have hlist : (ClaimValue.list [.integer (-1), .text "a"]).Plain 126 := by
    apply ClaimValue.Plain.list
    intro item hitem
    rcases List.mem_cons.mp hitem with rfl | hitem
    · exact .integer (-1)
    · rw [List.mem_singleton.mp hitem]
      exact .text "a"
  have hplain : ∀ entry ∈ claims.extra, entry.2.Plain 126 := by
    intro entry hentry
    rcases List.mem_cons.mp hentry with rfl | hentry
    · exact hlist
    · rw [List.mem_singleton.mp hentry]
      exact ClaimValue.plain_tower_iff.mpr (Nat.le_refl 126)
  obtain ⟨hclaims, hvalue⟩ := claims_lossless
  obtain ⟨hread, -⟩ := hclaims claims (by decide) (by decide)
  refine ⟨hread hplain, ?_, ?_⟩
  · exact (hvalue (.tower 127)).left (ClaimValue.plain_tower_iff.mpr (Nat.le_refl 127))
  · exact (hvalue (.tower 128)).right 128 (ClaimValue.plain_tower_iff.mpr (Nat.le_refl 128))
      (fun h => absurd (ClaimValue.plain_tower_iff.mp h) (by decide))

end WalletAuth
