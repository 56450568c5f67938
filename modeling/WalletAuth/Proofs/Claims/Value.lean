import WalletAuth.Claims.Value
import WalletAuth.Proofs.Json.Parser

/-! Claim values keep their meaning on the way through JSON: whatever is built of integers, texts,
lists and ordered maps is read back as it was. -/

namespace WalletAuth

/-! ### Ordered entries -/

namespace ClaimMap

theorem ne_of_before {a b : String} (h : before a b = true) : a ≠ b := by
  rintro rfl
  exact List.lt_irrefl _ (of_decide_eq_true h)

theorem before_asymm {a b : String} (h : before a b = true) : before b a = false :=
  decide_eq_false (List.lt_asymm (of_decide_eq_true h))

section Entries

variable {α : Type} {entries others : List (String × α)}

instance (entries : List (String × α)) : Decidable (Ascending entries) :=
  inferInstanceAs (Decidable (entries.Pairwise fun a b => before a.1 b.1 = true))

theorem insert_of_before {name : String} {value : α}
    (h : ∀ entry ∈ entries, before entry.1 name = true) :
    insert name value entries = entries ++ [(name, value)] := by
  induction entries with
  | nil => rfl
  | cons entry entries ih =>
      obtain ⟨other, kept⟩ := entry
      have hbefore := h (other, kept) List.mem_cons_self
      rw [insert, if_neg (ne_of_before hbefore).symm,
        if_neg (by rw [before_asymm hbefore]; exact Bool.false_ne_true),
        ih fun entry hentry => h entry (List.mem_cons_of_mem _ hentry), List.cons_append]

theorem foldl_insert {kept : List (String × α)} (h : Ascending (kept ++ entries)) :
    entries.foldl (fun kept entry => insert entry.1 entry.2 kept) kept = kept ++ entries := by
  induction entries generalizing kept with
  | nil => exact (List.append_nil kept).symm
  | cons entry entries ih =>
      have hbefore := (List.pairwise_append.mp h).right.right
      rw [List.foldl_cons, insert_of_before fun other hother =>
        hbefore other hother entry List.mem_cons_self]
      have hsplit : kept ++ entry :: entries = kept ++ [entry] ++ entries := by simp
      rw [hsplit] at h
      rw [hsplit]
      exact ih h

/-- Entries in order stay as they are. -/
theorem ofList_of_ascending (h : Ascending entries) : ofList entries = entries :=
  foldl_insert h

theorem Ascending.without (h : Ascending entries) (names : List String) :
    Ascending (ClaimMap.without names entries) :=
  List.Pairwise.filter _ h

theorem Ascending.nodup (h : Ascending entries) : (entries.map Prod.fst).Nodup := by
  rw [List.Nodup, List.pairwise_map]
  exact List.Pairwise.imp ne_of_before h

theorem Ascending.mem_iff_lookup (h : Ascending entries) {name : String} {value : α} :
    (name, value) ∈ entries ↔ entries.lookup name = some value := by
  induction entries with
  | nil => simp
  | cons entry entries ih =>
      obtain ⟨first, kept⟩ := entry
      obtain ⟨hfirst, hentries⟩ := List.pairwise_cons.mp h
      rw [List.mem_cons, List.lookup_cons, Prod.mk.injEq, ih hentries]
      by_cases hname : name = first
      · obtain rfl := hname
        have hnone : entries.lookup name ≠ some value := fun hvalue =>
          ne_of_before (hfirst (name, value) ((ih hentries).mpr hvalue)) rfl
        simp [hnone, eq_comm]
      · simp [hname, beq_eq_false_iff_ne.mpr hname]

/-- Entries in order are known by what they hold under each name. -/
theorem Ascending.ext (h : Ascending entries) (hothers : Ascending others)
    (hlookup : ∀ name, entries.lookup name = others.lookup name) : entries = others := by
  have hmem : ∀ entry, entry ∈ entries ↔ entry ∈ others := by
    rintro ⟨name, value⟩
    rw [h.mem_iff_lookup, hothers.mem_iff_lookup, hlookup]
  have hnodup {list : List (String × α)} (hlist : Ascending list) : list.Nodup :=
    List.Pairwise.imp (fun hbefore heq => ne_of_before hbefore (congrArg Prod.fst heq)) hlist
  have hperm : entries.Perm others :=
    (List.perm_ext_iff_of_nodup (hnodup h) (hnodup hothers)).mpr hmem
  refine List.Perm.eq_of_pairwise ?_ h hothers hperm
  intro a b _ _ hab hba
  rw [before_asymm hab] at hba
  exact absurd hba Bool.false_ne_true

theorem without_without (names : List String) (entries : List (String × α)) :
    without names (without names entries) = without names entries := by
  simp only [without, List.filter_filter, Bool.and_self]

theorem lookup_without (names : List String) (entries : List (String × α)) (name : String) :
    (without names entries).lookup name =
      if name ∈ names then none else entries.lookup name := by
  induction entries with
  | nil => simp [without]
  | cons entry entries ih =>
      obtain ⟨other, value⟩ := entry
      rw [without] at ih ⊢
      by_cases hother : other ∈ names
      · rw [List.filter_cons_of_neg (by simpa using hother), ih]
        split
        · rfl
        · rename_i hname
          have hne : name ≠ other := fun heq => hname (heq ▸ hother)
          rw [List.lookup_cons, beq_eq_false_iff_ne.mpr hne]
      · rw [List.filter_cons_of_pos (by simpa using hother), List.lookup_cons, List.lookup_cons, ih]
        cases heq : name == other with
        | true =>
            have hname : name ∉ names := eq_of_beq heq ▸ hother
            exact (if_neg hname).symm
        | false => rfl

end Entries

end ClaimMap

namespace ClaimValue

/-! ### Values without fractions -/

/-- Values of integers, texts, lists and maps in order, nested at most so deep. -/
inductive Plain : Nat → ClaimValue → Prop
  | null {depth : Nat} : Plain depth .null
  | bool {depth : Nat} (value : Bool) : Plain depth (.bool value)
  | integer {depth : Nat} (value : Int64) : Plain depth (.integer value)
  | text {depth : Nat} (value : String) : Plain depth (.text value)
  | list {depth : Nat} {items : List ClaimValue} (h : ∀ item ∈ items, Plain depth item) :
      Plain (depth + 1) (.list items)
  | map {depth : Nat} {entries : ClaimMap} (ascending : ClaimMap.Ascending entries)
      (h : ∀ entry ∈ entries, Plain depth entry.2) : Plain (depth + 1) (.map entries)

theorem toJsonItems_eq_map (items : List ClaimValue) : toJsonItems items = items.map toJson := by
  induction items with
  | nil => rfl
  | cons item items ih => rw [toJsonItems, ih, List.map_cons]

theorem toJsonEntries_eq_map (entries : ClaimMap) :
    toJsonEntries entries = entries.map fun entry => (entry.1, entry.2.toJson) := by
  induction entries with
  | nil => rfl
  | cons entry entries ih => rw [toJsonEntries, ih, List.map_cons]

theorem lookup_toJsonEntries (entries : ClaimMap) (name : String) :
    (toJsonEntries entries).lookup name = (entries.lookup name).map toJson := by
  induction entries with
  | nil => rfl
  | cons entry entries ih =>
      rw [toJsonEntries, List.lookup_cons, List.lookup_cons, ih]
      cases name == entry.1 <;> rfl

theorem pairwise_toJsonEntries {entries : ClaimMap} (h : ClaimMap.Ascending entries) :
    ((toJsonEntries entries).map Prod.fst).Pairwise
      fun a b => Bytes.ofString a < Bytes.ofString b := by
  rw [toJsonEntries_eq_map, List.map_map, List.pairwise_map]
  exact List.Pairwise.imp of_decide_eq_true h

theorem ofJsonItems_eq_map (items : List Json.Value) : ofJsonItems items = items.map ofJson := by
  induction items with
  | nil => rfl
  | cons item items ih => rw [ofJsonItems, ih, List.map_cons]

theorem ofJsonFields_eq_map (fields : List (String × Json.Value)) :
    ofJsonFields fields = fields.map fun field => (field.1, ofJson field.2) := by
  induction fields with
  | nil => rfl
  | cons field fields ih => rw [ofJsonFields, ih, List.map_cons]

theorem isInteger_ofInt (value : Int64) :
    ∃ number : Json.Number, Json.Value.ofInt value.toInt = .number number ∧ number.IsInteger ∧
      ofNumber number = .integer value := by
  have hlower := value.le_toInt
  have hupper := value.toInt_lt
  rw [Json.Value.ofInt]
  by_cases hsign : value.toInt < 0
  · rw [if_pos hsign]
    refine ⟨_, rfl, .negative (by omega) (by omega), ?_⟩
    rw [ofNumber, Int.ofNat_natAbs_of_nonpos (by omega), Int.neg_neg, Int64.ofInt_toInt]
  · rw [if_neg hsign]
    refine ⟨_, rfl, .natural (by omega), ?_⟩
    rw [ofNumber, if_pos (by omega), ← Int64.ofInt_eq_ofNat, Int.toNat_of_nonneg (by omega),
      Int64.ofInt_toInt]

theorem Plain.within_toJson {depth : Nat} {value : ClaimValue} (h : value.Plain depth) :
    value.toJson.Within depth := by
  induction h with
  | null => exact .null
  | bool value => exact .bool value
  | integer value =>
      obtain ⟨number, hnumber, hinteger, -⟩ := isInteger_ofInt value
      rw [toJson, hnumber]
      exact .number hinteger
  | text value => exact .text value
  | list _ ih =>
      rw [toJson, toJsonItems_eq_map]
      apply Json.Value.Within.list
      intro item hitem
      obtain ⟨made, hmade, rfl⟩ := List.mem_map.mp hitem
      exact ih made hmade
  | map _ _ ih =>
      rw [toJson, toJsonEntries_eq_map]
      apply Json.Value.Within.object
      intro field hfield
      obtain ⟨entry, hentry, rfl⟩ := List.mem_map.mp hfield
      exact ih entry hentry

theorem ofJsonFields_toJsonEntries {entries : ClaimMap}
    (h : ∀ entry ∈ entries, ofJson entry.2.toJson = entry.2) :
    ofJsonFields (toJsonEntries entries) = entries := by
  have hentry : ∀ entry ∈ entries, (entry.1, ofJson entry.2.toJson) = entry :=
    fun entry hmem => Prod.ext rfl (h entry hmem)
  rw [toJsonEntries_eq_map, ofJsonFields_eq_map, List.map_map]
  exact (List.map_congr_left hentry).trans (List.map_id' entries)

/-- A value reads back. -/
theorem Plain.ofJson_toJson {depth : Nat} {value : ClaimValue} (h : value.Plain depth) :
    ofJson value.toJson = value := by
  induction h with
  | null => rfl
  | bool value => rfl
  | integer value =>
      obtain ⟨number, hnumber, -, hvalue⟩ := isInteger_ofInt value
      rw [toJson, hnumber, ofJson, hvalue]
  | text value => rfl
  | list _ ih =>
      rename_i items _
      have hitems : ofJsonItems (toJsonItems items) = items := by
        rw [toJsonItems_eq_map, ofJsonItems_eq_map, List.map_map]
        exact (List.map_congr_left ih).trans (List.map_id' items)
      rw [toJson, ofJson, hitems]
  | map ascending _ ih =>
      rw [toJson, ofJson, ofJsonFields_toJsonEntries ih, ClaimMap.ofList_of_ascending ascending]

end ClaimValue

end WalletAuth
