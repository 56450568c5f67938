import WalletAuth.Proofs.Json.Parser

/-! What nests too deep is not read. The limit is exact: a value of integers that was written without
spaces reads back if its lists and objects nest at most so deep, and its text is refused otherwise.
An opening mark at the limit starts no scalar, and a group is refused with the first of its items
that is. -/

namespace WalletAuth.Json

theorem takeScalar?_of_opening {first : UInt8} (h : first = 91 ∨ first = 123) (tail : Bytes) :
    takeScalar? (first :: tail) = none := by
  rcases h with rfl | rfl <;> rfl

/-! ### Groups -/

section Groups

variable {α : Type} {item : Bytes → Option (α × Bytes)} {text : α → Bytes} {close : UInt8}
  {xs : List α} {good : α → Prop}

theorem takeItems_eq_none (hclose : close = 93 ∨ close = 125)
    (hgood : ∀ x ∈ xs, good x → ∀ rest, EndsValue rest → item (text x ++ rest) = some (x, rest))
    (hbad : ∀ x ∈ xs, ¬good x → ∀ rest, EndsValue rest → item (text x ++ rest) = none)
    (hexists : ∃ x ∈ xs, ¬good x) (count : Nat) (read : List α) (rest : Bytes) :
    takeItems item close count read (commaSeparated (xs.map text) ++ close :: rest) = none := by
  induction xs generalizing read count with
  | nil => simp at hexists
  | cons x xs ih =>
      cases count with
      -- Items that were read may have used up the allowance, which is a refusal too.
      | zero => rfl
      | succ count =>
          cases xs with
          | nil =>
              have hend : EndsValue (close :: rest) := Or.inr ⟨close, rest, rfl, Or.inr hclose⟩
              obtain ⟨_, hx, hnot⟩ := hexists
              rw [List.mem_singleton] at hx
              subst hx
              rw [List.map_cons, List.map_nil, commaSeparated, takeItems,
                hbad _ List.mem_cons_self hnot _ hend]
          | cons y ys =>
              have hend : EndsValue (44 :: (commaSeparated ((y :: ys).map text) ++ close :: rest)) :=
                Or.inr ⟨44, _, rfl, Or.inl rfl⟩
              rw [List.map_cons, List.map_cons, commaSeparated_cons_cons_append, ← List.map_cons,
                takeItems]
              by_cases hx : good x
              · rw [hgood x List.mem_cons_self hx _ hend]
                refine ih (fun z hz => hgood z (List.mem_cons_of_mem x hz))
                  (fun z hz => hbad z (List.mem_cons_of_mem x hz)) ?_ count (x :: read)
                obtain ⟨z, hz, hnot⟩ := hexists
                rcases List.mem_cons.mp hz with rfl | hz
                · exact absurd hx hnot
                · exact ⟨z, hz, hnot⟩
              · rw [hbad x List.mem_cons_self hx _ hend]

/-- A group with an item that is refused is refused, whether the items before it are read or not. -/
theorem takeGroup_eq_none (hclose : close = 93 ∨ close = 125)
    (hgood : ∀ x ∈ xs, good x → ∀ rest, EndsValue rest → item (text x ++ rest) = some (x, rest))
    (hbad : ∀ x ∈ xs, ¬good x → ∀ rest, EndsValue rest → item (text x ++ rest) = none)
    (hexists : ∃ x ∈ xs, ¬good x)
    (hstart : ∀ x ∈ xs, ∃ first tail, text x = first :: tail ∧ StartsItem first)
    (count : Nat) (rest : Bytes) :
    takeGroup item close count (commaSeparated (xs.map text) ++ close :: rest) = none := by
  cases xs with
  | nil => simp at hexists
  | cons x xs =>
      rw [takeGroup_eq_takeItems hclose (hstart x List.mem_cons_self)]
      exact takeItems_eq_none hclose hgood hbad hexists count [] rest

end Groups

/-! ### Values -/

section Values

variable {items : List Value} {fields : List (String × Value)} {count depth : Nat} {rest : Bytes}

theorem takeField?_eq_none {value : Bytes → Option (Value × Bytes)} {field : String × Value}
    (h : value (field.2.print ++ rest) = none) :
    takeField? value (fieldText field ++ rest) = none := by
  rw [takeField?, fieldText, List.append_assoc, List.cons_append, takeName?_quote, Option.bind_some]
  simp only [h, Option.map_none]

theorem exists_not_within_items (h : ¬(Value.list items).Within (depth + 1)) :
    ∃ item ∈ items, ¬item.Within depth := by
  by_contra! hnone
  exact h (.list hnone)

theorem exists_not_within_fields (h : ¬(Value.object fields).Within (depth + 1)) :
    ∃ field ∈ fields, ¬field.2.Within depth := by
  by_contra! hnone
  exact h (.object hnone)

/-- A value that nests too deep is not read off the front of a text. -/
theorem takeValue?_eq_none {nesting : Nat} {value : Value} (h : value.Within nesting)
    (hdeep : ¬value.Within depth) (hcount : value.print.length ≤ count) (hrest : EndsValue rest) :
    takeValue? count depth (value.print ++ rest) = none := by
  induction h generalizing depth rest with
  | null => exact absurd .null hdeep
  | bool value => exact absurd (.bool value) hdeep
  | number hnumber => exact absurd (.number hnumber) hdeep
  | text value => exact absurd (.text value) hdeep
  | list hitems ih =>
      rename_i items
      cases depth with
      | zero => exact takeScalar?_of_opening (Or.inl rfl) _
      | succ depth =>
          have hlength (item : Value) (hitem : item ∈ items) : item.print.length ≤ count :=
            (length_le_of_mem_items hitem).trans hcount
          have hgroup := takeGroup_eq_none (Or.inl rfl)
            (fun item hitem hwithin rest hrest =>
              takeValue?_print hwithin (hlength item hitem) hrest)
            (fun item hitem hdeep rest hrest => ih item hitem hdeep (hlength item hitem) hrest)
            (exists_not_within_items hdeep) (fun item hitem => exists_print (hitems item hitem))
            count rest
          rw [takeValue?_list, hgroup, Option.map_none]
  | object hfields ih =>
      rename_i fields
      cases depth with
      | zero => exact takeScalar?_of_opening (Or.inr rfl) _
      | succ depth =>
          have hlength (field : String × Value) (hfield : field ∈ fields) :
              field.2.print.length ≤ count :=
            (length_le_of_mem_fields hfield).trans hcount
          have hgroup := takeGroup_eq_none (Or.inr rfl)
            (fun field hfield hwithin rest hrest => takeField?_fieldText
              (takeValue?_print hwithin (hlength field hfield) hrest))
            (fun field hfield hdeep rest hrest => takeField?_eq_none
              (ih field hfield hdeep (hlength field hfield) hrest))
            (exists_not_within_fields hdeep) (fun field _ => exists_fieldText field) count rest
          rw [takeValue?_object, hgroup, Option.map_none]

/-- A text is refused if what it spells nests too deep. -/
theorem parse?_eq_none {nesting : Nat} {value : Value} (h : value.Within nesting)
    (hdeep : ¬value.Within maxDepth) : parse? value.print = none := by
  have hread := takeValue?_eq_none h hdeep (Nat.le_refl _) (Or.inl rfl)
  rw [List.append_nil] at hread
  rw [parse?, hread]

end Values

end WalletAuth.Json
