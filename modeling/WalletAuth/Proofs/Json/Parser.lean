import WalletAuth.Json.Parser
import WalletAuth.Proofs.Json.Number
import WalletAuth.Proofs.Json.Text

/-! Compact text reads back as the value it was written for, if its numbers are integers and it does
not nest too deep. The induction is on the value; what follows it is arbitrary as long as it cannot
be taken for more of a number, and the allowance of items is never used up since every item takes at
least one byte. -/

namespace WalletAuth.Json

/-! ### Values that are read back -/

/-- Values of integers, with lists and objects nested at most so deep. -/
inductive Value.Within : Nat → Value → Prop
  | null {depth : Nat} : Within depth .null
  | bool {depth : Nat} (value : Bool) : Within depth (.bool value)
  | number {depth : Nat} {value : Number} (h : value.IsInteger) : Within depth (.number value)
  | text {depth : Nat} (value : String) : Within depth (.text value)
  | list {depth : Nat} {items : List Value} (h : ∀ item ∈ items, Within depth item) :
      Within (depth + 1) (.list items)
  | object {depth : Nat} {fields : List (String × Value)} (h : ∀ field ∈ fields, Within depth field.2) :
      Within (depth + 1) (.object fields)

/-- The text of a field. -/
def fieldText (field : String × Value) : Bytes :=
  quote field.1 ++ 58 :: field.2.print

theorem printItems_eq_map (items : List Value) : Value.printItems items = items.map Value.print := by
  induction items with
  | nil => rfl
  | cons item items ih => rw [Value.printItems, ih, List.map_cons]

theorem printFields_eq_map (fields : List (String × Value)) :
    Value.printFields fields = fields.map fieldText := by
  induction fields with
  | nil => rfl
  | cons field fields ih => rw [Value.printFields, ih, List.map_cons, fieldText]

/-! ### How texts start -/

/-- Characters that start a value or a field: no blank and no closing mark. -/
def StartsItem (first : UInt8) : Prop :=
  first ∉ [(32 : UInt8), 10, 13, 9, 93, 125]

instance (first : UInt8) : Decidable (StartsItem first) :=
  inferInstanceAs (Decidable (first ∉ _))

theorem skipBlanks_of_startsItem {first : UInt8} (h : StartsItem first) (rest : Bytes) :
    skipBlanks (first :: rest) = first :: rest := by
  have hblank : (first == 32 || first == 10 || first == 13 || first == 9) = false := by
    simp only [StartsItem, List.mem_cons, not_or] at h
    simp [h]
  exact List.dropWhile_cons_of_neg (by rw [hblank]; exact Bool.false_ne_true)

theorem skipBlanks_of_endsValue {rest : Bytes} (h : EndsValue rest) : skipBlanks rest = rest := by
  rcases h with rfl | ⟨mark, tail, rfl, rfl | rfl | rfl⟩ <;> rfl

/-- Characters that start an integer. -/
def StartsNumber (first : UInt8) : Prop :=
  Decimal.isDigit first = true ∨ first = 45

instance (first : UInt8) : Decidable (StartsNumber first) :=
  inferInstanceAs (Decidable (_ ∨ _))

theorem exists_print_number {number : Number} (h : number.IsInteger) :
    ∃ first tail, number.print = first :: tail ∧ StartsNumber first := by
  cases h with
  | natural _ =>
      rename_i value _
      obtain ⟨first, tail, hcons⟩ := List.exists_cons_of_ne_nil (Decimal.digits_ne_nil value)
      have hmem : first ∈ Decimal.digits value := hcons ▸ List.mem_cons_self
      exact ⟨first, tail, hcons, Or.inl (Decimal.isDigit_of_mem_digits hmem)⟩
  | negative _ _ => exact ⟨45, _, rfl, Or.inr rfl⟩

theorem startsItem_of_startsNumber (first : UInt8) (h : StartsNumber first) :
    StartsItem first ∧ first ∉ [(91 : UInt8), 123, 110, 116, 102, 34] := by
  have hall : ∀ first, StartsNumber first →
      StartsItem first ∧ first ∉ [(91 : UInt8), 123, 110, 116, 102, 34] :=
    Bytes.forall_byte (by decide +kernel)
  exact hall first h

theorem exists_print {depth : Nat} {value : Value} (h : value.Within depth) :
    ∃ first tail, value.print = first :: tail ∧ StartsItem first := by
  cases h with
  | null => exact ⟨110, Bytes.ofString "ull", by decide, by decide⟩
  | bool value =>
      cases value with
      | false => exact ⟨102, Bytes.ofString "alse", by decide, by decide⟩
      | true => exact ⟨116, Bytes.ofString "rue", by decide, by decide⟩
  | number hnumber =>
      obtain ⟨first, tail, hcons, hfirst⟩ := exists_print_number hnumber
      exact ⟨first, tail, hcons, (startsItem_of_startsNumber first hfirst).left⟩
  | text value => exact ⟨34, _, quote_eq_cons value, by decide⟩
  | list _ => exact ⟨91, _, rfl, by decide⟩
  | object _ => exact ⟨123, _, rfl, by decide⟩

/-! ### Groups -/

theorem exists_commaSeparated_cons (text : Bytes) (texts : List Bytes) :
    ∃ tail, commaSeparated (text :: texts) = text ++ tail := by
  cases texts with
  | nil => exact ⟨[], (List.append_nil text).symm⟩
  | cons next texts => exact ⟨_, rfl⟩

theorem commaSeparated_cons_cons_append (text next : Bytes) (texts : List Bytes) (rest : Bytes) :
    commaSeparated (text :: next :: texts) ++ rest =
      text ++ 44 :: (commaSeparated (next :: texts) ++ rest) := by
  simp [commaSeparated]

theorem length_le_commaSeparated {texts : List Bytes} (h : ∀ text ∈ texts, text ≠ []) :
    texts.length ≤ (commaSeparated texts).length := by
  induction texts with
  | nil => exact Nat.le_refl 0
  | cons text texts ih =>
      have hpos : 1 ≤ text.length := List.length_pos_of_ne_nil (h text List.mem_cons_self)
      have htail := ih fun other hother => h other (List.mem_cons_of_mem _ hother)
      cases texts with
      | nil => simpa [commaSeparated] using hpos
      | cons next texts =>
          have hlength : (commaSeparated (text :: next :: texts)).length =
              text.length + ((commaSeparated (next :: texts)).length + 1) := by
            simp [commaSeparated]
          rw [hlength, List.length_cons]
          omega

theorem length_le_of_mem {texts : List Bytes} {text : Bytes} (h : text ∈ texts) :
    text.length ≤ (commaSeparated texts).length := by
  induction texts with
  | nil => simp at h
  | cons first texts ih =>
      cases texts with
      | nil => rw [List.mem_singleton.mp h, commaSeparated]
      | cons next texts =>
          rw [commaSeparated, List.length_append, List.length_cons]
          · rcases List.mem_cons.mp h with rfl | hmem
            · omega
            · have := ih hmem
              omega
          · simp

theorem exists_fieldText (field : String × Value) :
    ∃ first tail, fieldText field = first :: tail ∧ StartsItem first :=
  ⟨34, (quote field.1).tail ++ 58 :: field.2.print, rfl, by decide⟩

section Groups

variable {α : Type} {item : Bytes → Option (α × Bytes)} {text : α → Bytes} {close : UInt8}
  {xs : List α} {count : Nat}

theorem length_le_of_printed
    (hstart : ∀ x ∈ xs, ∃ first tail, text x = first :: tail ∧ StartsItem first)
    (hlength : (commaSeparated (xs.map text)).length ≤ count) : xs.length ≤ count := by
  have hnonempty : ∀ written ∈ xs.map text, written ≠ [] := by
    intro written hwritten
    obtain ⟨x, hx, rfl⟩ := List.mem_map.mp hwritten
    obtain ⟨first, tail, hcons, -⟩ := hstart x hx
    exact hcons ▸ List.cons_ne_nil first tail
  have hall := (length_le_commaSeparated hnonempty).trans hlength
  rwa [List.length_map] at hall

theorem takeItems_commaSeparated (hclose : close = 93 ∨ close = 125)
    (hitem : ∀ x ∈ xs, ∀ rest, EndsValue rest → item (text x ++ rest) = some (x, rest))
    (hxs : xs ≠ []) (hcount : xs.length ≤ count) (read : List α) (rest : Bytes) :
    takeItems item close count read (commaSeparated (xs.map text) ++ close :: rest) =
      some (read.reverse ++ xs, rest) := by
  induction xs generalizing read count with
  | nil => exact absurd rfl hxs
  | cons x xs ih =>
      obtain ⟨count, rfl⟩ : ∃ fewer, count = fewer + 1 :=
        Nat.exists_eq_succ_of_ne_zero (by simp at hcount; omega)
      cases xs with
      | nil =>
          have hend : EndsValue (close :: rest) := Or.inr ⟨close, rest, rfl, Or.inr hclose⟩
          have hx := hitem x List.mem_cons_self _ hend
          rw [List.map_cons, List.map_nil, commaSeparated, takeItems, hx]
          rcases hclose with rfl | rfl <;> simp [skipBlanks_of_endsValue hend]
      | cons y ys =>
          have hx := hitem x List.mem_cons_self
            (44 :: (commaSeparated ((y :: ys).map text) ++ close :: rest))
            (Or.inr ⟨44, _, rfl, Or.inl rfl⟩)
          have htail := ih (fun other hother => hitem other (List.mem_cons_of_mem _ hother))
            (List.cons_ne_nil y ys) (Nat.le_of_succ_le_succ hcount) (x :: read)
          rw [List.map_cons, List.map_cons, commaSeparated_cons_cons_append, ← List.map_cons,
            takeItems, hx]
          show takeItems item close count (x :: read) _ = _
          rw [htail, List.reverse_cons, List.append_assoc, List.singleton_append]

/-- A group with a first item is read item by item. -/
theorem takeGroup_eq_takeItems (hclose : close = 93 ∨ close = 125) {x : α}
    (hstart : ∃ first tail, text x = first :: tail ∧ StartsItem first) (xs : List α) (count : Nat)
    (rest : Bytes) :
    takeGroup item close count (commaSeparated ((x :: xs).map text) ++ close :: rest) =
      takeItems item close count [] (commaSeparated ((x :: xs).map text) ++ close :: rest) := by
  obtain ⟨first, tail, hcons, hfirst⟩ := hstart
  obtain ⟨others, hothers⟩ := exists_commaSeparated_cons (text x) (xs.map text)
  have hmark : first ≠ close := by
    rintro rfl
    rcases hclose with rfl | rfl <;> exact absurd hfirst (by decide)
  rw [List.map_cons, hothers, hcons]
  simp only [List.cons_append]
  rw [takeGroup, skipBlanks_of_startsItem hfirst]
  exact if_neg hmark

/-- What was written between two marks reads back. -/
theorem takeGroup_commaSeparated (hclose : close = 93 ∨ close = 125)
    (hitem : ∀ x ∈ xs, ∀ rest, EndsValue rest → item (text x ++ rest) = some (x, rest))
    (hstart : ∀ x ∈ xs, ∃ first tail, text x = first :: tail ∧ StartsItem first)
    (hcount : xs.length ≤ count) (rest : Bytes) :
    takeGroup item close count (commaSeparated (xs.map text) ++ close :: rest) = some (xs, rest) := by
  cases xs with
  | nil =>
      have hend : EndsValue (close :: rest) := Or.inr ⟨close, rest, rfl, Or.inr hclose⟩
      rw [List.map_nil, commaSeparated, List.nil_append, takeGroup, skipBlanks_of_endsValue hend]
      simp
  | cons x xs =>
      rw [takeGroup_eq_takeItems hclose (hstart x List.mem_cons_self)]
      exact takeItems_commaSeparated hclose hitem (List.cons_ne_nil x xs) hcount [] rest

end Groups

/-! ### Fields -/

theorem takeName?_quote (name : String) (rest : Bytes) :
    takeName? (quote name ++ 58 :: rest) = some (name, rest) := by
  have hstart : skipBlanks (quote name ++ 58 :: rest) = 34 :: ((quote name).tail ++ 58 :: rest) :=
    skipBlanks_of_startsItem (by decide) _
  have hcolon : skipBlanks (58 :: rest) = 58 :: rest := rfl
  simp only [takeName?, hstart, unquote_quote, Option.bind_some, hcolon]

theorem takeField?_fieldText {value : Bytes → Option (Value × Bytes)} {field : String × Value}
    {rest : Bytes} (h : value (field.2.print ++ rest) = some (field.2, rest)) :
    takeField? value (fieldText field ++ rest) = some (field, rest) := by
  rw [takeField?, fieldText, List.append_assoc, List.cons_append, takeName?_quote, Option.bind_some]
  simp only [h, Option.map_some]

/-! ### Values -/

theorem takeScalar?_of_startsNumber {first : UInt8} {tail : Bytes} (h : StartsNumber first) :
    takeScalar? (first :: tail) =
      (takeNumber? (first :: tail)).map fun (number, rest) => (.number number, rest) := by
  have hfirst := (startsItem_of_startsNumber first h).right
  simp only [List.mem_cons, not_or] at hfirst
  rw [takeScalar?]
  all_goals
    intro rest hcons
    simp [List.cons.inj hcons] at hfirst

/-- What starts neither a list nor an object is read as a scalar at any depth. -/
theorem takeValue?_scalar {count depth : Nat} {first : UInt8} {tail : Bytes}
    (hfirst : StartsItem first) (hlist : first ≠ 91) (hobject : first ≠ 123) :
    takeValue? count depth (first :: tail) = takeScalar? (first :: tail) := by
  cases depth with
  | zero => rw [takeValue?, skipBlanks_of_startsItem hfirst]
  | succ depth =>
      rw [takeValue?, skipBlanks_of_startsItem hfirst]
      split
      · exact absurd (List.cons.inj ‹_›).left hlist
      · exact absurd (List.cons.inj ‹_›).left hobject
      · rfl

section Nested

variable {items : List Value} {fields : List (String × Value)}

theorem length_items_le (items : List Value) :
    (commaSeparated (items.map Value.print)).length ≤ (Value.list items).print.length := by
  rw [Value.print, List.length_cons, List.length_append, printItems_eq_map]
  omega

theorem length_fields_le (fields : List (String × Value)) :
    (commaSeparated (fields.map fieldText)).length ≤ (Value.object fields).print.length := by
  rw [Value.print, List.length_cons, List.length_append, printFields_eq_map]
  omega

theorem length_le_of_mem_items {item : Value} (h : item ∈ items) :
    item.print.length ≤ (Value.list items).print.length :=
  (length_le_of_mem (List.mem_map_of_mem h)).trans (length_items_le items)

theorem length_le_of_mem_fields {field : String × Value} (h : field ∈ fields) :
    field.2.print.length ≤ (Value.object fields).print.length := by
  have htext := (length_le_of_mem (List.mem_map_of_mem h)).trans (length_fields_le fields)
  rw [fieldText, List.length_append, List.length_cons] at htext
  omega

theorem takeValue?_list (count depth : Nat) (items : List Value) (rest : Bytes) :
    takeValue? count (depth + 1) ((Value.list items).print ++ rest) =
      (takeGroup (takeValue? count depth) 93 count
        (commaSeparated (items.map Value.print) ++ 93 :: rest)).map fun (items, rest) =>
          (.list items, rest) := by
  rw [Value.print, printItems_eq_map, List.cons_append, List.append_assoc, List.singleton_append,
    takeValue?, skipBlanks_of_startsItem (by decide)]
  rfl

theorem takeValue?_object (count depth : Nat) (fields : List (String × Value)) (rest : Bytes) :
    takeValue? count (depth + 1) ((Value.object fields).print ++ rest) =
      (takeGroup (takeField? (takeValue? count depth)) 125 count
        (commaSeparated (fields.map fieldText) ++ 125 :: rest)).map fun (fields, rest) =>
          (.object fields, rest) := by
  rw [Value.print, printFields_eq_map, List.cons_append, List.append_assoc, List.singleton_append,
    takeValue?, skipBlanks_of_startsItem (by decide)]
  rfl

end Nested

/-- A value reads back from the front of a text. -/
theorem takeValue?_print {depth : Nat} {value : Value} (h : value.Within depth) {count : Nat}
    (hcount : value.print.length ≤ count) {rest : Bytes} (hrest : EndsValue rest) :
    takeValue? count depth (value.print ++ rest) = some (value, rest) := by
  induction h generalizing rest with
  | null => exact takeValue?_scalar (by decide) (by decide) (by decide)
  | bool value => 
      cases value with
      | false => exact takeValue?_scalar (by decide) (by decide) (by decide)
      | true => exact takeValue?_scalar (by decide) (by decide) (by decide)
  | number hnumber =>
      rename_i number
      obtain ⟨first, tail, hcons, hfirst⟩ := exists_print_number hnumber
      obtain ⟨hitem, hmarks⟩ := startsItem_of_startsNumber first hfirst
      simp only [List.mem_cons, not_or] at hmarks
      have hread := takeNumber?_print hnumber hrest
      rw [Value.print]
      rw [hcons, List.cons_append] at hread ⊢
      rw [takeValue?_scalar hitem hmarks.left hmarks.right.left, takeScalar?_of_startsNumber hfirst,
        hread]
      rfl
  | text value =>
      rw [Value.print, quote_eq_cons, List.cons_append,
        takeValue?_scalar (by decide) (by decide) (by decide), takeScalar?, unquote_quote]
      rfl
  | list hitems ih =>
      rename_i depth items
      have hread (item : Value) (hitem : item ∈ items) (rest : Bytes) (hrest : EndsValue rest) :
          takeValue? count depth (item.print ++ rest) = some (item, rest) :=
        ih item hitem ((length_le_of_mem_items hitem).trans hcount) hrest
      have hstart (item : Value) (hitem : item ∈ items) := exists_print (hitems item hitem)
      have hgroup := takeGroup_commaSeparated (Or.inl rfl) hread hstart
        (length_le_of_printed hstart ((length_items_le items).trans hcount)) rest
      simp only [takeValue?_list, hgroup, Option.map_some]
  | object hfields ih =>
      rename_i depth fields
      have hread (field : String × Value) (hfield : field ∈ fields) (rest : Bytes)
          (hrest : EndsValue rest) :
          takeField? (takeValue? count depth) (fieldText field ++ rest) = some (field, rest) :=
        takeField?_fieldText
          (ih field hfield ((length_le_of_mem_fields hfield).trans hcount) hrest)
      have hstart (field : String × Value) (_ : field ∈ fields) := exists_fieldText field
      have hgroup := takeGroup_commaSeparated (Or.inr rfl) hread hstart
        (length_le_of_printed hstart ((length_fields_le fields).trans hcount)) rest
      simp only [takeValue?_object, hgroup, Option.map_some]

/-- The deepest values that are read back. -/
theorem parse?_print {value : Value} (h : value.Within maxDepth) : parse? value.print = some value := by
  have hread := takeValue?_print h (Nat.le_refl _) (Or.inl rfl)
  rw [List.append_nil] at hread
  rw [parse?, hread]
  rfl

theorem parse?_nil : parse? [] = none := rfl

end WalletAuth.Json
