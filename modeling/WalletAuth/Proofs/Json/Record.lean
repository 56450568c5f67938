import WalletAuth.Json.Record
import WalletAuth.Proofs.Json.Parser

/-! A record reads back from the compact text of its fields. The reader goes from field to field and
keeps what it has found, the last field first; no name comes twice, so none is refused. -/

namespace WalletAuth.Json

/-- Whether a kind of field reads a value from its text, whatever follows it. -/
def FieldKind.Reads (kind : FieldKind) (value : Value) : Prop :=
  ∀ rest, EndsValue rest → kind.take (value.print ++ rest) = .ok (value, rest)

theorem FieldKind.reads_text (value : String) : FieldKind.text.Reads (.text value) := by
  intro rest _
  rw [Value.print, quote_eq_cons, List.cons_append, FieldKind.take,
    skipBlanks_of_startsItem (by decide)]
  simp only [takeText, unquote_quote, orFault]
  rfl

/-- Fields that a record reads: each has a name and a value that the schema allows, and no name comes
twice. -/
structure Schema.Reads (schema : Schema) (fields : List (String × Value)) : Prop where
  value : ∀ field ∈ fields, ∃ kind, schema.lookup field.1 = some kind ∧ kind.Reads field.2
  distinct : (fields.map Prod.fst).Nodup

/-! ### One field -/

section Field

variable {schema : Schema} {found : List (String × Value)} {name : String} {value : Value}
  {kind : FieldKind}

theorem tail_fieldText_append (name : String) (value : Value) (rest : Bytes) :
    (fieldText (name, value)).tail ++ rest = (quote name).tail ++ 58 :: (value.print ++ rest) := by
  rw [fieldText, quote_eq_cons, List.cons_append, List.tail_cons, List.append_assoc,
    List.cons_append, List.tail_cons]

/-- A field in front of a closing mark is the last one. -/
theorem takeNamed_last (hkind : schema.lookup name = some kind) (hreads : kind.Reads value)
    (hnew : found.lookup name = none) (steps : Nat) (rest : Bytes) :
    takeNamed schema (steps + 1) found ((fieldText (name, value)).tail ++ 125 :: rest) =
      (collect ((name, value) :: found) schema).map fun values => (values, rest) := by
  have hcolon (rest : Bytes) : skipBlanks (58 :: rest) = 58 :: rest := rfl
  have hend : EndsValue (125 :: rest) := Or.inr ⟨125, rest, rfl, Or.inr (Or.inr rfl)⟩
  rw [tail_fieldText_append, takeNamed]
  simp only [unquote_quote, orFault, hcolon, hkind, hnew, hreads _ hend,
    skipBlanks_of_endsValue hend, bind, Except.bind, pure, Except.pure]
  rfl

/-- Behind a field in front of a comma, reading goes on with the next one. -/
theorem takeNamed_next (hkind : schema.lookup name = some kind) (hreads : kind.Reads value)
    (hnew : found.lookup name = none) (steps : Nat) (rest : Bytes) :
    takeNamed schema (steps + 1) found ((fieldText (name, value)).tail ++ 44 :: 34 :: rest) =
      takeNamed schema steps ((name, value) :: found) rest := by
  have hcolon (rest : Bytes) : skipBlanks (58 :: rest) = 58 :: rest := rfl
  have hquote : skipBlanks (34 :: rest) = 34 :: rest := rfl
  have hend : EndsValue (44 :: 34 :: rest) := Or.inr ⟨44, _, rfl, Or.inl rfl⟩
  rw [tail_fieldText_append, takeNamed]
  simp only [unquote_quote, orFault, hcolon, hquote, hkind, hnew, hreads _ hend,
    skipBlanks_of_endsValue hend, bind, Except.bind, pure, Except.pure]
  rfl

end Field

/-! ### All fields -/

section Record

variable {schema : Schema} {fields found : List (String × Value)}

/-- The fields of an object start with the quote of the first name. -/
theorem commaSeparated_fieldText_eq_cons (field : String × Value) (fields : List (String × Value)) :
    commaSeparated ((field :: fields).map fieldText) =
      34 :: (commaSeparated ((field :: fields).map fieldText)).tail := by
  obtain ⟨tail, hcons⟩ := exists_commaSeparated_cons (fieldText field) (fields.map fieldText)
  rw [List.map_cons, hcons]
  rfl

theorem tail_commaSeparated_cons (field next : String × Value) (others : List (String × Value))
    (rest : Bytes) :
    (commaSeparated ((field :: next :: others).map fieldText)).tail ++ rest =
      (fieldText field).tail ++
        44 :: 34 :: ((commaSeparated ((next :: others).map fieldText)).tail ++ rest) := by
  have hfield : fieldText field = 34 :: (fieldText field).tail := rfl
  rw [← List.cons_append, ← commaSeparated_fieldText_eq_cons, List.map_cons, List.map_cons,
    commaSeparated, ← List.map_cons, hfield, List.cons_append, List.tail_cons, List.tail_cons,
    List.append_assoc, List.cons_append]
  simp

/-- What is found at the end are all fields, whatever the reader had found before them. -/
theorem takeNamed_commaSeparated {steps : Nat} (h : schema.Reads fields)
    (hnew : ∀ field ∈ fields, found.lookup field.1 = none) (hne : fields ≠ [])
    (hsteps : fields.length ≤ steps) (rest : Bytes) :
    takeNamed schema steps found
        ((commaSeparated (fields.map fieldText)).tail ++ 125 :: rest) =
      (collect (fields.reverse ++ found) schema).map fun values => (values, rest) := by
  induction fields generalizing steps found with
  | nil => exact absurd rfl hne
  | cons field fields ih =>
      obtain ⟨steps, rfl⟩ : ∃ fewer, steps = fewer + 1 :=
        Nat.exists_eq_succ_of_ne_zero (by simp at hsteps; omega)
      obtain ⟨kind, hkind, hreads⟩ := h.value field List.mem_cons_self
      have hfresh := hnew field List.mem_cons_self
      cases fields with
      | nil => exact takeNamed_last hkind hreads hfresh steps rest
      | cons next others =>
          obtain ⟨hnotin, hdistinct⟩ := List.nodup_cons.mp h.distinct
          have hothers : schema.Reads (next :: others) :=
            ⟨fun other hother => h.value other (List.mem_cons_of_mem _ hother), hdistinct⟩
          have hunseen : ∀ other ∈ next :: others,
              (field :: found).lookup other.1 = none := by
            intro other hother
            have hname : other.1 ≠ field.1 :=
              fun heq => hnotin (heq ▸ List.mem_map_of_mem hother)
            rw [List.lookup_cons, beq_eq_false_iff_ne.mpr hname]
            exact hnew other (List.mem_cons_of_mem _ hother)
          rw [tail_commaSeparated_cons, takeNamed_next hkind hreads hfresh,
            ih hothers hunseen (List.cons_ne_nil next others) (Nat.le_of_succ_le_succ hsteps),
            @List.reverse_cons _ field, List.append_assoc, List.singleton_append]

/-- What is read from the compact text of an object are its fields. -/
theorem readRecord_print (h : schema.Reads fields) :
    readRecord schema (Value.print (.object fields)) = collect fields.reverse schema := by
  have hrecord : takeRecord schema (Value.print (.object fields)) =
      (collect fields.reverse schema).map fun values => (values, []) := by
    rw [Value.print, printFields_eq_map, takeRecord, skipBlanks_of_startsItem (by decide)]
    cases fields with
    | nil => rfl
    | cons field fields =>
        have hsteps : (field :: fields).length ≤
            (commaSeparated ((field :: fields).map fieldText) ++ [125]).length := by
          have hlength := length_le_of_printed (fun other _ => exists_fieldText other)
            (Nat.le_refl (commaSeparated ((field :: fields).map fieldText)).length)
          rw [List.length_append]
          omega
        have hnamed := @takeNamed_commaSeparated schema (field :: fields) [] _ h (fun _ _ => rfl)
          (List.cons_ne_nil field fields) hsteps []
        rw [List.append_nil] at hnamed
        rw [← hnamed, commaSeparated_fieldText_eq_cons, List.cons_append]
        rfl
  rw [readRecord, hrecord]
  cases collect fields.reverse schema <;> rfl

end Record

end WalletAuth.Json
