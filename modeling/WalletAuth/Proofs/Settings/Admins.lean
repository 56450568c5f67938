import Mathlib.Data.List.Forall2
import WalletAuth.Proofs.Text.Blank
import WalletAuth.Settings.Admins

/-! Reading an admin list. The lists of two texts with a comma between them are read one after the
other, so a list is known from the pieces between its commas: a piece of white space gives nothing,
and any other gives what trimming leaves of it. What is read is a normal form: written with commas
again, it is read again as it is. -/

namespace WalletAuth.Admins

open Text (IsBlankText IsTrimmed isBlank trimList)

/-- What an admin list can hold: a text that is not empty, without a comma in it and without white
space at its ends. -/
structure IsEntry (entry : String) : Prop where
  ne_empty : entry ≠ ""
  no_comma : ',' ∉ entry.toList
  isTrimmed : IsTrimmed entry.toList

instance : DecidablePred IsEntry := fun entry =>
  decidable_of_iff (entry ≠ "" ∧ ',' ∉ entry.toList ∧ IsTrimmed entry.toList)
    ⟨fun h => ⟨h.left, h.right.left, h.right.right⟩,
      fun h => ⟨h.ne_empty, h.no_comma, h.isTrimmed⟩⟩

/-- An entry with nothing but white space around it. -/
def Pads (text entry : String) : Prop :=
  ∃ lead trail, IsBlankText lead ∧ IsBlankText trail ∧ text.toList = lead ++ entry.toList ++ trail

variable {chars piece : List Char} {text entry : String}

/-! ### Pieces -/

/-- What holds of texts without a comma and is kept by a comma between two texts holds of all. -/
theorem pieces_induction {P : List Char → Prop} (single : ∀ piece, ',' ∉ piece → P piece)
    (append : ∀ first rest, P first → P rest → P (first ++ ',' :: rest)) (chars : List Char) :
    P chars := by
  induction hlength : chars.length using Nat.strongRecOn generalizing chars with
  | ind length ih =>
      by_cases hcomma : ',' ∈ chars
      -- cut at the first comma, so that the text in front of it has none
      · obtain ⟨first, rest, rfl, hfirst⟩ := List.eq_append_cons_of_mem hcomma
        refine append first rest (single first hfirst) (ih rest.length ?_ rest rfl)
        rw [← hlength, List.length_append, List.length_cons]
        omega
      · exact single chars hcomma

theorem parseList_append (first rest : List Char) :
    parseList (first ++ ',' :: rest) = parseList first ++ parseList rest := by
  rw [parseList, List.splitOn_append_cons_self, List.map_append, List.filter_append]
  rfl

theorem comma_notMem_of_isBlankText (h : IsBlankText piece) : ',' ∉ piece :=
  fun hcomma => absurd (h ',' hcomma) (by decide)

theorem parseList_of_isBlankText (h : IsBlankText piece) : parseList piece = [] := by
  rw [parseList, List.splitOn_eq_singleton (comma_notMem_of_isBlankText h), List.map_singleton,
    Text.trimList_eq_nil_iff.mpr h]
  rfl

theorem parseList_of_not_isBlankText (hcomma : ',' ∉ piece) (h : ¬IsBlankText piece) :
    parseList piece = [trimList piece] := by
  have hne : trimList piece ≠ [] := mt Text.trimList_eq_nil_iff.mp h
  rw [parseList, List.splitOn_eq_singleton hcomma, List.map_singleton]
  simpa using hne

/-! ### Entries -/

theorem isEntry_trimList (hcomma : ',' ∉ piece) (h : ¬IsBlankText piece) :
    IsEntry (String.ofList (trimList piece)) where
  ne_empty := mt String.ofList_eq_empty_iff.mp (mt Text.trimList_eq_nil_iff.mp h)
  no_comma := by
    rw [String.toList_ofList]
    exact fun hmem => hcomma (Text.mem_of_mem_trimList hmem)
  isTrimmed := by
    rw [String.toList_ofList]
    exact Text.isTrimmed_trimList piece

theorem isEntry_of_mem_parseList (h : piece ∈ parseList chars) : IsEntry (String.ofList piece) := by
  induction chars using pieces_induction with
  | single chars hcomma =>
      by_cases hblank : IsBlankText chars
      · rw [parseList_of_isBlankText hblank] at h
        exact absurd h List.not_mem_nil
      · rw [parseList_of_not_isBlankText hcomma hblank, List.mem_singleton] at h
        exact h ▸ isEntry_trimList hcomma hblank
  | append first rest ihfirst ihrest =>
      rw [parseList_append, List.mem_append] at h
      exact h.elim ihfirst ihrest

theorem isEntry_of_mem_parse (h : entry ∈ parse text) : IsEntry entry := by
  obtain ⟨chars, hchars, rfl⟩ := List.mem_map.mp h
  exact isEntry_of_mem_parseList hchars

/-- Commas and white space are all that a list without entries consists of. -/
theorem parseList_eq_nil_iff :
    parseList chars = [] ↔ ∀ char ∈ chars, char = ',' ∨ isBlank char = true := by
  induction chars using pieces_induction with
  | single piece hcomma =>
      have hblanks : (∀ char ∈ piece, char = ',' ∨ isBlank char = true) ↔ IsBlankText piece :=
        forall₂_congr fun char hchar => or_iff_right fun heq => hcomma (heq ▸ hchar)
      rw [hblanks]
      by_cases hblank : IsBlankText piece
      · exact iff_of_true (parseList_of_isBlankText hblank) hblank
      · rw [parseList_of_not_isBlankText hcomma hblank]
        exact iff_of_false (List.cons_ne_nil _ _) hblank
  | append first rest ihfirst ihrest =>
      rw [parseList_append, List.append_eq_nil_iff, ihfirst, ihrest, List.forall_mem_append,
        List.forall_mem_cons]
      simp

theorem parse_append_comma (first rest : String) :
    parse (first ++ "," ++ rest) = parse first ++ parse rest := by
  have hchars : (first ++ "," ++ rest).toList = first.toList ++ ',' :: rest.toList := by
    simp
  rw [parse, hchars, parseList_append, List.map_append]
  rfl

/-- The list of joined texts is what their lists are together. -/
theorem parse_join (texts : List String) : parse (join texts) = texts.flatMap parse := by
  induction texts with
  | nil => rfl
  | cons text texts ih =>
      cases texts with
      | nil => simp [join]
      | cons next texts =>
          rw [join, String.intercalate_cons_cons, parse_append_comma, List.flatMap_cons, ← ih]
          rfl

theorem parse_of_pads (hentry : IsEntry entry) (h : Pads text entry) : parse text = [entry] := by
  obtain ⟨lead, trail, hlead, htrail, htext⟩ := h
  have hcomma : ',' ∉ text.toList := by
    rw [htext]
    simp [comma_notMem_of_isBlankText hlead, comma_notMem_of_isBlankText htrail, hentry.no_comma]
  have htrim : trimList text.toList = entry.toList := by
    rw [htext, Text.trimList_append hlead htrail hentry.isTrimmed]
  have hblank : ¬IsBlankText text.toList := by
    rw [← Text.trimList_eq_nil_iff, htrim, String.toList_eq_nil_iff]
    exact hentry.ne_empty
  rw [parse, parseList_of_not_isBlankText hcomma hblank, htrim, List.map_singleton,
    String.ofList_toList]

theorem pads_self (entry : String) : Pads entry entry :=
  ⟨[], [], by simp [IsBlankText], by simp [IsBlankText], by simp⟩

/-- Entries are read from what is joined of them, whatever white space is put around them. -/
theorem parse_join_of_pads {texts entries : List String} (hentries : ∀ entry ∈ entries, IsEntry entry)
    (h : List.Forall₂ Pads texts entries) : parse (join texts) = entries := by
  rw [parse_join]
  induction h with
  | nil => rfl
  | cons hpads _ ih =>
      rw [List.forall_mem_cons] at hentries
      rw [List.flatMap_cons, parse_of_pads hentries.left hpads, ih hentries.right]
      rfl

/-- Reading brings an admin list into a normal form. What is read are entries; a comma puts lists one
behind the other, with their order and repetitions; what was read is read again from its entries
joined by commas, and so is every list of entries, with white space around them or not. Nothing is
read only where there is nothing but commas and white space. -/
theorem parse_normalForm (text : String) :
    (∀ entry ∈ parse text, IsEntry entry) ∧
      (∀ other, parse (text ++ "," ++ other) = parse text ++ parse other) ∧
      parse (join (parse text)) = parse text ∧
      (∀ entries texts, (∀ entry ∈ entries, IsEntry entry) → List.Forall₂ Pads texts entries →
        parse (join texts) = entries) ∧
      (parse text = [] ↔ ∀ char ∈ text.toList, char = ',' ∨ isBlank char = true) := by
  refine ⟨fun _ => isEntry_of_mem_parse, parse_append_comma text, ?_,
    fun _ _ => parse_join_of_pads, ?_⟩
  · exact parse_join_of_pads (fun _ => isEntry_of_mem_parse)
      (List.forall₂_same.mpr fun entry _ => pads_self entry)
  · rw [parse, List.map_eq_nil_iff, parseList_eq_nil_iff]

/-- Three names in white space of several kinds, one of them twice, and a list of nothing. -/
theorem parse_normalForm_spaced :
    let texts := ["\tadmin 1\u00a0", "\u3000admin2", "admin2 "]
    let entries := ["admin 1", "admin2", "admin2"]
    (∀ entry ∈ entries, IsEntry entry) ∧ List.Forall₂ Pads texts entries ∧
      parse (join texts) = entries ∧ parse " ,\u2003," = [] := by
  intro texts entries
  have hentries : ∀ entry ∈ entries, IsEntry entry := by decide
  have hfirst : Pads "\tadmin 1\u00a0" "admin 1" := ⟨['\t'], ['\u00a0'], by decide, by decide, rfl⟩
  have hsecond : Pads "\u3000admin2" "admin2" := ⟨['\u3000'], [], by decide, by decide, rfl⟩
  have hthird : Pads "admin2 " "admin2" := ⟨[], [' '], by decide, by decide, rfl⟩
  have hpads : List.Forall₂ Pads texts entries :=
    .cons hfirst (.cons hsecond (.cons hthird .nil))
  obtain ⟨-, -, -, hread, -⟩ := parse_normalForm ""
  obtain ⟨-, -, -, -, hnothing⟩ := parse_normalForm " ,\u2003,"
  exact ⟨hentries, hpads, hread entries texts hentries hpads, hnothing.mpr (by simp [isBlank, Text.blankRanges])⟩

end WalletAuth.Admins
