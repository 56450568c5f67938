import Mathlib.Data.List.TakeWhile
import WalletAuth.Http.Target
import WalletAuth.Proofs.Bytes

/-! The query of a target. A target may be a mere path or an absolute location: what follows the first
question mark is its query. -/

namespace WalletAuth.Http.Target

/-- Whether a character ends a path: a question mark or a number sign. -/
def EndsPath (char : UInt8) : Prop :=
  char = 63 ∨ char = 35

instance : DecidablePred EndsPath :=
  fun _ => inferInstanceAs (Decidable (_ ∨ _))

theorem not_endsPath_of_isPathChar {char : UInt8} (h : isPathChar char = true) : ¬EndsPath char := by
  rintro (rfl | rfl)
  · exact absurd h (by decide)
  · exact absurd h (by decide)

theorem ne_of_isQueryChar {char : UInt8} (h : isQueryChar char = true) : char ≠ 35 := by
  rintro rfl
  exact absurd h (by decide)

section Query

variable {query text : Bytes} {target : Target}

/-- A path and a query are read as they are joined. -/
theorem pathAndQuery?_append {path : Bytes} (hpath : ∀ char ∈ path, ¬EndsPath char)
    (hquery : ∀ char ∈ query, char ≠ 35) :
    pathAndQuery? (path ++ 63 :: query) =
      if (path.all isPathChar ∧ (Bytes.toString? (path ++ 63 :: query)).isSome) ∧
          query.all isQueryChar then
        some ⟨if path.isEmpty then [47] else path, some query⟩
      else none := by
  have hends : ∀ char ∈ path, decide (char ≠ 63 ∧ char ≠ 35) = true := fun char hchar =>
    decide_eq_true (not_or.mp (hpath char hchar))
  have hfront : (path ++ 63 :: query).takeWhile (fun char => decide (char ≠ 63 ∧ char ≠ 35)) =
      path := by
    rw [List.takeWhile_append_of_pos hends]
    simp
  have hrest : (path ++ 63 :: query).drop path.length = 63 :: query := List.drop_left
  have hwhole : query.takeWhile (fun char => decide (char ≠ 35)) = query :=
    List.takeWhile_eq_self_iff.mpr fun char hchar => decide_eq_true (hquery char hchar)
  have hkept : (path ++ 63 :: query).takeWhile (fun char => decide (char ≠ 35)) =
      path ++ 63 :: query := by
    refine List.takeWhile_eq_self_iff.mpr ?_
    rw [List.forall_mem_append, List.forall_mem_cons]
    exact ⟨fun char hchar => decide_eq_true fun h => hpath char hchar (Or.inr h), by decide,
      fun char hchar => decide_eq_true (hquery char hchar)⟩
  simp only [pathAndQuery?, hfront, hrest, hwhole, hkept]
  by_cases hread : path.all isPathChar ∧ (Bytes.toString? (path ++ 63 :: query)).isSome
  · rw [if_pos hread]
    simp only [hread, and_self, true_and]
  · rw [if_neg hread, if_neg fun hall => hread hall.left]

/-- A text whose first question mark stands in front of a query, with no fragment anywhere. -/
def EndsIn (query text : Bytes) : Prop :=
  (∀ char ∈ query, char ≠ 35) ∧
    ∃ front, (∀ char ∈ front, ¬EndsPath char) ∧ text = front ++ 63 :: query

theorem EndsIn.mem (h : EndsIn query text) : 63 ∈ text := by
  obtain ⟨-, front, -, rfl⟩ := h
  simp

/-- The query stays if something in front of it is passed over. -/
theorem EndsIn.of_append {lead rest : Bytes} (h : EndsIn query (lead ++ rest))
    (hlead : ∀ char ∈ lead, char ≠ 63) : EndsIn query rest := by
  obtain ⟨hquery, front, hfront, htext⟩ := h
  rcases List.append_eq_append_iff.mp htext with ⟨more, rfl, hrest⟩ | ⟨passed, rfl, hrest⟩
  · exact ⟨hquery, more, fun char hchar => hfront char (List.mem_append_right lead hchar), hrest⟩
  · -- What is passed over ends in front of the question mark.
    cases passed with
    | nil => exact ⟨hquery, [], fun _ hchar => absurd hchar List.not_mem_nil, hrest.symm⟩
    | cons char passed =>
        obtain ⟨rfl, -⟩ := List.cons.inj hrest
        exact absurd rfl (hlead 63 (List.mem_append_right front List.mem_cons_self))

theorem query_of_pathAndQuery? (h : EndsIn query text) (hread : pathAndQuery? text = some target) :
    target.query = some query := by
  obtain ⟨hquery, front, hfront, rfl⟩ := h
  rw [pathAndQuery?_append hfront hquery, Option.ite_none_right_eq_some] at hread
  rw [← Option.some.inj hread.right]

theorem query_of_absolute? (h : EndsIn query text) (hread : absolute? text = some target) :
    target.query = some query := by
  simp only [absolute?, Option.ite_none_right_eq_some] at hread
  have hsplit : text.takeWhile (!endsAuthority ·) ++ text.dropWhile (!endsAuthority ·) = text :=
    List.takeWhile_append_dropWhile
  have hauthority : ∀ char ∈ text.takeWhile (!endsAuthority ·), char ≠ 63 := by
    rintro char hchar rfl
    exact absurd (List.all_eq_true.mp List.all_takeWhile 63 hchar) (by decide)
  generalize text.takeWhile (!endsAuthority ·) = authority at hsplit hauthority hread
  rw [← hsplit] at h hread
  rw [List.drop_left] at hread
  exact query_of_pathAndQuery? (h.of_append hauthority) hread.right

theorem splitScheme?_eq_some {scheme rest : Bytes} (h : splitScheme? text = some (scheme, rest)) :
    text = (scheme ++ [58, 47, 47]) ++ rest ∧ ∀ char ∈ scheme, isSchemeChar char = true := by
  have hsplit : text.takeWhile isSchemeChar ++ text.dropWhile isSchemeChar = text :=
    List.takeWhile_append_dropWhile
  rw [splitScheme?] at h
  split at h
  · rename_i tail hdrop
    obtain ⟨rfl, rfl⟩ := Prod.mk.inj (Option.some.inj h)
    refine ⟨?_, List.all_eq_true.mp List.all_takeWhile⟩
    rw [hdrop] at hsplit
    rw [List.append_assoc]
    exact hsplit.symm
  · exact absurd h (by simp)

/-- Whatever stands in front of it, the query of a target is read as it is written. -/
theorem query_of_parse? (h : EndsIn query text) (hread : parse? text = some target) :
    target.query = some query := by
  unfold parse? at hread
  rw [Option.ite_none_right_eq_some] at hread
  replace hread := hread.right
  split at hread
  · exact absurd hread (by simp)
  · exact absurd h.mem (by decide)
  · exact query_of_pathAndQuery? h hread
  · split at hread
    · rename_i scheme rest hscheme
      rw [Option.ite_none_right_eq_some] at hread
      obtain ⟨rfl, hchars⟩ := splitScheme?_eq_some hscheme
      refine query_of_absolute? (h.of_append ?_) hread.right
      rintro char hchar rfl
      rcases List.mem_append.mp hchar with hscheme | hmark
      · exact absurd (hchars 63 hscheme) (by decide)
      · exact absurd hmark (by decide)
    · rw [Option.ite_none_right_eq_some, Bool.and_eq_true] at hread
      exact absurd (List.all_eq_true.mp hread.left.left 63 h.mem) (by decide)

/-- A mere path with a query is read if it is text and not too long. -/
theorem exists_parse?_iff {path : Bytes} (hpath : ∀ char ∈ path, isPathChar char = true)
    (hquery : ∀ char ∈ query, isQueryChar char = true) :
    (∃ target, parse? (47 :: path ++ 63 :: query) = some target) ↔
      (47 :: path ++ 63 :: query).length ≤ maxLength ∧ Bytes.IsText (47 :: path ++ 63 :: query) := by
  have hall : ∀ char ∈ 47 :: path, isPathChar char = true :=
    List.forall_mem_cons.mpr ⟨by decide, hpath⟩
  have hread : (∃ target, pathAndQuery? (47 :: path ++ 63 :: query) = some target) ↔
      Bytes.IsText (47 :: path ++ 63 :: query) := by
    rw [pathAndQuery?_append (fun char hchar => not_endsPath_of_isPathChar (hall char hchar))
      (fun char hchar => ne_of_isQueryChar (hquery char hchar)), ← Bytes.isSome_toString?_iff]
    simp only [List.all_eq_true.mpr hall, List.all_eq_true.mpr hquery, true_and, and_true,
      Option.ite_none_right_eq_some, exists_and_left, Option.some.injEq, exists_eq']
  have hparse : parse? (47 :: path ++ 63 :: query) =
      if (47 :: path ++ 63 :: query).length ≤ maxLength then
        pathAndQuery? (47 :: path ++ 63 :: query)
      else none := rfl
  rw [hparse, ← hread]
  split_ifs with hlength
  · exact (and_iff_right hlength).symm
  · exact iff_of_false (by simp) fun h => hlength h.left

end Query

end WalletAuth.Http.Target
