import Mathlib.Data.List.DropRight
import WalletAuth.Text.Blank

/-! Trimming takes off the white space around a text and nothing else: what it leaves has none at
either end, and a text that has none is what is left of it, whatever white space is put around
it. -/

namespace WalletAuth.Text

/-- Nothing but white space. -/
def IsBlankText (chars : List Char) : Prop :=
  ∀ char ∈ chars, isBlank char = true

/-- A text with no white space at either end. -/
structure IsTrimmed (chars : List Char) : Prop where
  head : ∀ char ∈ chars.head?, isBlank char = false
  last : ∀ char ∈ chars.getLast?, isBlank char = false

instance : DecidablePred IsBlankText :=
  fun chars => List.decidableBAll (fun char => isBlank char = true) chars

instance : DecidablePred IsTrimmed := fun chars =>
  decidable_of_iff ((chars.head?.all fun char => !isBlank char) = true ∧
      (chars.getLast?.all fun char => !isBlank char) = true) <| by
    simp only [Option.all_eq_true, Bool.not_eq_true']
    exact ⟨fun h => ⟨h.left, h.right⟩, fun h => ⟨h.head, h.last⟩⟩

variable {chars core lead trail : List Char}

theorem isTrimmed_of_all (h : ∀ char ∈ chars, isBlank char = false) : IsTrimmed chars where
  head char hchar := h char (List.mem_of_mem_head? hchar)
  last char hchar := h char (List.mem_of_mem_getLast? hchar)

/-- White space in front is dropped as far as it goes. -/
theorem dropWhile_isBlank_append (hlead : IsBlankText lead)
    (hhead : ∀ char ∈ chars.head?, isBlank char = false) :
    (lead ++ chars).dropWhile isBlank = chars := by
  rw [List.dropWhile_append_of_pos hlead]
  cases chars with
  | nil => rfl
  | cons char chars =>
      have hchar : isBlank char = false := hhead char rfl
      exact List.dropWhile_cons_of_neg (by simp [hchar])

theorem head?_dropWhile_isBlank (chars : List Char) :
    ∀ char ∈ (chars.dropWhile isBlank).head?, isBlank char = false := by
  intro char hchar
  have hne : chars.dropWhile isBlank ≠ [] := List.ne_nil_of_mem (List.mem_of_mem_head? hchar)
  rw [List.head?_eq_some_head hne, Option.mem_some] at hchar
  rw [← hchar]
  simpa using List.head_dropWhile_not isBlank hne

theorem trimList_append (hlead : IsBlankText lead) (htrail : IsBlankText trail)
    (hcore : IsTrimmed core) : trimList (lead ++ core ++ trail) = core := by
  have hlast : ∀ char ∈ core.reverse.head?, isBlank char = false := by
    rw [List.head?_reverse]
    exact hcore.last
  have hback : IsBlankText trail.reverse := by
    intro char hchar
    exact htrail char (List.mem_reverse.mp hchar)
  by_cases hempty : core = []
  · subst hempty
    have hblank : IsBlankText (lead ++ [] ++ trail) := by
      rw [List.append_nil]
      exact List.forall_mem_append.mpr ⟨hlead, htrail⟩
    rw [trimList, List.dropWhile_eq_nil_iff.mpr hblank]
    rfl
  · have hfront : (core ++ trail).head? = core.head? := List.head?_append_of_ne_nil _ hempty
    have hhead : ∀ char ∈ (core ++ trail).head?, isBlank char = false := hfront ▸ hcore.head
    rw [trimList, List.append_assoc, dropWhile_isBlank_append hlead hhead, List.reverse_append,
      dropWhile_isBlank_append hback hlast, List.reverse_reverse]

/-- A text is what trimming leaves of it between the white space that is taken off. -/
theorem exists_eq_append_trimList (chars : List Char) :
    ∃ lead trail, IsBlankText lead ∧ IsBlankText trail ∧
      chars = lead ++ trimList chars ++ trail := by
  refine ⟨chars.takeWhile isBlank, (chars.dropWhile isBlank).rtakeWhile isBlank, ?_, ?_, ?_⟩
  · exact fun char hchar => List.mem_takeWhile_imp hchar
  · exact fun char hchar => List.mem_rtakeWhile_imp hchar
  · calc chars = chars.takeWhile isBlank ++ chars.dropWhile isBlank :=
          List.takeWhile_append_dropWhile.symm
      _ = chars.takeWhile isBlank ++
            (trimList chars ++ (chars.dropWhile isBlank).rtakeWhile isBlank) := by
          rw [show trimList chars = (chars.dropWhile isBlank).rdropWhile isBlank from rfl,
            List.rdropWhile_append_rtakeWhile]
      _ = chars.takeWhile isBlank ++ trimList chars ++
            (chars.dropWhile isBlank).rtakeWhile isBlank := (List.append_assoc _ _ _).symm

theorem isTrimmed_trimList (chars : List Char) : IsTrimmed (trimList chars) where
  head := by
    intro char hchar
    obtain ⟨rest, hrest⟩ := List.rdropWhile_prefix isBlank (chars.dropWhile isBlank)
    apply head?_dropWhile_isBlank chars
    have hne : trimList chars ≠ [] := List.ne_nil_of_mem (List.mem_of_mem_head? hchar)
    rw [← hrest]
    exact (List.head?_append_of_ne_nil _ hne).symm ▸ hchar
  last := by
    intro char hchar
    rw [trimList, List.getLast?_reverse] at hchar
    exact head?_dropWhile_isBlank _ char hchar

/-- What trimming leaves is the one part without white space at its ends that stands between white
space. -/
theorem trimList_eq_iff :
    trimList chars = core ↔ IsTrimmed core ∧
      ∃ lead trail, IsBlankText lead ∧ IsBlankText trail ∧ chars = lead ++ core ++ trail := by
  constructor
  · rintro rfl
    exact ⟨isTrimmed_trimList chars, exists_eq_append_trimList chars⟩
  · rintro ⟨hcore, lead, trail, hlead, htrail, rfl⟩
    exact trimList_append hlead htrail hcore

theorem trimList_eq_nil_iff : trimList chars = [] ↔ IsBlankText chars := by
  constructor
  · intro h
    obtain ⟨-, lead, trail, hlead, htrail, rfl⟩ := trimList_eq_iff.mp h
    rw [List.append_nil]
    exact List.forall_mem_append.mpr ⟨hlead, htrail⟩
  · intro h
    exact trimList_eq_iff.mpr ⟨isTrimmed_of_all (by simp), chars, [], h, by simp [IsBlankText],
      by simp⟩

theorem mem_of_mem_trimList {char : Char} (h : char ∈ trimList chars) : char ∈ chars := by
  obtain ⟨lead, trail, -, -, hchars⟩ := exists_eq_append_trimList chars
  rw [hchars]
  exact List.mem_append_left _ (List.mem_append_right _ h)

end WalletAuth.Text
