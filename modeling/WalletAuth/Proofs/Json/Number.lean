import WalletAuth.Json.Number
import WalletAuth.Proofs.Number.Decimal

/-! Integers read back from compact text. What follows a number there cannot be taken for more of
it: nothing, a comma or a closing mark. -/

namespace WalletAuth.Json

open Decimal (digits digitValue isDigit)

/-- What may follow a value in compact text: nothing, a comma or a closing mark. -/
def EndsValue (rest : Bytes) : Prop :=
  rest = [] ∨ ∃ mark tail, rest = mark :: tail ∧ (mark = 44 ∨ mark = 93 ∨ mark = 125)

/-! ### Parts of a number -/

/-- Splits the text of a number behind its sign off the front. -/
def takeUnsigned? (isNegative : Bool) (input : Bytes) : Option (NumberText × Bytes) :=
  (takeDigits? input).bind fun (whole, rest) =>
    if whole.head? = some 48 ∧ whole ≠ [48] then none
    else
      (takeFraction? rest).bind fun (fraction, rest) =>
        (takePower? rest).map fun (power, rest) => (⟨isNegative, whole, fraction, power⟩, rest)

theorem take?_of_ne_minus {input : Bytes} (h : ∀ rest, input ≠ 45 :: rest) :
    NumberText.take? input = takeUnsigned? false input := by
  unfold NumberText.take?
  split
  rename_i isNegative unsigned hsign
  split at hsign
  · exact absurd rfl (h _)
  · obtain ⟨rfl, rfl⟩ := Prod.mk.inj hsign
    rfl

section Parts

variable {value : Nat} {rest : Bytes} (hrest : EndsValue rest)

include hrest

theorem takeDigits?_digits : takeDigits? (digits value ++ rest) = some (digits value, rest) := by
  have hdigits : ∀ char ∈ digits value, isDigit char = true :=
    fun char hchar => Decimal.isDigit_of_mem_digits hchar
  have hends : rest.takeWhile isDigit = [] ∧ rest.dropWhile isDigit = rest := by
    rcases hrest with rfl | ⟨mark, tail, rfl, rfl | rfl | rfl⟩ <;> exact ⟨rfl, rfl⟩
  rw [takeDigits?, List.takeWhile_append_of_pos hdigits, List.dropWhile_append_of_pos hdigits,
    hends.left, hends.right, List.append_nil]
  simp [Decimal.digits_ne_nil]

theorem takeFraction?_of_endsValue : takeFraction? rest = some (none, rest) := by
  rcases hrest with rfl | ⟨mark, tail, rfl, rfl | rfl | rfl⟩ <;> rfl

theorem takePower?_of_endsValue : takePower? rest = some (none, rest) := by
  rcases hrest with rfl | ⟨mark, tail, rfl, rfl | rfl | rfl⟩ <;> rfl

theorem takeUnsigned?_digits (isNegative : Bool) :
    takeUnsigned? isNegative (digits value ++ rest) =
      some (⟨isNegative, digits value, none, none⟩, rest) := by
  have hzero : ¬((digits value).head? = some 48 ∧ digits value ≠ [48]) :=
    fun h => h.right (Decimal.head_digits_eq_zero h.left)
  simp only [takeUnsigned?, takeDigits?_digits hrest, Option.bind_some, if_neg hzero,
    takeFraction?_of_endsValue hrest, takePower?_of_endsValue hrest, Option.map_some]

theorem take?_digits :
    NumberText.take? (digits value ++ rest) = some (⟨false, digits value, none, none⟩, rest) := by
  obtain ⟨first, others, hcons⟩ := List.exists_cons_of_ne_nil (Decimal.digits_ne_nil value)
  rw [take?_of_ne_minus, takeUnsigned?_digits hrest]
  intro tail hminus
  rw [hcons, List.cons_append] at hminus
  have hmem : first ∈ digits value := hcons ▸ List.mem_cons_self
  have hdigit : isDigit first = true := Decimal.isDigit_of_mem_digits hmem
  rw [(List.cons.inj hminus).left] at hdigit
  exact absurd hdigit (by decide)

theorem take?_minus_digits :
    NumberText.take? (45 :: digits value ++ rest) =
      some (⟨true, digits value, none, none⟩, rest) :=
  takeUnsigned?_digits hrest true

end Parts

/-! ### Values -/

theorem le_foldl_digits (read : Nat) (chars : Bytes) :
    read ≤ chars.foldl (fun value char => value * 10 + digitValue char) read := by
  induction chars generalizing read with
  | nil => exact Nat.le_refl read
  | cons char chars ih =>
      have hnext := ih (read * 10 + digitValue char)
      rw [List.foldl_cons]
      omega

/-- As long as the number fits, no digit is left over. -/
theorem gather_of_le {significand : Nat} {chars : Bytes}
    (h : chars.foldl (fun value char => value * 10 + digitValue char) significand ≤
      maxSignificand) :
    gather significand chars =
      (chars.foldl (fun value char => value * 10 + digitValue char) significand, []) := by
  induction chars generalizing significand with
  | nil => rfl
  | cons char chars ih =>
      have hnext := (le_foldl_digits (significand * 10 + digitValue char) chars).trans h
      simp only [gather, if_pos hnext]
      exact ih h

theorem gather_digits {value : Nat} (h : value < 2 ^ 64) : gather 0 (digits value) = (value, []) := by
  have hvalue := Decimal.ofDigits_digits value
  rw [Decimal.ofDigits] at hvalue
  rw [gather_of_le (by rw [hvalue]; exact Nat.le_sub_one_of_lt h), hvalue]

/-- The numbers that are written as integers and read as such. -/
inductive Number.IsInteger : Number → Prop
  | natural {value : Nat} (h : value < 2 ^ 64) : IsInteger (.natural value)
  | negative {magnitude : Nat} (hne : magnitude ≠ 0) (h : magnitude ≤ 2 ^ 63) :
      IsInteger (.negative magnitude)

/-- Integers read back. -/
theorem takeNumber?_print {number : Number} (h : number.IsInteger) {rest : Bytes}
    (hrest : EndsValue rest) : takeNumber? (number.print ++ rest) = some (number, rest) := by
  cases h with
  | natural hvalue =>
      rw [takeNumber?, Number.print, take?_digits hrest]
      simp [NumberText.value?, gather_digits hvalue]
  | negative hne hmagnitude =>
      have hvalue := gather_digits (hmagnitude.trans_lt (by decide))
      rw [takeNumber?, Number.print, take?_minus_digits hrest]
      simpa [NumberText.value?, hvalue, hne] using hmagnitude

end WalletAuth.Json
