import WalletAuth.Number.Decimal
import WalletAuth.Proofs.Bytes

/-! Decimal digits read back as the number they were written for, and no number but zero is written
with a leading zero. -/

namespace WalletAuth.Decimal

theorem isDigit_ofNat : ∀ value < 10, isDigit (UInt8.ofNat (48 + value)) = true := by decide

theorem digitValue_ofNat : ∀ value < 10, digitValue (UInt8.ofNat (48 + value)) = value := by decide

theorem digits_of_lt {value : Nat} (h : value < 10) : digits value = [UInt8.ofNat (48 + value)] := by
  rw [digits, if_pos h]

theorem digits_of_ge {value : Nat} (h : 10 ≤ value) :
    digits value = digits (value / 10) ++ [UInt8.ofNat (48 + value % 10)] := by
  rw [digits, if_neg (by omega)]

/-- What holds of one digit and is kept by appending one holds of the digits of all numbers. -/
theorem digits_induction {P : Nat → Bytes → Prop}
    (single : ∀ value < 10, P value [UInt8.ofNat (48 + value)])
    (append : ∀ value, 10 ≤ value → P (value / 10) (digits (value / 10)) →
      P value (digits (value / 10) ++ [UInt8.ofNat (48 + value % 10)])) (value : Nat) :
    P value (digits value) := by
  induction value using Nat.strongRecOn with
  | ind value ih =>
      by_cases h : value < 10
      · rw [digits_of_lt h]
        exact single value h
      · rw [digits_of_ge (by omega)]
        exact append value (by omega) (ih (value / 10) (by omega))

theorem digits_ne_nil (value : Nat) : digits value ≠ [] := by
  rw [digits]
  split <;> simp

theorem isDigit_of_mem_digits {value : Nat} {char : UInt8} (h : char ∈ digits value) :
    isDigit char = true := by
  revert char
  induction value using digits_induction with
  | single value hvalue =>
      rintro char hchar
      rw [List.mem_singleton] at hchar
      exact hchar ▸ isDigit_ofNat value hvalue
  | append value _ ih =>
      rintro char hchar
      rcases List.mem_append.mp hchar with hchar | hchar
      · exact ih hchar
      · rw [List.mem_singleton] at hchar
        exact hchar ▸ isDigit_ofNat _ (by omega)

/-- The number of digits that are appended to a number already read. -/
theorem foldl_digits (value : Nat) :
    ∀ start, (digits value).foldl (fun read char => read * 10 + digitValue char) start =
      start * 10 ^ (digits value).length + value := by
  induction value using digits_induction with
  | single value hvalue =>
      intro start
      rw [List.foldl_cons, List.foldl_nil, digitValue_ofNat value hvalue, List.length_singleton,
        pow_one]
  | append value hvalue ih =>
      intro start
      have hlast := digitValue_ofNat (value % 10) (by omega)
      rw [List.foldl_append, ih, List.foldl_cons, List.foldl_nil, hlast, List.length_append,
        List.length_singleton, pow_succ, ← Nat.mul_assoc]
      omega

theorem ofDigits_digits (value : Nat) : ofDigits (digits value) = value := by
  rw [ofDigits, foldl_digits, Nat.zero_mul, Nat.zero_add]

theorem head_digits {value : Nat} (h : value ≠ 0) : (digits value).head? ≠ some 48 := by
  revert h
  induction value using digits_induction with
  | single value hvalue =>
      have hdigit : ∀ value < 10, value ≠ 0 → UInt8.ofNat (48 + value) ≠ 48 := by decide
      intro h
      simpa using hdigit value hvalue h
  | append value hvalue ih =>
      intro _
      obtain ⟨first, rest, hdigits⟩ := List.exists_cons_of_ne_nil (digits_ne_nil (value / 10))
      rw [hdigits] at ih ⊢
      exact ih (by omega)

/-- A leading zero stands alone. -/
theorem head_digits_eq_zero {value : Nat} (h : (digits value).head? = some 48) :
    digits value = [48] := by
  by_cases hvalue : value = 0
  · rw [hvalue, digits_of_lt (by decide)]
    rfl
  · exact absurd h (head_digits hvalue)

end WalletAuth.Decimal
