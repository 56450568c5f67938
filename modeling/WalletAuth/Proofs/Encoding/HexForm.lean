import Mathlib.Data.Nat.Digits.Defs
import WalletAuth.Proofs.Encoding.Hex

/-! The hexadecimal form said without reader and writer: digits of either case, two for each byte,
that write in base 16 the number that the bytes write in base 256. A text is the form of at most one
byte string, what the writer makes is the form of its bytes in lower case, and what the reader
refuses is of odd length or has a character that is no digit. -/

namespace WalletAuth.Hex

/-! ### Digits -/

/-- The digits in the order of their values. -/
def alphabet : Bytes :=
  Bytes.ofString "0123456789abcdef"

/-- A digit of either case. -/
def IsDigit (char : UInt8) : Prop :=
  char ∈ Bytes.ofString "0123456789abcdefABCDEF"

instance : DecidablePred IsDigit :=
  fun _ => inferInstanceAs (Decidable (_ ∈ Bytes.ofString _))

/-- Nothing but digits. -/
def IsDigits (text : Bytes) : Prop :=
  ∀ char ∈ text, IsDigit char

instance : DecidablePred IsDigits :=
  fun text => List.decidableBAll IsDigit text

/-- The value of a digit of either case. -/
def digitValue (char : UInt8) : Nat :=
  alphabet.idxOf (Http.lowerChar char)

variable {char : UInt8} {text bs others : Bytes}

theorem value?_eq :
    ∀ char, value? char = if IsDigit char then some (digitValue char) else none :=
  Bytes.forall_byte (by decide +kernel)

theorem value?_eq_some_iff {value : Nat} :
    value? char = some value ↔ IsDigit char ∧ digitValue char = value := by
  rw [value?_eq, Option.ite_none_right_eq_some, Option.some.injEq]

theorem isDigit_digit {value : Nat} (h : value < 16) : IsDigit (digit value) :=
  (value?_eq_some_iff.mp (value?_digit value h)).left

theorem digitValue_digit {value : Nat} (h : value < 16) : digitValue (digit value) = value :=
  (value?_eq_some_iff.mp (value?_digit value h)).right

theorem isDigit_lowerChar_iff : ∀ char, IsDigit (Http.lowerChar char) ↔ IsDigit char :=
  Bytes.forall_byte (by decide +kernel)

theorem digitValue_lowerChar (char : UInt8) :
    digitValue (Http.lowerChar char) = digitValue char := by
  rw [digitValue, lowerChar_lowerChar, digitValue]

/-- The number that digits write in base 16, the last one its units. -/
def numberOf (text : Bytes) : Nat :=
  Nat.ofDigits 16 (text.map digitValue).reverse

theorem numberOf_cons (char : UInt8) (text : Bytes) :
    numberOf (char :: text) = digitValue char * 16 ^ text.length + numberOf text := by
  rw [numberOf, List.map_cons, Nat.ofDigits_reverse_cons, List.length_map, Nat.add_comm,
    Nat.mul_comm]
  rfl

/-! ### The form -/

/-- A text of digits that writes the number of a byte string, with two digits for each byte. -/
structure IsForm (bs text : Bytes) : Prop where
  isDigits : IsDigits text
  length : text.length = 2 * bs.length
  number : numberOf text = bs.toNat

theorem numberOf_encode (bs : Bytes) : numberOf (encode bs) = bs.toNat := by
  induction bs with
  | nil => rfl
  | cons byte bs ih =>
      have hhigh : digitValue (digit (byte.toNat / 16)) = byte.toNat / 16 :=
        digitValue_digit (by have := byte.toNat_lt; omega)
      have hlow : digitValue (digit (byte.toNat % 16)) = byte.toNat % 16 :=
        digitValue_digit (Nat.mod_lt _ (by decide))
      have hpower : 16 ^ (encode bs).length = 256 ^ bs.length := by
        rw [length_encode, pow_mul]
        rfl
      calc numberOf (encode (byte :: bs)) =
          byte.toNat / 16 * 16 ^ ((encode bs).length + 1) +
            (byte.toNat % 16 * 16 ^ (encode bs).length + numberOf (encode bs)) := by
            rw [encode_cons, numberOf_cons, numberOf_cons, hhigh, hlow, List.length_cons]
        _ = (byte.toNat / 16 * 16 + byte.toNat % 16) * 256 ^ bs.length + Bytes.toNat bs := by
            rw [ih, pow_succ, hpower]
            ring
        _ = Bytes.toNat (byte :: bs) := by rw [Nat.div_add_mod', Bytes.toNat_cons]

theorem isForm_encode (bs : Bytes) : IsForm bs (encode bs) where
  isDigits char hchar := by
    obtain ⟨value, hvalue, rfl⟩ := mem_encode hchar
    exact isDigit_digit hvalue
  length := length_encode bs
  number := numberOf_encode bs

/-- The case of letters does not matter. -/
theorem isForm_map_lowerChar_iff : IsForm bs (text.map Http.lowerChar) ↔ IsForm bs text := by
  have hdigits : IsDigits (text.map Http.lowerChar) ↔ IsDigits text := by
    simp only [IsDigits, List.forall_mem_map, isDigit_lowerChar_iff]
  have hnumber : numberOf (text.map Http.lowerChar) = numberOf text := by
    rw [numberOf, List.map_map]
    simp only [Function.comp_def, digitValue_lowerChar, numberOf]
  constructor
  · exact fun h => ⟨hdigits.mp h.isDigits, by rw [← h.length, List.length_map], hnumber ▸ h.number⟩
  · exact fun h => ⟨hdigits.mpr h.isDigits, by rw [← h.length, List.length_map],
      hnumber.trans h.number⟩

/-- A text is the form of one byte string at most. -/
theorem IsForm.unique (h : IsForm bs text) (hothers : IsForm others text) : bs = others := by
  have hlength := h.length
  have hotherLength := hothers.length
  exact Bytes.toNat_injective (by omega) (h.number.symm.trans hothers.number)

/-! ### What is read -/

theorem decodeOnto_eq_none_iff {read : Bytes} :
    decodeOnto read text = none ↔ text.length % 2 = 1 ∨ ∃ char ∈ text, ¬IsDigit char := by
  -- what has been read plays no part in what becomes of the rest
  fun_induction decodeOnto read text with
  | case1 read => simp
  | case2 read high low rest highValue lowValue hlow hhigh ih =>
      obtain ⟨hhighDigit, -⟩ := value?_eq_some_iff.mp hhigh
      obtain ⟨hlowDigit, -⟩ := value?_eq_some_iff.mp hlow
      rw [ih, List.length_cons, List.length_cons, Nat.add_assoc, Nat.add_mod_right]
      simp only [List.exists_mem_cons_iff, hhighDigit, hlowDigit, not_true_eq_false, false_or]
  | case3 read high low rest hvalues =>
      refine iff_of_true rfl (Or.inr ?_)
      by_cases hhigh : IsDigit high
      · refine ⟨low, by simp, fun hlow => ?_⟩
        exact hvalues _ _ (value?_eq_some_iff.mpr ⟨hhigh, rfl⟩) (value?_eq_some_iff.mpr ⟨hlow, rfl⟩)
      · exact ⟨high, by simp, hhigh⟩
  | case4 => simp

/-- What is refused is of odd length or has a character that is no digit. -/
theorem decode?_eq_none_iff :
    decode? text = none ↔ text.length % 2 = 1 ∨ ∃ char ∈ text, ¬IsDigit char :=
  decodeOnto_eq_none_iff

theorem exists_decode? {length : Nat} (hdigits : IsDigits text)
    (hlength : text.length = 2 * length) : ∃ bs, decode? text = some bs := by
  rw [← Option.ne_none_iff_exists', ne_eq, decode?_eq_none_iff]
  rintro (hodd | ⟨char, hchar, hstray⟩)
  · omega
  · exact hstray (hdigits char hchar)

theorem isForm_of_decode? (h : decode? text = some bs) : IsForm bs text :=
  isForm_map_lowerChar_iff.mp (encode_of_decode? h ▸ isForm_encode bs)

/-- A byte string is read from its forms and from nothing else. -/
theorem decode?_eq_some_iff : decode? text = some bs ↔ IsForm bs text := by
  constructor
  · exact isForm_of_decode?
  · intro h
    obtain ⟨others, hothers⟩ := exists_decode? h.isDigits h.length
    rw [hothers, (isForm_of_decode? hothers).unique h]

/-- Digits of an even number are the form of half as many bytes. -/
theorem exists_isForm_iff {length : Nat} :
    (∃ bs, IsForm bs text ∧ bs.length = length) ↔
      IsDigits text ∧ text.length = 2 * length := by
  constructor
  · rintro ⟨bs, hform, rfl⟩
    exact ⟨hform.isDigits, hform.length⟩
  · rintro ⟨hdigits, hlength⟩
    obtain ⟨bs, hbs⟩ := exists_decode? hdigits hlength
    have hform := isForm_of_decode? hbs
    have hforms := hform.length
    exact ⟨bs, hform, by omega⟩

/-- What the writer makes is the form of its bytes in lower case. -/
theorem encode_eq_map_lowerChar_iff : encode bs = text.map Http.lowerChar ↔ IsForm bs text := by
  constructor
  · exact fun h => isForm_map_lowerChar_iff.mp (h ▸ isForm_encode bs)
  · exact fun h => encode_of_decode? (decode?_eq_some_iff.mpr h)

end WalletAuth.Hex
