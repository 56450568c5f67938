import Mathlib.Data.List.Basic
import WalletAuth.Encoding.Hex
import WalletAuth.Http.Header
import WalletAuth.Proofs.Bytes

/-! Hexadecimal text reads back as the bytes it was written for, and whatever is read is written
again as the same text in lower case. -/

namespace WalletAuth.Hex

theorem value?_digit : ∀ value < 16, value? (digit value) = some value := by decide

theorem digit_lt : ∀ value < 16, digit value < 128 := by decide

theorem digit_of_value? (char : UInt8) {value : Nat} (h : value? char = some value) :
    value < 16 ∧ digit value = Http.lowerChar char := by
  have hall : ∀ char, (value? char).all fun value =>
      value < 16 ∧ digit value = Http.lowerChar char :=
    Bytes.forall_byte (by decide +kernel)
  simpa [h] using hall char

theorem encode_cons (byte : UInt8) (bs : Bytes) :
    encode (byte :: bs) = digit (byte.toNat / 16) :: digit (byte.toNat % 16) :: encode bs :=
  List.flatMap_cons

theorem decodeOnto_encode (read bs : Bytes) :
    decodeOnto read (encode bs) = some (read.reverse ++ bs) := by
  induction bs generalizing read with
  | nil => simp [encode, decodeOnto]
  | cons byte bs ih =>
      have hhigh : value? (digit (byte.toNat / 16)) = some (byte.toNat / 16) :=
        value?_digit _ (by have := byte.toNat_lt; omega)
      have hlow : value? (digit (byte.toNat % 16)) = some (byte.toNat % 16) :=
        value?_digit _ (Nat.mod_lt _ (by decide))
      have hbyte : UInt8.ofNat (byte.toNat / 16 * 16 + byte.toNat % 16) = byte := by
        rw [Nat.div_add_mod', UInt8.ofNat_toNat]
      rw [encode_cons, decodeOnto, hhigh, hlow]
      simp only [hbyte, ih, List.reverse_cons, List.append_assoc, List.singleton_append]

/-- What was written reads back. -/
theorem decode?_encode (bs : Bytes) : decode? (encode bs) = some bs :=
  decodeOnto_encode [] bs

theorem encode_of_decodeOnto {read text bs : Bytes} (h : decodeOnto read text = some bs) :
    ∃ tail, bs = read.reverse ++ tail ∧ encode tail = text.map Http.lowerChar := by
  fun_induction decodeOnto read text with
  | case1 read => exact ⟨[], by simpa using h.symm, rfl⟩
  | case2 read high low rest highValue lowValue hlow hhigh ih =>
      obtain ⟨tail, rfl, htail⟩ := ih h
      obtain ⟨hhighLt, hhighDigit⟩ := digit_of_value? high hhigh
      obtain ⟨hlowLt, hlowDigit⟩ := digit_of_value? low hlow
      have hbyte : (UInt8.ofNat (highValue * 16 + lowValue)).toNat = highValue * 16 + lowValue :=
        Bytes.toNat_byte (by omega)
      refine ⟨UInt8.ofNat (highValue * 16 + lowValue) :: tail, by simp, ?_⟩
      rw [encode, List.flatMap_cons, hbyte, show (highValue * 16 + lowValue) / 16 = highValue by omega,
        show (highValue * 16 + lowValue) % 16 = lowValue by omega, hhighDigit, hlowDigit]
      exact congrArg (fun digits => _ :: _ :: digits) htail
  | case3 => simp at h
  | case4 => simp at h

/-- What reads as bytes is what is written for them, but for the case of letters. -/
theorem encode_of_decode? {text bs : Bytes} (h : decode? text = some bs) :
    encode bs = text.map Http.lowerChar := by
  obtain ⟨tail, rfl, htail⟩ := encode_of_decodeOnto h
  exact htail

theorem length_encode (bs : Bytes) : (encode bs).length = 2 * bs.length := by
  induction bs with
  | nil => rfl
  | cons byte bs ih => simp [encode] at ih ⊢; omega

theorem mem_encode {bs : Bytes} {char : UInt8} (h : char ∈ encode bs) :
    ∃ value < 16, digit value = char := by
  simp only [encode, List.mem_flatMap, List.mem_cons, List.not_mem_nil, or_false] at h
  obtain ⟨byte, -, rfl | rfl⟩ := h
  · exact ⟨_, by have := byte.toNat_lt; omega, rfl⟩
  · exact ⟨_, Nat.mod_lt _ (by decide), rfl⟩

theorem ofString_encodeText (bs : Bytes) : Bytes.ofString (encodeText bs) = encode bs := by
  apply Bytes.ofString_toAscii
  intro char hchar
  obtain ⟨value, hvalue, rfl⟩ := mem_encode hchar
  exact digit_lt value hvalue

theorem length_encodeText (bs : Bytes) : (encodeText bs).length = 2 * bs.length := by
  rw [encodeText, Bytes.length_toAscii, length_encode]

/-! ### Lower-case text -/

theorem lowerChar_lowerChar : ∀ char, Http.lowerChar (Http.lowerChar char) = Http.lowerChar char :=
  Bytes.forall_byte (by decide +kernel)

theorem lowerChar_of_ge : ∀ char, 128 ≤ char → Http.lowerChar char = char :=
  Bytes.forall_byte (by decide +kernel)

theorem utf8EncodeChar_toLower (char : Char) :
    String.utf8EncodeChar char.toLower = (String.utf8EncodeChar char).map Http.lowerChar := by
  by_cases hascii : char.toNat < 128
  · have hcodes : ∀ code < 128, String.utf8EncodeChar (Char.ofNat code).toLower =
        (String.utf8EncodeChar (Char.ofNat code)).map Http.lowerChar := by decide +kernel
    simpa using hcodes char.toNat hascii
  · have hsame : char.toLower = char :=
      dif_neg fun hupper => hascii (Nat.lt_of_le_of_lt (UInt32.le_iff_toNat_le.mp hupper.right)
        (by decide))
    have hbytes : ∀ byte ∈ String.utf8EncodeChar char, Http.lowerChar byte = byte := fun byte hbyte =>
      lowerChar_of_ge byte (Bytes.le_of_mem_utf8EncodeChar (Nat.le_of_not_lt hascii) hbyte)
    rw [hsame, List.map_congr_left hbytes, List.map_id']

theorem toList_toLower (text : String) : text.toLower.toList = text.toList.map Char.toLower :=
  String.toList_map

/-- Lower case changes the same characters in a text as in its bytes. -/
theorem ofString_toLower (text : String) :
    Bytes.ofString text.toLower = (Bytes.ofString text).map Http.lowerChar := by
  rw [Bytes.ofString_eq_flatMap, Bytes.ofString_eq_flatMap, toList_toLower, List.flatMap_map,
    List.map_flatMap]
  exact List.flatMap_congr fun char _ => utf8EncodeChar_toLower char

/-- Texts of lower-case digits. -/
def IsLowerText (text : String) : Prop :=
  ∀ char ∈ text.toList, char ∈ "0123456789abcdef".toList

theorem charOfDigit_mem : ∀ value < 16,
    Char.ofNat (digit value).toNat ∈ "0123456789abcdef".toList := by decide

theorem isLowerText_encodeText (bs : Bytes) : IsLowerText (encodeText bs) := by
  intro char hchar
  rw [encodeText, Bytes.toAscii, String.toList_ofList] at hchar
  obtain ⟨byte, hbyte, rfl⟩ := List.mem_map.mp hchar
  obtain ⟨value, hvalue, rfl⟩ := mem_encode hbyte
  exact charOfDigit_mem value hvalue

theorem toLower_of_isLowerText {text : String} (h : IsLowerText text) : text.toLower = text := by
  have hdigits : ("0123456789abcdef".toList.all fun char => char.toLower == char) = true := by decide
  have hsame : ∀ char ∈ text.toList, char.toLower = char := fun char hchar => by
    simpa using List.all_eq_true.mp hdigits char (h char hchar)
  rw [← String.toList_inj, toList_toLower, List.map_congr_left hsame, List.map_id']

theorem map_lowerChar_ofString {text : String} (h : IsLowerText text) :
    (Bytes.ofString text).map Http.lowerChar = Bytes.ofString text := by
  rw [← ofString_toLower, toLower_of_isLowerText h]

/-- A lower-case text that reads as bytes is what is written for them. -/
theorem encodeText_of_decode? {text : String} {bs : Bytes} (hlower : IsLowerText text)
    (h : decode? (Bytes.ofString text) = some bs) : encodeText bs = text := by
  apply Bytes.ofString_injective
  rw [ofString_encodeText, encode_of_decode? h, map_lowerChar_ofString hlower]

end WalletAuth.Hex
