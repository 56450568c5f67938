import WalletAuth.Json.Text
import WalletAuth.Proofs.Encoding.Hex

/-! Quoted text reads back as the text it was written for, whatever follows it. Every byte is written
in one of three ways, and each of them is read back as that byte. -/

namespace WalletAuth.Json

/-! ### Writing a byte -/

/-- The three ways to write a byte: after a backslash, as a code of four digits, or as it is. -/
inductive IsEscape (byte : UInt8) : Bytes → Prop
  | short {letter : UInt8} (h : shortEscape? letter = some byte) : IsEscape byte [92, letter]
  | code (h : byte < 32) :
      IsEscape byte [92, 117, 48, 48, Hex.digit (byte.toNat / 16), Hex.digit (byte.toNat % 16)]
  | plain (hquote : byte ≠ 34) (hslash : byte ≠ 92) (h : ¬byte < 32) : IsEscape byte [byte]

theorem isEscape_escapeByte (byte : UInt8) : IsEscape byte (escapeByte byte) := by
  have hself : ∀ byte : UInt8, byte = 34 ∨ byte = 92 → shortEscape? byte = some byte := by
    rintro byte (rfl | rfl) <;> rfl
  rw [escapeByte]
  split_ifs with hmark h8 h9 h10 h12 h13 hcontrol
  · exact .short (hself byte hmark)
  · exact h8 ▸ .short rfl
  · exact h9 ▸ .short rfl
  · exact h10 ▸ .short rfl
  · exact h12 ▸ .short rfl
  · exact h13 ▸ .short rfl
  · exact .code hcontrol
  · exact .plain (fun h => hmark (Or.inl h)) (fun h => hmark (Or.inr h)) hcontrol

theorem IsEscape.length_le {byte : UInt8} {written : Bytes} (h : IsEscape byte written) :
    written.length ≤ 6 := by
  cases h <;> simp

/-! ### Reading a byte -/

theorem unquoteOnto_short {byte letter : UInt8} (h : shortEscape? letter = some byte)
    (read rest : Bytes) :
    unquoteOnto read (92 :: letter :: rest) = unquoteOnto (byte :: read) rest := by
  have hletter : letter ≠ 117 := by
    rintro rfl
    have hnone : shortEscape? 117 = none := by decide
    exact absurd (hnone.symm.trans h) (by simp)
  rw [unquoteOnto]
  · rw [h]
  · exact fun _ _ _ _ _ hcode _ => hletter hcode

theorem unquoteOnto_plain {byte : UInt8} (hquote : byte ≠ 34) (hslash : byte ≠ 92)
    (h : ¬byte < 32) (read rest : Bytes) :
    unquoteOnto read (byte :: rest) = unquoteOnto (byte :: read) rest := by
  rw [unquoteOnto]
  · rw [if_neg (not_or.mpr ⟨h, hslash⟩)]
  · exact hquote
  · exact fun _ _ _ _ _ hbyte _ => hslash hbyte
  · exact fun _ _ hbyte _ => hslash hbyte

theorem codeUnit?_of_lt {byte : UInt8} (h : byte < 32) :
    codeUnit? 48 48 (Hex.digit (byte.toNat / 16)) (Hex.digit (byte.toNat % 16)) =
      some byte.toNat := by
  have hzero : Hex.value? 48 = some 0 := by decide
  have hlt : byte.toNat < 32 := UInt8.lt_iff_toNat_lt.mp h
  have hhigh := Hex.value?_digit (byte.toNat / 16) (by omega)
  have hlow := Hex.value?_digit (byte.toNat % 16) (by omega)
  simp only [codeUnit?, hzero, hhigh, hlow, Option.some.injEq]
  omega

theorem bytesOfCode_of_lt {byte : UInt8} (h : byte < 32) : bytesOfCode byte.toNat = [byte] := by
  have hlt : byte.toNat < 128 := (UInt8.lt_iff_toNat_lt.mp h).trans (by decide)
  have hcode := Bytes.toNat_charOfNat hlt
  rw [bytesOfCode, Bytes.utf8EncodeChar_of_lt (hcode.symm ▸ hlt), hcode, UInt8.ofNat_toNat]

theorem unquoteOnto_code {byte : UInt8} (h : byte < 32) (read rest : Bytes) :
    unquoteOnto read (92 :: 117 :: 48 :: 48 :: Hex.digit (byte.toNat / 16) ::
        Hex.digit (byte.toNat % 16) :: rest) =
      unquoteOnto (byte :: read) rest := by
  have hlt : byte.toNat < 32 := UInt8.lt_iff_toNat_lt.mp h
  have htrailing : isTrailing byte.toNat = false := by
    rw [isTrailing, decide_eq_false (by omega), Bool.false_and]
  have hleading : isLeading byte.toNat = false := by
    rw [isLeading, decide_eq_false (by omega), Bool.false_and]
  rw [unquoteOnto, codeUnit?_of_lt h]
  simp only [htrailing, hleading, bytesOfCode_of_lt h]
  rfl

/-- However a byte is written, it is read. -/
theorem unquoteOnto_escape {byte : UInt8} {written : Bytes} (h : IsEscape byte written)
    (read rest : Bytes) :
    unquoteOnto read (written ++ rest) = unquoteOnto (byte :: read) rest := by
  cases h with
  | short hletter => exact unquoteOnto_short hletter read rest
  | code hcontrol => exact unquoteOnto_code hcontrol read rest
  | plain hquote hslash hcontrol => exact unquoteOnto_plain hquote hslash hcontrol read rest

/-! ### Texts -/

theorem unquoteOnto_flatMap_escapeByte (read bs rest : Bytes) :
    unquoteOnto read (bs.flatMap escapeByte ++ 34 :: rest) = some (read.reverse ++ bs, rest) := by
  induction bs generalizing read with
  | nil => rw [List.flatMap_nil, List.nil_append, unquoteOnto, List.append_nil]
  | cons byte bs ih =>
      rw [List.flatMap_cons, List.append_assoc, unquoteOnto_escape (isEscape_escapeByte byte), ih,
        List.reverse_cons, List.append_assoc, List.singleton_append]

/-- The rest of a quoted text reads back. -/
theorem unquote_quote (text : String) (rest : Bytes) :
    unquote ((quote text).tail ++ rest) = some (text, rest) := by
  have hbytes := unquoteOnto_flatMap_escapeByte [] (Bytes.ofString text) rest
  rw [quote, List.tail_cons, List.append_assoc, List.singleton_append, unquote, hbytes]
  simp [Bytes.toString?_ofString]

theorem quote_eq_cons (text : String) : quote text = 34 :: (quote text).tail := rfl

theorem length_quote_le (text : String) :
    (quote text).length ≤ 6 * (Bytes.ofString text).length + 2 := by
  have hescaped (bs : Bytes) : (bs.flatMap escapeByte).length ≤ 6 * bs.length := by
    induction bs with
    | nil => exact Nat.le_refl 0
    | cons byte bs ih =>
        have hbyte := (isEscape_escapeByte byte).length_le
        rw [List.flatMap_cons, List.length_append, List.length_cons]
        omega
  have htext := hescaped (Bytes.ofString text)
  rw [quote, List.length_cons, List.length_append, List.length_singleton]
  omega

end WalletAuth.Json
