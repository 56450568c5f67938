import WalletAuth.Proofs.Encoding.Base64Form
import WalletAuth.Proofs.Encoding.HexForm
import WalletAuth.Proofs.Signature.Timestamp

/-! How signatures travel as text. In base64 each byte string has one text, its padded form, and
whatever is refused is refused at an offset that shows why; in hexadecimal it has one text but for
the case of letters. A text that is read is a signature if it has the length of one, and then it is
the text that the signature is written as, in hexadecimal again but for the case. -/

namespace WalletAuth.CompactSignature

variable {text : String} {bs : Bytes} {signature : CompactSignature} {error : SignatureError}

/-! ### Bytes -/

theorem ofBytes_eq_ok_iff : ofBytes bs = .ok signature ↔ bs = signature.bytes := by
  constructor
  · intro h
    rw [ofBytes] at h
    split at h
    · rw [← Except.ok.inj h]
    · exact absurd h (by simp)
  · rintro rfl
    exact ofBytes_bytes signature

theorem ofBytes_eq_error_iff :
    ofBytes bs = .error error ↔ bs.length ≠ 65 ∧ error = .wrongLength bs.length := by
  rw [ofBytes]
  split
  case isTrue hlength => simp [hlength]
  case isFalse hlength => simp [hlength, eq_comm]

/-! ### Padded base64 -/

theorem eq_encodeText_iff :
    text = Base64Url.encodeText bs ↔ Bytes.ofString text = Base64Url.encode bs := by
  rw [← Base64Url.ofString_encodeText]
  exact ⟨congrArg Bytes.ofString, Bytes.ofString_injective⟩

theorem decodeBase64_eq_ok_iff_eq_encodeText :
    decodeBase64 text = .ok bs ↔ text = Base64Url.encodeText bs :=
  decodeBase64_eq_ok_iff.trans eq_encodeText_iff.symm

/-- A text is refused with the offset of the fault that the reader finds, and with nothing else. -/
theorem decodeBase64_eq_error_iff :
    decodeBase64 text = .error error ↔
      ∃ fault, Base64Url.decode (Bytes.ofString text) = .error fault ∧
        error = .illegalBase64 (faultOffset fault (Bytes.ofString text)) := by
  rw [decodeBase64]
  cases Base64Url.decode (Bytes.ofString text) <;> simp [eq_comm]

section Fault

open Base64Url (BreaksOff Fault OverfullAt StrayAt)

variable {fault : Fault}

/-- A padding that is short is reported where it starts, which is at a stray character. -/
theorem faultOffset_invalidPadding (h : Fault.invalidPadding.Describes bs) :
    faultOffset .invalidPadding bs = bs.length ∧ BreaksOff bs ∨
      StrayAt bs (faultOffset .invalidPadding bs) := by
  rw [faultOffset]
  cases hfound : bs.findIdx? (· == Base64Url.pad) with
  | none =>
      refine Or.inl ⟨rfl, h fun hpad => ?_⟩
      exact absurd (List.findIdx?_eq_none_iff.mp hfound _ hpad) (by decide)
  | some offset =>
      obtain ⟨hlt, hpad, -⟩ := List.findIdx?_eq_some_iff_getElem.mp hfound
      rw [beq_iff_eq] at hpad
      refine Or.inr ⟨Base64Url.pad, ?_, by decide⟩
      rw [Option.getD_some, List.getElem?_eq_getElem hlt, hpad]

/-- The reported offset is the end of a text that breaks off, or that of a fault in the text. -/
theorem faultOffset_cases (h : fault.Describes bs) :
    faultOffset fault bs = bs.length ∧ BreaksOff bs ∨ StrayAt bs (faultOffset fault bs) ∨
      OverfullAt bs (faultOffset fault bs) := by
  cases fault with
  | invalidByte offset => exact Or.inr (Or.inl h)
  | invalidLastSymbol offset => exact Or.inr (Or.inr h)
  | invalidLength length => exact Or.inl h
  | invalidPadding =>
      rcases faultOffset_invalidPadding h with hbreaks | hstray
      · exact Or.inl hbreaks
      · exact Or.inr (Or.inl hstray)

/-- The reported offset lies in the text, but for a text that breaks off. -/
theorem faultOffset_spec (h : fault.Describes bs) :
    faultOffset fault bs ≤ bs.length ∧ (faultOffset fault bs = bs.length ↔ BreaksOff bs) ∧
      (faultOffset fault bs ≠ bs.length →
        StrayAt bs (faultOffset fault bs) ∨ OverfullAt bs (faultOffset fault bs)) := by
  rcases faultOffset_cases h with ⟨hend, hbreaks⟩ | hstray | hoverfull
  · exact ⟨hend.le, iff_of_true hend hbreaks, fun hne => absurd hend hne⟩
  · have hlt := hstray.lt
    exact ⟨hlt.le, iff_of_false hlt.ne hstray.not_breaksOff, fun _ => Or.inl hstray⟩
  · have hlt := hoverfull.lt
    exact ⟨hlt.le, iff_of_false hlt.ne hoverfull.not_breaksOff, fun _ => Or.inr hoverfull⟩

end Fault

theorem ofBase64_eq_ok_iff : ofBase64 text = .ok signature ↔ text = signature.toBase64 := by
  rw [toBase64, ← decodeBase64_eq_ok_iff_eq_encodeText, ofBase64]
  cases decodeBase64 text with
  | error cause => simp [Except.bind]
  | ok bs =>
      rw [Except.ok.injEq, ← ofBytes_eq_ok_iff]
      rfl

/-- A text that is read is refused for its length only. -/
theorem ofBase64_eq_wrongLength_iff {length : Nat} :
    ofBase64 text = .error (.wrongLength length) ↔
      ∃ bs, text = Base64Url.encodeText bs ∧ bs.length = length ∧ length ≠ 65 := by
  constructor
  · intro h
    rw [ofBase64] at h
    cases hdecode : decodeBase64 text with
    | error cause =>
        obtain ⟨fault, -, rfl⟩ := decodeBase64_eq_error_iff.mp hdecode
        simp [hdecode, Except.bind] at h
    | ok bs =>
        rw [hdecode] at h
        obtain ⟨hlength, hwrong⟩ := ofBytes_eq_error_iff.mp h
        obtain rfl := SignatureError.wrongLength.inj hwrong
        exact ⟨bs, decodeBase64_eq_ok_iff_eq_encodeText.mp hdecode, rfl, hlength⟩
  · rintro ⟨bs, htext, rfl, hlength⟩
    rw [ofBase64, decodeBase64_eq_ok_iff_eq_encodeText.mpr htext]
    exact ofBytes_eq_error_iff.mpr ⟨hlength, rfl⟩

/-- Base64 as a transport: one text for each byte string, faults that can be pointed at, and
signatures that are read exactly from what they are written as. -/
theorem base64_transport (text : String) :
    (∀ bs, decodeBase64 text = .ok bs ↔ text = Base64Url.encodeText bs) ∧
      (∀ bs, text = Base64Url.encodeText bs ↔ Base64Url.IsPaddedForm bs (Bytes.ofString text)) ∧
      (∀ error, decodeBase64 text = .error error →
        ∃ offset, error = .illegalBase64 offset ∧ offset ≤ (Bytes.ofString text).length ∧
          (offset = (Bytes.ofString text).length ↔ Base64Url.BreaksOff (Bytes.ofString text)) ∧
          (offset ≠ (Bytes.ofString text).length →
            Base64Url.StrayAt (Bytes.ofString text) offset ∨
              Base64Url.OverfullAt (Bytes.ofString text) offset)) ∧
      (∀ signature, ofBase64 text = .ok signature ↔ text = signature.toBase64) ∧
      ∀ length, ofBase64 text = .error (.wrongLength length) ↔
        ∃ bs, text = Base64Url.encodeText bs ∧ bs.length = length ∧ length ≠ 65 := by
  refine ⟨fun bs => decodeBase64_eq_ok_iff_eq_encodeText, fun bs => ?_, fun error h => ?_,
    fun signature => ofBase64_eq_ok_iff, fun length => ofBase64_eq_wrongLength_iff⟩
  · rw [eq_encodeText_iff, Base64Url.eq_encode_iff]
  · obtain ⟨fault, hdecode, rfl⟩ := decodeBase64_eq_error_iff.mp h
    exact ⟨_, rfl, faultOffset_spec (Base64Url.describes_of_decode hdecode)⟩

/-- A text that breaks off, one whose last symbol says too much, and one of a single byte. -/
theorem base64_transport_short :
    decodeBase64 "AAA" = .error (.illegalBase64 3) ∧
      Base64Url.BreaksOff (Bytes.ofString "AAA") ∧
      decodeBase64 "AB==" = .error (.illegalBase64 1) ∧
      (Base64Url.StrayAt (Bytes.ofString "AB==") 1 ∨
        Base64Url.OverfullAt (Bytes.ofString "AB==") 1) ∧
      ofBase64 "AA==" = .error (.wrongLength 1) := by
  have hshort : decodeBase64 "AAA" = .error (.illegalBase64 3) := by decide
  have hfull : decodeBase64 "AB==" = .error (.illegalBase64 1) := by decide
  refine ⟨hshort, ?_, hfull, ?_, ?_⟩
  · obtain ⟨offset, hoffset, -, hbreaks, -⟩ := (base64_transport "AAA").2.2.1 _ hshort
    obtain rfl := SignatureError.illegalBase64.inj hoffset
    exact hbreaks.mp (by decide)
  · obtain ⟨offset, hoffset, -, -, hfault⟩ := (base64_transport "AB==").2.2.1 _ hfull
    obtain rfl := SignatureError.illegalBase64.inj hoffset
    exact hfault (by decide)
  · exact ((base64_transport "AA==").2.2.2.2 1).mpr ⟨[0], by decide, rfl, by decide⟩

/-! ### Hexadecimal -/

/-- The texts of hexadecimal digits, of either case, that are as long as a signature. -/
def IsHexText (text : String) : Prop :=
  Hex.IsDigits (Bytes.ofString text) ∧ (Bytes.ofString text).length = 130

instance : DecidablePred IsHexText :=
  fun _ => inferInstanceAs (Decidable (Hex.IsDigits _ ∧ _))

theorem ofHex_eq_ok_iff :
    ofHex text = .ok signature ↔ Hex.IsForm signature.bytes (Bytes.ofString text) := by
  rw [← Hex.decode?_eq_some_iff, ofHex]
  cases Hex.decode? (Bytes.ofString text) with
  | none => simp
  | some bs => rw [ofBytes_eq_ok_iff, Option.some.injEq]

theorem exists_ofHex_iff : (∃ signature, ofHex text = .ok signature) ↔ IsHexText text := by
  rw [IsHexText, show 130 = 2 * 65 from rfl, ← Hex.exists_isForm_iff]
  constructor
  · rintro ⟨signature, h⟩
    exact ⟨signature.bytes, ofHex_eq_ok_iff.mp h, signature.length_bytes⟩
  · rintro ⟨bs, hform, hlength⟩
    exact ⟨⟨bs, hlength⟩, ofHex_eq_ok_iff.mpr hform⟩

theorem toHex_eq_toLower_iff :
    signature.toHex = text.toLower ↔ Hex.IsForm signature.bytes (Bytes.ofString text) := by
  rw [← Hex.encode_eq_map_lowerChar_iff, ← Hex.ofString_toLower, ← Hex.ofString_encodeText]
  exact ⟨congrArg Bytes.ofString, Bytes.ofString_injective⟩

/-- A signature is read from the text that it is written as, in either case, and from nothing
else. -/
theorem ofHex_eq_ok_iff_toHex : ofHex text = .ok signature ↔ signature.toHex = text.toLower :=
  ofHex_eq_ok_iff.trans toHex_eq_toLower_iff.symm

theorem ofHex_toHex (signature : CompactSignature) : ofHex signature.toHex = .ok signature := by
  rw [ofHex_eq_ok_iff, toHex, Hex.ofString_encodeText]
  exact Hex.isForm_encode signature.bytes

theorem ofHex_eq_illegalHex_iff :
    ofHex text = .error .illegalHex ↔ (Bytes.ofString text).length % 2 = 1 ∨
      ∃ char ∈ Bytes.ofString text, ¬Hex.IsDigit char := by
  rw [← Hex.decode?_eq_none_iff, ofHex]
  cases Hex.decode? (Bytes.ofString text) with
  | none => simp
  | some bs => simp [ofBytes_eq_error_iff]

/-- The length is looked at when all is read, so a text of digits is refused for it alone. -/
theorem ofHex_eq_wrongLength_iff {length : Nat} :
    ofHex text = .error (.wrongLength length) ↔
      Hex.IsDigits (Bytes.ofString text) ∧
        (Bytes.ofString text).length = 2 * length ∧ length ≠ 65 := by
  rw [← and_assoc, ← Hex.exists_isForm_iff, ofHex]
  constructor
  · intro h
    split at h
    case h_1 bs hdecode =>
      obtain ⟨hlength, hwrong⟩ := ofBytes_eq_error_iff.mp h
      obtain rfl := SignatureError.wrongLength.inj hwrong
      exact ⟨⟨bs, Hex.isForm_of_decode? hdecode, rfl⟩, hlength⟩
    case h_2 => exact absurd h (by simp)
  · rintro ⟨⟨bs, hform, rfl⟩, hlength⟩
    rw [Hex.decode?_eq_some_iff.mpr hform]
    exact ofBytes_eq_error_iff.mpr ⟨hlength, rfl⟩

/-- Hexadecimal digits as a transport: a text is read exactly if it consists of 130 of them, and then
as the signature that is written as that text in lower case, with the digits of its number; a text
of odd length or with a stray character is no hexadecimal text, and one of digits only is refused
for the number of bytes that it has. What is written is read again, and the texts that are read as
one signature are those that differ in nothing but the case of letters. -/
theorem hex_transport (text : String) :
    ((∃ signature, ofHex text = .ok signature) ↔ IsHexText text) ∧
      (∀ signature, ofHex text = .ok signature ↔ signature.toHex = text.toLower) ∧
      (∀ signature, ofHex text = .ok signature ↔
        Hex.IsForm signature.bytes (Bytes.ofString text)) ∧
      (ofHex text = .error .illegalHex ↔ (Bytes.ofString text).length % 2 = 1 ∨
        ∃ char ∈ Bytes.ofString text, ¬Hex.IsDigit char) ∧
      (∀ length, ofHex text = .error (.wrongLength length) ↔
        Hex.IsDigits (Bytes.ofString text) ∧
          (Bytes.ofString text).length = 2 * length ∧ length ≠ 65) ∧
      (∀ signature : CompactSignature, ofHex signature.toHex = .ok signature) ∧
      ∀ other signature, ofHex text = .ok signature →
        (ofHex other = .ok signature ↔ other.toLower = text.toLower) := by
  refine ⟨exists_ofHex_iff, fun _ => ofHex_eq_ok_iff_toHex, fun _ => ofHex_eq_ok_iff,
    ofHex_eq_illegalHex_iff, fun _ => ofHex_eq_wrongLength_iff, ofHex_toHex, ?_⟩
  intro other signature h
  rw [ofHex_eq_ok_iff_toHex, ofHex_eq_ok_iff_toHex.mp h, eq_comm]

/-- An odd digit, a stray character next to a short text, and a signature in both cases. -/
theorem hex_transport_upper :
    let upper := String.ofList (List.replicate 130 'A')
    let lower := String.ofList (List.replicate 130 'a')
    ofHex "0" = .error .illegalHex ∧ ofHex "0g" = .error .illegalHex ∧
      ofHex "0aF0" = .error (.wrongLength 2) ∧
      ∃ signature, ofHex upper = .ok signature ∧ signature.toHex = lower ∧
        ofHex lower = .ok signature := by
  intro upper lower
  have hlowered : ∀ char : Char, (String.ofList (List.replicate 130 char)).toLower =
      String.ofList (List.replicate 130 char.toLower) := by
    intro char
    rw [← String.toList_inj, Hex.toList_toLower, String.toList_ofList, String.toList_ofList,
      List.map_replicate]
  obtain ⟨-, -, -, hodd, -⟩ := hex_transport "0"
  obtain ⟨-, -, -, hstray, -⟩ := hex_transport "0g"
  obtain ⟨-, -, -, -, hshort, -⟩ := hex_transport "0aF0"
  obtain ⟨hread, hwritten, -, -, -, -, hcase⟩ := hex_transport upper
  obtain ⟨signature, hsignature⟩ := hread.mpr (by decide +kernel)
  exact ⟨hodd.mpr (Or.inl rfl), hstray.mpr (Or.inr ⟨103, by decide, by decide⟩),
    (hshort 2).mpr (by decide), signature, hsignature,
    ((hwritten signature).mp hsignature).trans (hlowered 'A'),
    (hcase lower signature hsignature).mpr ((hlowered 'a').trans (hlowered 'A').symm)⟩

end WalletAuth.CompactSignature
