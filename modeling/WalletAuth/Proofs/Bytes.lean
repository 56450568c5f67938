import Mathlib.Tactic.Ring
import WalletAuth.Bytes

/-! Byte strings as numbers and as text. A number that fits a width is read back from its bytes, and
bytes of a width are the bytes of their number; the bytes of an ASCII text are its codes. -/

namespace WalletAuth.Bytes

/-- What holds of the 256 byte values holds of every byte. -/
theorem forall_byte {P : UInt8 → Prop} (h : ∀ value < 256, P (UInt8.ofNat value)) (byte : UInt8) :
    P byte := by
  have hbyte := h byte.toNat byte.toNat_lt
  rwa [UInt8.ofNat_toNat] at hbyte

theorem toNat_byte {value : Nat} (h : value < 256) : (UInt8.ofNat value).toNat = value :=
  UInt8.toNat_ofNat_of_lt' h

/-! ### Numbers -/

theorem foldl_toNat (start : Nat) (bs : Bytes) :
    bs.foldl (fun value byte => value * 256 + byte.toNat) start =
      start * 256 ^ bs.length + toNat bs := by
  induction bs generalizing start with
  | nil => simp [toNat]
  | cons byte bs ih =>
      rw [toNat, List.foldl_cons, List.foldl_cons, ih, ih (0 * 256 + byte.toNat), List.length_cons]
      ring

theorem toNat_cons (byte : UInt8) (bs : Bytes) :
    toNat (byte :: bs) = byte.toNat * 256 ^ bs.length + toNat bs := by
  rw [toNat, List.foldl_cons, foldl_toNat, Nat.zero_mul, Nat.zero_add]

theorem toNat_lt (bs : Bytes) : toNat bs < 256 ^ bs.length := by
  induction bs with
  | nil => simp [toNat]
  | cons byte bs ih =>
      have hbyte : byte.toNat + 1 ≤ 256 := byte.toNat_lt
      calc toNat (byte :: bs) < byte.toNat * 256 ^ bs.length + 256 ^ bs.length := by
            rw [toNat_cons]
            exact Nat.add_lt_add_left ih _
        _ = (byte.toNat + 1) * 256 ^ bs.length := (Nat.succ_mul _ _).symm
        _ ≤ 256 ^ (byte :: bs).length := by
            rw [List.length_cons, pow_succ']
            exact Nat.mul_le_mul_right _ hbyte

theorem toNat_ofNat_mod (width value : Nat) : toNat (ofNat width value) = value % 256 ^ width := by
  induction width with
  | zero => simp [ofNat, toNat, Nat.mod_one]
  | succ width ih =>
      have hshift : value >>> (8 * width) = value / 256 ^ width := by
        rw [Nat.shiftRight_eq_div_pow, pow_mul]
        rfl
      have hbyte : (UInt8.ofNat (value / 256 ^ width)).toNat = value / 256 ^ width % 256 :=
        UInt8.toNat_ofNat'
      rw [ofNat, hshift, toNat_cons, length_ofNat, ih, hbyte, Nat.mod_pow_succ]
      ring

/-- A number is read back from its bytes if it fits their width. -/
theorem toNat_ofNat {width value : Nat} (h : value < 256 ^ width) :
    toNat (ofNat width value) = value := by
  rw [toNat_ofNat_mod, Nat.mod_eq_of_lt h]

/-- Byte strings of one length are told apart by their numbers. -/
theorem toNat_injective {bs cs : Bytes} (hlength : bs.length = cs.length)
    (h : toNat bs = toNat cs) : bs = cs := by
  induction bs generalizing cs with
  | nil => exact (List.eq_nil_of_length_eq_zero hlength.symm).symm
  | cons byte bs ih =>
      cases cs with
      | nil => exact absurd hlength (by simp)
      | cons char cs =>
          have htail : bs.length = cs.length := by simpa using hlength
          have hbs : toNat bs < 256 ^ cs.length := htail ▸ toNat_lt bs
          have hcs := toNat_lt cs
          have hpos : 0 < 256 ^ cs.length := Nat.pow_pos (by decide)
          rw [toNat_cons, toNat_cons, htail, Nat.add_comm, Nat.add_comm (char.toNat * _)] at h
          have hhead : byte.toNat = char.toNat := by
            have hdiv := congrArg (· / 256 ^ cs.length) h
            simpa only [Nat.add_mul_div_right _ _ hpos, Nat.div_eq_of_lt hbs, Nat.div_eq_of_lt hcs,
              Nat.zero_add] using hdiv
          rw [hhead] at h
          rw [UInt8.toNat_inj.mp hhead, ih htail (Nat.add_right_cancel h)]

theorem ofNat_toNat (bs : Bytes) : ofNat bs.length (toNat bs) = bs :=
  toNat_injective (length_ofNat _ _) (toNat_ofNat (toNat_lt bs))

/-! ### Text -/

theorem ofString_eq_flatMap (s : String) : ofString s = s.toList.flatMap String.utf8EncodeChar := by
  rw [ofString, ← String.utf8Encode_toList, List.utf8Encode]
  simp

theorem ofString_eq_nil_iff {s : String} : ofString s = [] ↔ s = "" :=
  ⟨fun h => ofString_injective (h.trans rfl), fun h => h ▸ rfl⟩

/-- What spells a text are its bytes. -/
theorem ofString_of_toString? {bs : Bytes} {text : String} (h : toString? bs = some text) :
    ofString text = bs := by
  rw [toString?, String.fromUTF8?] at h
  split at h
  · rw [← Option.some.inj h]
    rfl
  · exact absurd h (by simp)

/-- Bytes that spell a text. -/
def IsText (bs : Bytes) : Prop :=
  ∃ text, ofString text = bs

theorem isText_ofString (text : String) : IsText (ofString text) :=
  ⟨text, rfl⟩

theorem isSome_toString?_iff {bs : Bytes} : (toString? bs).isSome = true ↔ IsText bs := by
  rw [Option.isSome_iff_exists]
  constructor
  · exact fun ⟨text, h⟩ => ⟨text, ofString_of_toString? h⟩
  · rintro ⟨text, rfl⟩
    exact ⟨text, toString?_ofString text⟩

theorem IsText.append {bs others : Bytes} (h : IsText bs) (hothers : IsText others) :
    IsText (bs ++ others) := by
  obtain ⟨text, rfl⟩ := h
  obtain ⟨more, rfl⟩ := hothers
  refine ⟨text ++ more, ?_⟩
  simp only [ofString_eq_flatMap, String.toList_append, List.flatMap_append]

theorem utf8EncodeChar_of_lt {char : Char} (h : char.toNat < 128) :
    String.utf8EncodeChar char = [UInt8.ofNat char.toNat] := by
  have hsize : char.utf8Size = 1 := Char.utf8Size_eq_one_iff.mpr (by
    rw [UInt32.le_iff_toNat_le]
    exact Nat.le_of_lt_succ h)
  rw [String.utf8EncodeChar_eq_singleton hsize]
  rfl

/-- The bytes of a character that is not ASCII are not ASCII either. -/
theorem le_of_mem_utf8EncodeChar {char : Char} (h : 128 ≤ char.toNat) {byte : UInt8}
    (hbyte : byte ∈ String.utf8EncodeChar char) : 128 ≤ byte := by
  change 128 ≤ char.val.toNat at h
  simp only [String.utf8EncodeChar] at hbyte
  rw [UInt8.le_iff_toNat_le]
  -- the marks that the bytes of a sequence start with are 128 and more
  split_ifs at hbyte
  · omega
  all_goals
    simp only [List.mem_cons, List.not_mem_nil, or_false] at hbyte
    rcases hbyte with rfl | rfl | rfl | rfl
  all_goals
    rw [toNat_byte (by omega)]
    exact Nat.le_add_left_of_le (by decide)

theorem toNat_charOfNat {value : Nat} (h : value < 128) : (Char.ofNat value).toNat = value := by
  rw [Char.ofNat, dif_pos (Or.inl (by omega))]
  rfl

/-- The text that ASCII codes spell has them for its bytes. -/
theorem ofString_toAscii {bs : Bytes} (h : ∀ byte ∈ bs, byte < 128) : ofString (toAscii bs) = bs := by
  rw [ofString_eq_flatMap, toAscii, String.toList_ofList, List.flatMap_map]
  induction bs with
  | nil => rfl
  | cons byte bs ih =>
      have hlt : byte.toNat < 128 := UInt8.lt_iff_toNat_lt.mp (h byte List.mem_cons_self)
      have hcode : (Char.ofNat byte.toNat).toNat = byte.toNat := toNat_charOfNat hlt
      rw [List.flatMap_cons, ih fun other hother => h other (List.mem_cons_of_mem _ hother),
        utf8EncodeChar_of_lt (hcode.symm ▸ hlt), hcode, UInt8.ofNat_toNat]
      rfl

theorem isText_of_lt {bs : Bytes} (h : ∀ byte ∈ bs, byte < 128) : IsText bs :=
  ⟨toAscii bs, ofString_toAscii h⟩

theorem toAscii_ofString {s : String} (h : ∀ byte ∈ ofString s, byte < 128) :
    toAscii (ofString s) = s :=
  ofString_injective (ofString_toAscii h)

theorem charOfNat_injective {byte other : UInt8} (hbyte : byte < 128) (hother : other < 128)
    (h : Char.ofNat byte.toNat = Char.ofNat other.toNat) : byte = other := by
  have hcode := congrArg Char.toNat h
  rw [toNat_charOfNat (UInt8.lt_iff_toNat_lt.mp hbyte),
    toNat_charOfNat (UInt8.lt_iff_toNat_lt.mp hother)] at hcode
  exact UInt8.toNat_inj.mp hcode

theorem length_toAscii (bs : Bytes) : (toAscii bs).length = bs.length := by
  rw [toAscii, String.length_ofList, List.length_map]

end WalletAuth.Bytes
