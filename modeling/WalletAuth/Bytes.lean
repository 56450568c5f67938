/-! Byte strings: big-endian numbers and text as UTF-8. Text and bytes meet only here:
`toString?_ofString` says that the bytes of a text read back as that text. -/

namespace WalletAuth

abbrev Bytes := List UInt8

namespace Bytes

def ofString (s : String) : Bytes :=
  s.toByteArray.data.toList

/-- The text a byte string spells, if it is valid UTF-8. -/
def toString? (bs : Bytes) : Option String :=
  String.fromUTF8? ⟨bs.toArray⟩

theorem toString?_ofString (s : String) : toString? (ofString s) = some s := by
  have hbytes : (⟨(ofString s).toArray⟩ : ByteArray) = s.toByteArray := by
    simp [ofString]
  simp only [toString?, hbytes, String.fromUTF8?]
  rw [dif_pos (by simpa using s.isValidUTF8)]
  rfl

theorem ofString_injective {s t : String} (h : ofString s = ofString t) : s = t := by
  have hread := congrArg toString? h
  simpa [toString?_ofString] using hread

/-- The text whose characters have the given codes; for bytes below 128, the text they spell. -/
def toAscii (bs : Bytes) : String :=
  String.ofList (bs.map fun byte => Char.ofNat byte.toNat)

/-- The number a byte string writes in base 256, most significant byte first. -/
def toNat (bs : Bytes) : Nat :=
  bs.foldl (fun value byte => value * 256 + byte.toNat) 0

/-- The `width` bytes that write a number in base 256, most significant byte first; bytes above
the width are dropped. -/
def ofNat : Nat → Nat → Bytes
  | 0, _ => []
  | width + 1, value => UInt8.ofNat (value >>> (8 * width)) :: ofNat width value

theorem length_ofNat (width value : Nat) : (ofNat width value).length = width := by
  induction width with
  | zero => rfl
  | succ width ih => simp [ofNat, ih]

/-! ### Reading text that may be damaged -/

/-- The bounds of the second byte of a multi-byte sequence, the number of bytes after it and the
bits its first byte carries; absent for a byte that starts no such sequence. -/
def sequenceShape (first : UInt8) : Option (UInt8 × UInt8 × Nat × Nat) :=
  if 0xC2 ≤ first ∧ first ≤ 0xDF then some (0x80, 0xBF, 0, first.toNat % 32)
  else if first = 0xE0 then some (0xA0, 0xBF, 1, 0)
  else if first = 0xED then some (0x80, 0x9F, 1, 13)
  else if 0xE1 ≤ first ∧ first ≤ 0xEF then some (0x80, 0xBF, 1, first.toNat % 16)
  else if first = 0xF0 then some (0x90, 0xBF, 2, 0)
  else if 0xF1 ≤ first ∧ first ≤ 0xF3 then some (0x80, 0xBF, 2, first.toNat % 8)
  else if first = 0xF4 then some (0x80, 0x8F, 2, 4)
  else none

/-- The mark that stands for bytes that are no text. -/
def replacementMark : Char := Char.ofNat 0xFFFD

/-- Takes the given number of continuation bytes; a missing one yields the mark and stays unread. -/
def takeContinuation : Nat → Nat → Bytes → Char × Bytes
  | 0, code, rest => (Char.ofNat code, rest)
  | more + 1, code, byte :: rest =>
    if 0x80 ≤ byte ∧ byte ≤ 0xBF then takeContinuation more (code * 64 + byte.toNat % 64) rest
    else (replacementMark, byte :: rest)
  | _ + 1, _, [] => (replacementMark, [])

/-- One character from the front, or the mark for the longest front part that could have started
one. -/
def takeCharLossy (first : UInt8) (rest : Bytes) : Char × Bytes :=
  if first < 0x80 then (Char.ofNat first.toNat, rest)
  else
    match sequenceShape first, rest with
    | some (low, high, more, lead), second :: tail =>
      if low ≤ second ∧ second ≤ high then
        takeContinuation more (lead * 64 + second.toNat % 64) tail
      else (replacementMark, rest)
    | _, _ => (replacementMark, rest)

/-- Characters from the front until the bytes or the step allowance run out, in front of the
characters already read (kept in reverse). -/
def takeCharsLossy : Nat → List Char → Bytes → List Char
  | steps + 1, read, first :: rest =>
    let (char, rest) := takeCharLossy first rest
    takeCharsLossy steps (char :: read) rest
  | _, read, _ => read.reverse

/-- Reads text, with one mark for every maximal part that is not UTF-8. Valid text is read as it
is. -/
def toStringLossy (bs : Bytes) : String :=
  match toString? bs with
  | some text => text
  | none => String.ofList (takeCharsLossy bs.length [] bs)

theorem toStringLossy_ofString (s : String) : toStringLossy (ofString s) = s := by
  simp [toStringLossy, toString?_ofString]

end Bytes

end WalletAuth
