import WalletAuth.Encoding.Hex

/-! Quoted text in JSON. Writing escapes quotes, backslashes and control characters and nothing
else; reading accepts every escape of the format. Both work on bytes: what is not ASCII passes as
it is. -/

namespace WalletAuth.Json

/-- The bytes written for one byte of a text. -/
def escapeByte (byte : UInt8) : Bytes :=
  if byte = 34 ∨ byte = 92 then [92, byte]
  else if byte = 8 then [92, 98]
  else if byte = 9 then [92, 116]
  else if byte = 10 then [92, 110]
  else if byte = 12 then [92, 102]
  else if byte = 13 then [92, 114]
  else if byte < 32 then
    [92, 117, 48, 48, Hex.digit (byte.toNat / 16), Hex.digit (byte.toNat % 16)]
  else [byte]

def quote (text : String) : Bytes :=
  34 :: ((Bytes.ofString text).flatMap escapeByte ++ [34])

/-- The byte that a backslash and a letter stand for. -/
def shortEscape? (letter : UInt8) : Option UInt8 :=
  if letter = 34 ∨ letter = 92 ∨ letter = 47 then some letter
  else if letter = 98 then some 8
  else if letter = 116 then some 9
  else if letter = 110 then some 10
  else if letter = 102 then some 12
  else if letter = 114 then some 13
  else none

/-- The number that four hexadecimal digits write. -/
def codeUnit? (a b c d : UInt8) : Option Nat :=
  match Hex.value? a, Hex.value? b, Hex.value? c, Hex.value? d with
  | some a, some b, some c, some d => some (((a * 16 + b) * 16 + c) * 16 + d)
  | _, _, _, _ => none

/-- The bytes of the character with a given code. -/
def bytesOfCode (code : Nat) : Bytes :=
  String.utf8EncodeChar (Char.ofNat code)

/-- Whether a code unit is the first half of a pair. -/
def isLeading (unit : Nat) : Bool :=
  0xD800 ≤ unit && unit ≤ 0xDBFF

/-- Whether a code unit is the second half of a pair. -/
def isTrailing (unit : Nat) : Bool :=
  0xDC00 ≤ unit && unit ≤ 0xDFFF

/-- Reads the rest of a quoted text behind the bytes already read (kept in reverse), and gives what
follows the closing quote. Half a pair of code units is refused, and so is a control character. -/
def unquoteOnto : Bytes → Bytes → Option (Bytes × Bytes)
  | read, 34 :: rest => some (read.reverse, rest)
  | read, 92 :: 117 :: a :: b :: c :: d :: rest =>
    match codeUnit? a b c d with
    | none => none
    | some unit =>
      if isTrailing unit then none
      else if isLeading unit then
        match rest with
        | 92 :: 117 :: e :: f :: g :: h :: rest =>
          match codeUnit? e f g h with
          | none => none
          | some second =>
            if isTrailing second then
              let code := 0x10000 + (unit - 0xD800) * 1024 + (second - 0xDC00)
              unquoteOnto ((bytesOfCode code).reverse ++ read) rest
            else none
        | _ => none
      else unquoteOnto ((bytesOfCode unit).reverse ++ read) rest
  | read, 92 :: letter :: rest =>
    match shortEscape? letter with
    | some byte => unquoteOnto (byte :: read) rest
    | none => none
  | read, byte :: rest =>
    if byte < 32 ∨ byte = 92 then none else unquoteOnto (byte :: read) rest
  | _, [] => none

def unquote (input : Bytes) : Option (String × Bytes) :=
  (unquoteOnto [] input).bind fun (bytes, rest) =>
    (Bytes.toString? bytes).map fun text => (text, rest)

/-- Passes over the rest of a quoted text, checking no more than its form: a code unit may stand
alone, and the bytes may be no text. -/
def passQuoted : Bytes → Option Bytes
  | 34 :: rest => some rest
  | 92 :: 117 :: a :: b :: c :: d :: rest =>
    if (codeUnit? a b c d).isSome then passQuoted rest else none
  | 92 :: letter :: rest => if (shortEscape? letter).isSome then passQuoted rest else none
  | byte :: rest => if byte < 32 ∨ byte = 92 then none else passQuoted rest
  | [] => none

end WalletAuth.Json
