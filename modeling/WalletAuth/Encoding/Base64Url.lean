import WalletAuth.Bytes

/-! URL-safe base64. The padded form has one accepted text per byte string, and a refused text is
answered with its fault; the bare form, used inside session tokens, has no padding. -/

namespace WalletAuth.Base64Url

def pad : UInt8 := 61

/-- The symbol of a value below 64: letters, digits, hyphen and underscore. -/
def symbol (value : Nat) : UInt8 :=
  if value < 26 then UInt8.ofNat (65 + value)
  else if value < 52 then UInt8.ofNat (71 + value)
  else if value < 62 then UInt8.ofNat (value - 4)
  else if value = 62 then 45
  else 95

def value? (char : UInt8) : Option Nat :=
  if 65 ≤ char ∧ char ≤ 90 then some (char.toNat - 65)
  else if 97 ≤ char ∧ char ≤ 122 then some (char.toNat - 71)
  else if 48 ≤ char ∧ char ≤ 57 then some (char.toNat + 4)
  else if char = 45 then some 62
  else if char = 95 then some 63
  else none

def isSymbol (char : UInt8) : Bool :=
  (value? char).isSome

/-! ### Packing six-bit values -/

/-- The six-bit values of a byte string, the last one filled up with zero bits, behind those already
made (kept in reverse). -/
def splitOnto : List Nat → Bytes → List Nat
  | made, a :: b :: c :: rest =>
    let group := a.toNat * 65536 + b.toNat * 256 + c.toNat
    splitOnto
      (group % 64 :: group / 64 % 64 :: group / 4096 % 64 :: group / 262144 :: made) rest
  | made, [a, b] =>
    let group := a.toNat * 1024 + b.toNat * 4
    (group % 64 :: group / 64 % 64 :: group / 4096 :: made).reverse
  | made, [a] => (a.toNat * 16 % 64 :: a.toNat / 4 :: made).reverse
  | made, [] => made.reverse

/-- The bytes that six-bit values carry, spare bits dropped, behind those already made (kept in
reverse). -/
def joinOnto : Bytes → List Nat → Bytes
  | made, a :: b :: c :: d :: rest =>
    let group := a * 262144 + b * 4096 + c * 64 + d
    joinOnto
      (UInt8.ofNat (group % 256) :: UInt8.ofNat (group / 256 % 256) ::
        UInt8.ofNat (group / 65536) :: made) rest
  | made, [a, b, c] =>
    let group := a * 1024 + b * 16 + c / 4
    (UInt8.ofNat (group % 256) :: UInt8.ofNat (group / 256) :: made).reverse
  | made, [a, b] => (UInt8.ofNat (a * 4 + b / 16) :: made).reverse
  | made, _ => made.reverse

/-- The bits of the last value that no byte takes up. -/
def spareBits (values : List Nat) : Nat :=
  match values.length % 4 with
  | 2 => values.getLastD 0 % 16
  | 3 => values.getLastD 0 % 4
  | _ => 0

/-! ### The padded form -/

/-- The padding that completes a number of symbols to whole groups of four; none completes a group
of one. -/
def padding? (symbols : Nat) : Option Bytes :=
  match symbols % 4 with
  | 0 => some []
  | 2 => some [pad, pad]
  | 3 => some [pad]
  | _ => none

def encode (bs : Bytes) : Bytes :=
  let values := splitOnto [] bs
  values.map symbol ++ (padding? values.length).getD []

def encodeText (bs : Bytes) : String :=
  Bytes.toAscii (encode bs)

/-- Whether a text one longer than whole groups ends in a character that is neither symbol nor
padding, as a line end left at the end would be. -/
def hasStrayEnd (text : Bytes) : Bool :=
  text.length % 4 == 1 && !(isSymbol (text.getLastD pad) || text.getLastD pad == pad)

/-- Why a text is not the padded form of anything. -/
inductive Fault where
  /-- A character that may not stand where it stands. -/
  | invalidByte (offset : Nat)
  /-- The text ends behind the first symbol of a group. -/
  | invalidLength (length : Nat)
  /-- The last symbol has spare bits that are set. -/
  | invalidLastSymbol (offset : Nat)
  /-- The text ends before its last group is filled. -/
  | invalidPadding
deriving DecidableEq, Repr

/-- What is wrong with what stands behind the leading symbols, if it is not the padding they need: it
may be a front part of that padding. -/
def restFault (symbols : Nat) : Bytes → Fault
  | [] => if (padding? symbols).isSome then .invalidPadding else .invalidLength symbols
  | char :: rest =>
    if (char :: rest).isPrefixOf ((padding? symbols).getD []) then .invalidPadding
    else .invalidByte symbols

/-- Reads the padded form. A stray end is looked at first, then what stands behind the leading
symbols, and the spare bits of the last symbol at the end. -/
def decode (text : Bytes) : Except Fault Bytes :=
  let symbols := text.takeWhile isSymbol
  let rest := text.dropWhile isSymbol
  let values := symbols.filterMap value?
  if hasStrayEnd text then .error (.invalidByte (text.length - 1))
  else if some rest ≠ padding? symbols.length then .error (restFault symbols.length rest)
  else if spareBits values ≠ 0 then .error (.invalidLastSymbol (symbols.length - 1))
  else .ok (joinOnto [] values)

/-! ### The bare form -/

def encodeBare (bs : Bytes) : Bytes :=
  (splitOnto [] bs).map symbol

/-- Reads the bare form: symbols only, no group of one, and no spare bit set. -/
def decodeBare? (text : Bytes) : Option Bytes :=
  let values := text.filterMap value?
  if text.all isSymbol && (padding? text.length).isSome && spareBits values == 0 then
    some (joinOnto [] values)
  else none

end WalletAuth.Base64Url
