import WalletAuth.Bytes

/-! Header fields. Names are kept in lower case; a name may come several times, and then its first
value is the one that counts here. -/

namespace WalletAuth.Http

/-- Whether a character may stand in a token, such as the name of a header field. -/
def isTokenChar (char : UInt8) : Bool :=
  (97 ≤ char && char ≤ 122) || (65 ≤ char && char ≤ 90) || (48 ≤ char && char ≤ 57) ||
    (Bytes.ofString "!#$%&'*+-.^_`|~").contains char

/-- The lower case of an ASCII letter; other characters stay. -/
def lowerChar (char : UInt8) : UInt8 :=
  if 65 ≤ char ∧ char ≤ 90 then char + 32 else char

structure Header where
  name : String
  value : Bytes
deriving DecidableEq

abbrev Headers := List Header

namespace Header

def maxNameLength : Nat := 65535

/-- Whether a character may stand in the value of a field: a tab, or anything but a control
character. -/
def isValueChar (char : UInt8) : Bool :=
  char == 9 || (32 ≤ char && char ≠ 127)

/-- The field of a name and a value, if both are well formed. -/
def ofBytes? (name value : Bytes) : Option Header :=
  if name ≠ [] ∧ name.length ≤ maxNameLength ∧ name.all isTokenChar ∧ value.all isValueChar then
    some ⟨Bytes.toAscii (name.map lowerChar), value⟩
  else none

/-- Whether a value can be read as text: it is visible ASCII, blanks and tabs. -/
def isReadable (value : Bytes) : Bool :=
  value.all fun char => char == 9 || (32 ≤ char && char < 127)

end Header

def Headers.first? (headers : Headers) (name : String) : Option Bytes :=
  (headers.find? fun header => header.name == name).map Header.value

end WalletAuth.Http
