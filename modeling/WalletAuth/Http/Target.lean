import WalletAuth.Bytes

/-! The target of a request: a path and a query. It is written as these alone, as an absolute
location, or as a mere authority, which has neither. -/

namespace WalletAuth.Http

structure Target where
  path : Bytes
  query : Option Bytes
deriving DecidableEq

namespace Target

def maxLength : Nat := 65534

/-! ### Path and query -/

def isPathChar (char : UInt8) : Bool :=
  char == 0x21 || char == 0x22 || (0x24 ≤ char && char ≤ 0x3B) || char == 0x3D ||
    (0x40 ≤ char && char ≤ 0x5F) || (0x61 ≤ char && char != 0x7F)

def isQueryChar (char : UInt8) : Bool :=
  char == 0x21 || (0x24 ≤ char && char ≤ 0x3B) || char == 0x3D ||
    (0x3F ≤ char && char != 0x7F)

/-- Reads a path and a query, which have to be text; a fragment behind them is dropped unread. An
empty path is the root. -/
def pathAndQuery? (text : Bytes) : Option Target :=
  let path := text.takeWhile fun char => char ≠ 63 ∧ char ≠ 35
  if path.all isPathChar ∧ (Bytes.toString? (text.takeWhile (· ≠ 35))).isSome then
    let root := if path.isEmpty then [47] else path
    match text.drop path.length with
    | 63 :: rest =>
      let query := rest.takeWhile (· ≠ 35)
      if query.all isQueryChar then some ⟨root, some query⟩ else none
    | _ => some ⟨root, none⟩
  else none

/-! ### Authority -/

/-- Whether a character may stand in an authority without further conditions. -/
def isAuthorityChar (char : UInt8) : Bool :=
  (97 ≤ char && char ≤ 122) || (65 ≤ char && char ≤ 90) || (48 ≤ char && char ≤ 57) ||
    (Bytes.ofString "!$&'()*+,-.;=_~").contains char

/-- What has been seen of an authority. -/
structure AuthorityScan where
  /-- Colons since the last bracket was closed or the last user was given. -/
  colons : Nat := 0
  hasOpened : Bool := false
  hasClosed : Bool := false
  /-- Whether there is a percent sign since then. -/
  hasPercent : Bool := false
  endsUser : Bool := false

def AuthorityScan.step (scan : AuthorityScan) (char : UInt8) : Option AuthorityScan :=
  let scan := { scan with endsUser := false }
  if char = 58 then
    if scan.colons < 8 then some { scan with colons := scan.colons + 1 } else none
  else if char = 91 then
    if scan.hasPercent || scan.hasOpened then none else some { scan with hasOpened := true }
  else if char = 93 then
    if !scan.hasOpened || scan.hasClosed then none
    else some { scan with hasClosed := true, colons := 0, hasPercent := false }
  else if char = 64 then some { scan with endsUser := true, colons := 0, hasPercent := false }
  else if char = 37 then some { scan with hasPercent := true }
  else if isAuthorityChar char then some scan
  else none

/-- Whether an authority may end here: brackets are paired, at most one number follows the host,
only a user may be written with percent signs, and a user has a host. -/
def AuthorityScan.isComplete (scan : AuthorityScan) : Bool :=
  scan.hasOpened == scan.hasClosed && scan.colons ≤ 1 && !scan.endsUser && !scan.hasPercent

/-- Whether a text is an authority. The empty one is. -/
def isAuthority (text : Bytes) : Bool :=
  match text.foldlM AuthorityScan.step {} with
  | some scan => scan.isComplete
  | none => false

def endsAuthority (char : UInt8) : Bool :=
  char == 47 || char == 63 || char == 35

/-! ### Scheme -/

def isSchemeChar (char : UInt8) : Bool :=
  (97 ≤ char && char ≤ 122) || (65 ≤ char && char ≤ 90) || (48 ≤ char && char ≤ 57) ||
    (Bytes.ofString "+-.~").contains char

def maxSchemeLength : Nat := 64

/-- Splits a scheme and the mark behind it off the front. -/
def splitScheme? (text : Bytes) : Option (Bytes × Bytes) :=
  match text.dropWhile isSchemeChar with
  | 58 :: 47 :: 47 :: rest => some (text.takeWhile isSchemeChar, rest)
  | _ => none

/-- Reads an absolute location behind its scheme. -/
def absolute? (text : Bytes) : Option Target :=
  let authority := text.takeWhile (!endsAuthority ·)
  if !authority.isEmpty && isAuthority authority then pathAndQuery? (text.drop authority.length)
  else none

def parse? (text : Bytes) : Option Target :=
  if text.length ≤ maxLength then
    match text with
    | [] => none
    | [42] => some ⟨text, none⟩
    | 47 :: _ => pathAndQuery? text
    | _ =>
      match splitScheme? text with
      | some (scheme, rest) => if scheme.length ≤ maxSchemeLength then absolute? rest else none
      | none =>
        if text.all (!endsAuthority ·) && isAuthority text then some ⟨[], none⟩ else none
  else none

end Target

end WalletAuth.Http
