import WalletAuth.Http.Header

/-! Media types, as far as is needed to tell JSON from everything else. -/

namespace WalletAuth.Http

/-- A media type without its parameters, in lower case. -/
structure MediaType where
  type : Bytes
  subtype : Bytes
  /-- The part behind the last plus, if there is one. -/
  suffix : Option Bytes
deriving DecidableEq

namespace MediaType

/-- Splits a run of token characters off the front. -/
def takeToken (input : Bytes) : Bytes × Bytes :=
  (input.takeWhile isTokenChar, input.dropWhile isTokenChar)

/-- Whether a character may stand between quotes. -/
def isQuotedChar (char : UInt8) : Bool :=
  32 ≤ char && char ≠ 127

/-- What follows a quoted value: nothing, or further parameters behind blanks and a semicolon. -/
def afterQuoted? (input : Bytes) : Option Bytes :=
  match input.dropWhile (· == 32) with
  | [] => some []
  | 59 :: rest => some rest
  | _ => none

/-- Passes over the value of a parameter and what separates it from the next one. Between quotes
there is at least one character, which may be a quote; the next quote ends the value. -/
def passParameterValue? (input : Bytes) : Option Bytes :=
  match input with
  | 34 :: char :: rest =>
    if isQuotedChar char then
      let quoted := rest.takeWhile fun char => isQuotedChar char && char ≠ 34
      match rest.drop quoted.length with
      | 34 :: rest => afterQuoted? rest
      | _ => none
    else none
  | _ =>
    match takeToken input with
    | (_, []) => some []
    | (value, 59 :: rest) => if value.isEmpty then none else some rest
    | _ => none

/-- Whether parameters are well formed, in at most the given number of steps. Blanks may stand in
front of each. -/
def parametersOk : Nat → Bytes → Bool
  | 0, _ => false
  | steps + 1, input =>
    match input.dropWhile (· == 32) with
    | [] => true
    | input =>
      match takeToken input with
      | (name, 61 :: rest) =>
        !name.isEmpty &&
          match passParameterValue? rest with
          | some rest => parametersOk steps rest
          | none => false
      | _ => false

/-- Splits a subtype at its last plus, unless it starts with it. -/
def splitSuffix (name : Bytes) : Bytes × Option Bytes :=
  match name with
  | [] => ([], none)
  | first :: rest =>
    if rest.contains 43 then
      let suffix := (rest.reverse.takeWhile (· ≠ 43)).reverse
      (first :: rest.take (rest.length - suffix.length - 1), some suffix)
    else (name, none)

def parse? (input : Bytes) : Option MediaType :=
  match takeToken input with
  | (type, 47 :: rest) =>
    let (name, parameters) := takeToken rest
    let isWellFormed :=
      match parameters with
      | [] => true
      | 59 :: parameters => !name.isEmpty && parametersOk (parameters.length + 1) parameters
      | _ => false
    if !type.isEmpty && isWellFormed then
      let (subtype, suffix) := splitSuffix (name.map lowerChar)
      some ⟨type.map lowerChar, subtype, suffix⟩
    else none
  | _ => none

/-- Whether a media type is JSON or based on it. -/
def isJson (mediaType : MediaType) : Bool :=
  let json := Bytes.ofString "json"
  mediaType.type == Bytes.ofString "application" &&
    (mediaType.subtype == json || mediaType.suffix == some json)

end MediaType

/-- Whether header fields announce a body in JSON. -/
def Headers.announceJson (headers : Headers) : Bool :=
  match Headers.first? headers "content-type" with
  | some value => Header.isReadable value && (MediaType.parse? value).any MediaType.isJson
  | none => false

end WalletAuth.Http
