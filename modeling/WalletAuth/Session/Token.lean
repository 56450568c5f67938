import WalletAuth.Claims.Session
import WalletAuth.Encoding.Base64Url
import WalletAuth.Hash.Hmac
import WalletAuth.Session.Error
import WalletAuth.Session.Header

/-! Session tokens: a header, claims and an authentication code of both under the service's secret,
each in bare base64, separated by points. -/

namespace WalletAuth.SessionToken

open Json (Value)

/-- The separator of the three parts. -/
def point : UInt8 := 46

/-- The token of given claims under a secret. -/
def encode (secret : Bytes) (claims : SessionClaims) : Bytes :=
  let signed :=
    Base64Url.encodeBare TokenHeader.issued.print ++ point :: Base64Url.encodeBare claims.print
  signed ++ point :: Base64Url.encodeBare (Hmac.code secret signed)

/-- Splits at the last point. -/
def splitLast? (text : Bytes) : Option (Bytes × Bytes) :=
  let backwards := text.reverse
  match backwards.dropWhile (· ≠ point) with
  | [] => none
  | _ :: front => some (front.reverse, (backwards.takeWhile (· ≠ point)).reverse)

/-! ### Registered claims -/

/-- The claim names that have a meaning of their own in any token. -/
def registeredNames : List String :=
  ["exp", "nbf", "sub", "iss", "aud"]

/-- Whether the registered claims can be read: none is repeated, a start is no list or map with
anything in it, and a subject is no list or map at all. -/
def registeredReadable (fields : List (String × Value)) : Bool :=
  TokenHeader.namesOnce registeredNames fields &&
    fields.all fun (name, value) =>
      match value with
      | .list items => !(name == "sub" || (name == "nbf" && !items.isEmpty))
      | .object entries => !(name == "sub" || (name == "nbf" && !entries.isEmpty))
      | _ => true

/-- Whether the claims name an audience: a text or a list of texts. -/
def namesAudience (fields : List (String × Value)) : Bool :=
  fields.any fun (name, value) =>
    name == "aud" &&
      match value with
      | .text _ => true
      | .list items => items.all TokenHeader.isText
      | _ => false

/-! ### Opening -/

/-- What a token holds once its form and its authentication code are found good. -/
structure Content where
  claims : SessionClaims
  /-- Whether it names an audience. This service is none. -/
  hasAudience : Bool

/-- The content of a token whose code verifies under a secret, whatever the time is. -/
def open? (secret : Bytes) (token : Bytes) : Option Content := do
  let (signed, code) ← splitLast? token
  let (header, payload) ← splitLast? signed
  let header ← (Base64Url.decodeBare? header).bind Json.parse?
  guard (TokenHeader.accepts header)
  guard ((← Base64Url.decodeBare? code) = Hmac.code secret signed)
  let fields ← (Base64Url.decodeBare? payload).bind SessionClaims.parseFields?
  let claims ← SessionClaims.ofFields? fields
  guard (0 ≤ claims.expiresAt.toInt ∧ registeredReadable fields)
  return ⟨claims, namesAudience fields⟩

/-- How many seconds a token is accepted beyond its expiry. -/
def leeway : Int := 60

/-- The claims of a token at a given time. A token that is too old is reported as such even if it is
meant for some audience; any other fault makes it invalid. The clock has to show a minute at least:
the leeway is taken off the time as an unsigned number, which is not followed below that. -/
def decode (secret : Bytes) (token : Bytes) (now : Int64) : Except SessionError SessionClaims :=
  match open? secret token with
  | none => .error .invalid
  | some content =>
    if content.claims.expiresAt.toInt + leeway < now.toInt then .error .expired
    else if content.hasAudience then .error .invalid
    else .ok content.claims

end WalletAuth.SessionToken
