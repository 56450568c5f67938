import WalletAuth.Json.Parser

/-! The header of a session token. Tokens are issued with one fixed header; on tokens that come in,
any header is accepted that names the same algorithm and whose other fields hold what their names
promise. -/

namespace WalletAuth.TokenHeader

open Json (Value)

/-- The only algorithm: HMAC with SHA-256. -/
def algorithm : String := "HS256"

/-- The header of the tokens that are issued. -/
def issued : Value :=
  .object [("typ", .text "JWT"), ("alg", .text algorithm)]

def isText : Value → Bool
  | .text _ => true
  | _ => false

/-- Whether a value is a text or null. -/
def isOptionalText : Value → Bool
  | .null => true
  | value => isText value

/-- Whether a value is a list of texts or null. -/
def isOptionalTexts : Value → Bool
  | .null => true
  | .list items => items.all isText
  | _ => false

/-- The name that a value chooses: a text, or the only field of an object, with null. -/
def chosen? : Value → Option String
  | .text name => some name
  | .object [(name, .null)] => some name
  | _ => none

/-- Whether no two fields with the given names have the same name. -/
def namesOnce (names : List String) (fields : List (String × Value)) : Bool :=
  names.all fun name => (fields.filter fun field => field.1 == name).length ≤ 1

/-! ### Embedded keys -/

/-- The fields that any embedded key may have. -/
def commonKeyFields : List String :=
  ["use", "key_ops", "alg", "kid", "x5u", "x5c", "x5t", "x5t#S256"]

/-- The curves an embedded key may lie on. -/
def keyCurves : List String :=
  ["P-256", "P-384", "P-521", "Ed25519"]

/-- Whether a value chooses an algorithm for an embedded key, of any name, or none. In an object the
name may come with an empty object instead of null. -/
def isOptionalAlgorithm : Value → Bool
  | .null => true
  | .object [(_, .object [])] => true
  | value => (chosen? value).isSome

/-- Whether a field that any embedded key may have holds what it should. -/
def commonKeyFieldOk (name : String) (value : Value) : Bool :=
  if name = "key_ops" ∨ name = "x5c" then isOptionalTexts value
  else if name = "alg" then isOptionalAlgorithm value
  else isOptionalText value

/-- Whether the fields particular to one type of key are there, once each; those of other types may
hold anything. -/
def keyTypeOk (type : String) (needsCurve : Bool) (texts : List String)
    (fields : List (String × Value)) : Bool :=
  let choice (name : String) := (fields.lookup name).bind chosen?
  namesOnce ("kty" :: if needsCurve then "crv" :: texts else texts) fields &&
    choice "kty" == some type &&
    (!needsCurve || ((choice "crv").any fun curve => keyCurves.contains curve)) &&
    texts.all fun name => (fields.lookup name).any isText

def isKey : Value → Bool
  | .object fields =>
    let common := fields.filter fun field => commonKeyFields.contains field.1
    let particular := fields.filter fun field => !commonKeyFields.contains field.1
    namesOnce commonKeyFields common &&
      common.all (fun field => commonKeyFieldOk field.1 field.2) &&
      (keyTypeOk "EC" true ["x", "y"] particular || keyTypeOk "RSA" false ["n", "e"] particular ||
        keyTypeOk "oct" false ["k"] particular || keyTypeOk "OKP" true ["x"] particular)
  | _ => false

/-! ### The header -/

def textFields : List String :=
  ["typ", "cty", "jku", "kid", "x5u", "x5t", "x5t#S256", "enc", "zip", "url", "nonce"]

def textListFields : List String :=
  ["x5c", "crit"]

/-- Whether a field holds what its name promises; fields of any other name hold a text. -/
def fieldOk (name : String) (value : Value) : Bool :=
  if textFields.contains name then isOptionalText value
  else if textListFields.contains name then isOptionalTexts value
  else if name = "jwk" then value matches .null || isKey value
  else if name = "alg" then chosen? value == some algorithm
  else isText value

/-- Whether a header is accepted: the algorithm is named, and every field is in order. -/
def accepts : Value → Bool
  | .object fields =>
    fields.any (fun field => field.1 == "alg") &&
      namesOnce ("alg" :: "jwk" :: (textFields ++ textListFields)) fields &&
      fields.all fun field => fieldOk field.1 field.2
  | _ => false

end WalletAuth.TokenHeader
