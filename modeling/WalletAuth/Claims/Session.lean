import WalletAuth.Claims.Value

/-! The claims of a session token: who it was issued to, when, until when, and anything else that
was asked for. -/

namespace WalletAuth

/-- The claims of a session token. Times are in Unix seconds. -/
structure SessionClaims where
  pubkey : String
  issuedAt : Int64
  expiresAt : Int64
  extra : ClaimMap
deriving Inhabited

namespace SessionClaims

/-- The names that belong to the service. -/
def reservedNames : List String :=
  ["pubkey", "iat", "exp"]

/-- The fields of the claims: the reserved ones first, then the others by name. -/
def fields (claims : SessionClaims) : List (String × Json.Value) :=
  [("pubkey", .text claims.pubkey), ("iat", .ofInt claims.issuedAt.toInt),
    ("exp", .ofInt claims.expiresAt.toInt)] ++ ClaimValue.toJsonEntries claims.extra

def print (claims : SessionClaims) : Bytes :=
  (Json.Value.object claims.fields).print

/-- The value of the only field of a given name. -/
def onlyField? (name : String) (fields : List (String × Json.Value)) : Option Json.Value :=
  match fields.filter fun field => field.1 == name with
  | [(_, value)] => some value
  | _ => none

def onlyText? (name : String) (fields : List (String × Json.Value)) : Option String :=
  match onlyField? name fields with
  | some (.text value) => some value
  | _ => none

def onlyTime? (name : String) (fields : List (String × Json.Value)) : Option Int64 :=
  match (onlyField? name fields).map ClaimValue.ofJson with
  | some (.integer value) => some value
  | _ => none

/-- The claims that fields spell: the reserved names once each, with a text and two integers. -/
def ofFields? (fields : List (String × Json.Value)) : Option SessionClaims :=
  match onlyText? "pubkey" fields, onlyTime? "iat" fields, onlyTime? "exp" fields with
  | some pubkey, some issuedAt, some expiresAt =>
    some ⟨pubkey, issuedAt, expiresAt,
      ClaimMap.ofList (ClaimMap.without reservedNames (ClaimValue.ofJsonFields fields))⟩
  | _, _, _ => none

/-- The fields of the object that a text spells. -/
def parseFields? (input : Bytes) : Option (List (String × Json.Value)) :=
  match Json.parse? input with
  | some (.object fields) => some fields
  | _ => none

def parse? (input : Bytes) : Option SessionClaims :=
  (parseFields? input).bind ofFields?

end SessionClaims

end WalletAuth
