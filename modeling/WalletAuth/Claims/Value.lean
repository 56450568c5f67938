import WalletAuth.Json.Parser

/-! Claim values: what a session token may carry beside the identity. A map is kept as a list of
entries with names in ascending byte order. -/

namespace WalletAuth

inductive ClaimValue where
  | null
  | bool (value : Bool)
  | integer (value : Int64)
  | float (value : Binary64)
  | text (value : String)
  | list (items : List ClaimValue)
  | map (entries : List (String × ClaimValue))
deriving Inhabited

/-- Named claims, with names in ascending byte order. -/
abbrev ClaimMap := List (String × ClaimValue)

namespace ClaimMap

/-- The order of names: by their bytes. -/
def before (a b : String) : Bool :=
  decide (Bytes.ofString a < Bytes.ofString b)

/-- Whether the names of a list of entries ascend, none met twice. -/
def Ascending {α : Type} (entries : List (String × α)) : Prop :=
  entries.Pairwise fun a b => before a.1 b.1 = true

/-- Puts an entry into its place; an entry of the same name is replaced. -/
def insert {α : Type} (name : String) (value : α) : List (String × α) → List (String × α)
  | [] => [(name, value)]
  | (other, kept) :: entries =>
    if name = other then (name, value) :: entries
    else if before name other then (name, value) :: (other, kept) :: entries
    else (other, kept) :: insert name value entries

/-- The entries of a list in order of their names; of repeated names the last entry counts. -/
def ofList {α : Type} (entries : List (String × α)) : List (String × α) :=
  entries.foldl (fun kept entry => insert entry.1 entry.2 kept) []

def without {α : Type} (names : List String) (entries : List (String × α)) : List (String × α) :=
  entries.filter fun entry => !names.contains entry.1

end ClaimMap

namespace ClaimValue

mutual

def toJson : ClaimValue → Json.Value
  | null => .null
  | bool value => .bool value
  | integer value => .ofInt value.toInt
  | float value => .number (.float value)
  | text value => .text value
  | list items => .list (toJsonItems items)
  | map entries => .object (toJsonEntries entries)

def toJsonItems : List ClaimValue → List Json.Value
  | [] => []
  | item :: items => item.toJson :: toJsonItems items

def toJsonEntries : List (String × ClaimValue) → List (String × Json.Value)
  | [] => []
  | (name, value) :: entries => (name, value.toJson) :: toJsonEntries entries

end

/-- The claim value of a number: an integer if it fits 64 bits with a sign. -/
def ofNumber : Json.Number → ClaimValue
  | .natural value =>
    if value < 0x8000000000000000 then integer (Int64.ofNat value)
    else float (Binary64.ofNat value)
  | .negative magnitude => integer (Int64.ofInt (-magnitude))
  | .float value => float value

mutual

def ofJson : Json.Value → ClaimValue
  | .null => null
  | .bool value => bool value
  | .number value => ofNumber value
  | .text value => text value
  | .list items => list (ofJsonItems items)
  | .object fields => map (ClaimMap.ofList (ofJsonFields fields))

def ofJsonItems : List Json.Value → List ClaimValue
  | [] => []
  | item :: items => ofJson item :: ofJsonItems items

/-- The claim values of the fields of an object, in their order and with repetitions. -/
def ofJsonFields : List (String × Json.Value) → List (String × ClaimValue)
  | [] => []
  | (name, value) :: fields => (name, ofJson value) :: ofJsonFields fields

end

def print (value : ClaimValue) : Bytes :=
  value.toJson.print

def parse? (input : Bytes) : Option ClaimValue :=
  (Json.parse? input).map ofJson

end ClaimValue

end WalletAuth
