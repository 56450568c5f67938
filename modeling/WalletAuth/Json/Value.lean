import WalletAuth.Json.Number
import WalletAuth.Json.Text

/-! JSON values and their compact text. The fields of an object keep their order and their
repetitions; what a repeated field means is for the reader to say. -/

namespace WalletAuth.Json

inductive Value where
  | null
  | bool (value : Bool)
  | number (value : Number)
  | text (value : String)
  | list (items : List Value)
  | object (fields : List (String × Value))
deriving Inhabited

def commaSeparated : List Bytes → Bytes
  | [] => []
  | [item] => item
  | item :: items => item ++ 44 :: commaSeparated items

mutual

/-- Writes a value without spaces. -/
def Value.print : Value → Bytes
  | .null => Bytes.ofString "null"
  | .bool true => Bytes.ofString "true"
  | .bool false => Bytes.ofString "false"
  | .number value => value.print
  | .text value => quote value
  | .list items => 91 :: (commaSeparated (printItems items) ++ [93])
  | .object fields => 123 :: (commaSeparated (printFields fields) ++ [125])

def Value.printItems : List Value → List Bytes
  | [] => []
  | item :: items => item.print :: printItems items

def Value.printFields : List (String × Value) → List Bytes
  | [] => []
  | (name, value) :: fields => (quote name ++ 58 :: value.print) :: printFields fields

end

def Value.ofInt (value : Int) : Value :=
  .number (if value < 0 then .negative value.natAbs else .natural value.toNat)

def Value.ofNat (value : Nat) : Value :=
  .number (.natural value)

end WalletAuth.Json
