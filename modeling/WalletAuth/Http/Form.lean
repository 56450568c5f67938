import WalletAuth.Encoding.Percent

/-! Forms: pairs of names and values in the query of a target. -/

namespace WalletAuth.Http.Form

/-- Decodes a name or a value: a plus stands for a blank, and what is no text is marked. -/
def decode (input : Bytes) : String :=
  Bytes.toStringLossy (Percent.decode (input.map fun char => if char = 43 then 32 else char))

/-- The pair that a part of a form spells; without an equals sign it is all name. -/
def pair (part : Bytes) : String × String :=
  (decode (part.takeWhile (· ≠ 61)), decode ((part.dropWhile (· ≠ 61)).drop 1))

/-- The pairs of a form. Empty parts are passed over. -/
def parse (input : Bytes) : List (String × String) :=
  ((input.splitOn 38).filter fun part => !part.isEmpty).map pair

/-- The value of a name that comes exactly once. -/
def only? (name : String) (pairs : List (String × String)) : Option String :=
  match pairs.filter fun pair => pair.1 == name with
  | [(_, value)] => some value
  | _ => none

end WalletAuth.Http.Form
