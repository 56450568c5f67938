import WalletAuth.Bytes

/-! The environment that the server is configured from. -/

namespace WalletAuth

/-- The value of each variable that is set. Values need not be text. -/
abbrev Environment := String → Option Bytes

namespace Environment

def empty : Environment := fun _ => none

def set (environment : Environment) (name : String) (value : Bytes) : Environment :=
  fun other => if other = name then some value else environment other

/-- The text of a variable. One that is set to something else counts as not set. -/
def text? (environment : Environment) (name : String) : Option String :=
  (environment name).bind Bytes.toString?

end Environment

end WalletAuth
