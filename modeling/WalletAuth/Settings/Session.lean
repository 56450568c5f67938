import WalletAuth.Session.Service
import WalletAuth.Settings.Environment
import WalletAuth.Text.Blank

/-! The signing key of session tokens and how long they live. -/

namespace WalletAuth

/-- Why the server cannot be configured. -/
inductive ConfigError where
  /-- A variable is needed. -/
  | missing (name : String)
  /-- A variable has a value that it cannot have. -/
  | invalid (name value : String)
deriving DecidableEq, Repr

def ConfigError.message : ConfigError → String
  | missing name => name ++ " must be set"
  | invalid name value => name ++ " has an invalid value: " ++ value

structure SessionSettings where
  signingKey : String
  /-- How long tokens live, in seconds. -/
  lifetime : Nat
deriving DecidableEq

namespace SessionSettings

def keyVariable : String := "LN_JWT_KEY"

def hoursVariable : String := "JWT_EXPIRY_HOURS"

/-- The number that decimal digits write, if 64 bits hold it; there has to be a digit, and a plus may
stand in front. -/
def parseCount? (chars : List Char) : Option UInt64 :=
  let digits : List Char :=
    match chars with
    | '+' :: rest => rest
    | _ => chars
  let value : Nat := digits.foldl (fun value char => value * 10 + (char.toNat - '0'.toNat)) 0
  if (digits ≠ [] ∧ digits.all fun char => '0' ≤ char ∧ char ≤ '9') ∧ value < UInt64.size then
    some (UInt64.ofNat value)
  else none

/-- The product of two numbers, if 64 bits hold it. -/
def checkedMul? (left right : UInt64) : Option UInt64 :=
  if left.toNat * right.toNat < UInt64.size then some (left * right) else none

/-- The lifetime in seconds that a text gives in hours: at least one, and at most what fits a signed
integer of 64 bits. -/
def parseLifetime? (text : String) : Option Nat := do
  let hours ← parseCount? (Text.trimList text.toList)
  guard (0 < hours)
  let seconds ← checkedMul? hours 3600
  guard (seconds.toNat ≤ 0x7FFFFFFFFFFFFFFF)
  return seconds.toNat

/-- The lifetime that a text gives, or the error that quotes it. -/
def parseLifetime (text : String) : Except ConfigError Nat :=
  match parseLifetime? text with
  | some lifetime => .ok lifetime
  | none => .error (.invalid hoursVariable text)

/-- The settings that an environment asks for. The key is looked at first. -/
def ofEnvironment (environment : Environment) : Except ConfigError SessionSettings := do
  let key := (environment.text? keyVariable).getD ""
  if key.isEmpty then throw (.missing keyVariable)
  match environment.text? hoursVariable with
  | none => return ⟨key, SessionService.defaultLifetime⟩
  | some text => return ⟨key, ← parseLifetime text⟩

/-- The text shown in logs. The key is left out. -/
def describe (settings : SessionSettings) : String :=
  "SessionSettings \x7b signing_key: \"<redacted>\", ttl: " ++ Decimal.text settings.lifetime ++
    "s \x7d"

end SessionSettings

end WalletAuth
