import WalletAuth.Settings.Admins
import WalletAuth.Settings.Environment

/-! Who may do what: the admin list, the development pass and the connection secret. -/

namespace WalletAuth

/-- The settings of access control. -/
structure AuthSettings where
  admins : List String
  /-- The text that the admin list was read from. -/
  adminText : String
  /-- The entry that stands for everybody in development. -/
  devPass : String
  /-- The secret of connection routes; empty if there is none. -/
  connectionSecret : String
deriving DecidableEq

namespace AuthSettings

/-- The settings for an admin list as text. If the list has no entries, the development pass is the
only one, unless it is empty. -/
def ofText (adminText devPass connectionSecret : String) : AuthSettings :=
  let admins := Admins.parse adminText
  ⟨if admins.isEmpty ∧ devPass ≠ "" then [devPass] else admins, adminText, devPass,
    connectionSecret⟩

def defaultDevPass : String := "FREE_PASS"

def ofEnvironment (environment : Environment) : AuthSettings :=
  ofText ((environment.text? "ADMINS").getD "")
    ((environment.text? "ADMIN_DEV_FREE_PASS").getD defaultDevPass)
    ((environment.text? "CONNECTION_AUTH").getD "")

end AuthSettings

end WalletAuth
