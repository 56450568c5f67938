import WalletAuth.Access.Error
import WalletAuth.Settings.Auth

/-! Who passes for an admin. -/

namespace WalletAuth.AuthSettings

/-- Whether a key is in the admin list. Keys are compared as they are, and the empty key is never
in it. -/
def isAdmin (settings : AuthSettings) (pubkey : String) : Bool :=
  !pubkey.isEmpty && settings.admins.contains pubkey

/-- Whether everybody passes for an admin: nobody is configured, or nobody but the development pass
that stood in for an empty list. -/
def freePass (settings : AuthSettings) : Bool :=
  match settings.admins with
  | [] => true
  | [only] => !settings.devPass.isEmpty && only == settings.devPass && settings.adminText.isEmpty
  | _ => false

/-- Refuses everybody who does not pass for an admin. -/
def authorizeAdmin (settings : AuthSettings) (pubkey : String) : Except AccessError Unit :=
  if settings.freePass || settings.isAdmin pubkey then .ok () else .error .authorizationDenied

end WalletAuth.AuthSettings
