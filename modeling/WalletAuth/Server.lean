import WalletAuth.Access.Gate
import WalletAuth.Api.Description
import WalletAuth.Session.Service
import WalletAuth.Settings.Auth

/-! What a server knows while it runs. Nothing of it changes. -/

namespace WalletAuth

/-- The pages that show a description, and the document behind them, as answers to the requests at
their paths. They are no part of the server: whoever sets it up brings them along. -/
abbrev Documentation :=
  Description → Http.Request → Http.Response

/-- Documentation of which no file is there. -/
def Documentation.empty : Documentation :=
  fun _ _ => .empty 404

structure Server where
  settings : AuthSettings
  sessions : SessionService
  /-- The settings that decide who passes for an admin. -/
  policy : AuthSettings
  gate : ConnectionGate
  documentation : Documentation
  policy_eq : policy = settings
  gate_eq : gate = ⟨settings.connectionSecret⟩

namespace Server

attribute [simp] policy_eq gate_eq

/-- A server with given settings and sessions. Policy and gate are made from the settings. -/
def new (settings : AuthSettings) (sessions : SessionService) (documentation : Documentation) :
    Server where
  settings := settings
  sessions := sessions
  policy := settings
  gate := ⟨settings.connectionSecret⟩
  documentation := documentation
  policy_eq := rfl
  gate_eq := rfl

section New

variable (settings : AuthSettings) (sessions : SessionService) (documentation : Documentation)

@[simp]
theorem settings_new : (new settings sessions documentation).settings = settings := rfl

@[simp]
theorem sessions_new : (new settings sessions documentation).sessions = sessions := rfl

end New

end Server

end WalletAuth
