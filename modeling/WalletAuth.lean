import WalletAuth.Api.Router
import WalletAuth.Proofs.Access.Credential
import WalletAuth.Proofs.Access.Dispatch
import WalletAuth.Proofs.Access.Policy
import WalletAuth.Proofs.Access.Timestamp
import WalletAuth.Proofs.Api.Answer
import WalletAuth.Proofs.Api.Extraction
import WalletAuth.Proofs.Api.Failure
import WalletAuth.Proofs.Api.Gate
import WalletAuth.Proofs.Api.Health
import WalletAuth.Proofs.Api.Interchange
import WalletAuth.Proofs.Claims.Lossless
import WalletAuth.Proofs.Session.Lifecycle
import WalletAuth.Proofs.Session.Payload
import WalletAuth.Proofs.Session.Service
import WalletAuth.Proofs.Session.Validity
import WalletAuth.Proofs.Settings.Session
import WalletAuth.Proofs.Signature.Binding
import WalletAuth.Proofs.Signature.Signing
import WalletAuth.Proofs.Signature.Transport
import WalletAuth.Proofs.Signature.WireForms
import WalletAuth.Settings.Session
