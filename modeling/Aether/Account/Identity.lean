import Mathlib.Data.Vector.Defs

/-! What a device is known by: its account, its keys and the profile that the account gave it.

A certificate lives for a year and is renewed in its last week; one that was never dated, or
that is dated in the future, counts as expiring. -/
namespace Aether.Account

abbrev Bytes := List UInt8

/-- `AetherError`; the errors of other crates by their texts. -/
inductive AetherError where
  | io (text : String)
  | quic (text : String)
  | h3 (text : String)
  | tls (text : String)
  | ech (text : String)
  | masque (text : String)
  | noCleanEndpoint
  | capsule (text : String)
  | api (text : String)
  | identityRefused (text : String)
  | cancelled
  | other (text : String)
  deriving DecidableEq, Repr

def AetherError.display : AetherError → String
  | io text => "io: " ++ text
  | quic text => "quic: " ++ text
  | h3 text => "h3: " ++ text
  | tls text => "tls: " ++ text
  | ech text => "ech: " ++ text
  | masque text => "masque: " ++ text
  | noCleanEndpoint => "prober: no clean endpoint found"
  | capsule text => "capsule: " ++ text
  | api text => "api: " ++ text
  | identityRefused text => "identity refused: " ++ text
  | cancelled => "cancelled"
  | other text => "other: " ++ text

structure Identity where
  deviceId : String
  accessToken : String
  certPem : Bytes
  keyPem : Bytes
  certIssuedAt : UInt64
  ipv4 : String
  ipv6 : String
  wgPrivateKey : List.Vector UInt8 32
  wgPeerPublicKey : List.Vector UInt8 32
  clientId : List.Vector UInt8 3
  organization : String
  gatewayProxy : String
  assignedEndpoint : String
  refused : Bool
  deriving DecidableEq

/-! ### Certificates -/

def masqueCertLifetimeDays : Nat := 365

def masqueCertLifetimeSecs : Nat := masqueCertLifetimeDays * 86400

def masqueCertRenewBeforeSecs : Nat := 7 * 86400

/-- `masque_cert_expiring`, at a reading of the clock. -/
def masqueCertExpiring (now : Nat) (issuedAt : UInt64) : Bool :=
  if issuedAt = 0 then true
  else if now < issuedAt.toNat then true
  else decide (masqueCertLifetimeSecs ≤ now - issuedAt.toNat + masqueCertRenewBeforeSecs)

namespace Identity
variable (now : Nat) (identity : Identity)

/-- A certificate and its key are there. -/
def hasCertificate : Bool := !identity.certPem.isEmpty && !identity.keyPem.isEmpty

def hasMasqueCredentials : Bool := identity.hasCertificate && !masqueCertExpiring now identity.certIssuedAt

/-- `cert_still_usable`. -/
def certStillUsable : Bool :=
  if !identity.hasCertificate then false
  else if identity.certIssuedAt = 0 then false
  else if now < identity.certIssuedAt.toNat then false
  else decide (now - identity.certIssuedAt.toNat < masqueCertLifetimeSecs)

end Identity

end Aether.Account
