import GrassWorker.Entity
import GrassWorker.Foundations.Checks
import GrassWorker.Validator
import Mathlib.Data.List.Sort

/-! Credentials for source repositories, their versions, and the leases by which a build gets the secret of one. -/
namespace GrassWorker.SourceCredentials
open Checks Validator

abbrev Text := List Char

/-- A random token. It has not been drawn before, and it stands for its hash. -/
abbrev Token := Nat

inductive SourceCredentialKind
  | https | ssh
deriving DecidableEq, Repr

def SourceCredentialKind.asStr : SourceCredentialKind → String
  | https => "https"
  | ssh => "ssh"

inductive SourceCredentialError
  | notFound | revoked | endpointMismatch | invalidPayload | encryptionUnavailable | invalidLease
deriving DecidableEq, Repr

def SourceCredentialError.message : SourceCredentialError → String
  | notFound => "source credential was not found"
  | revoked => "source credential has been revoked"
  | endpointMismatch => "source credential does not match the repository endpoint"
  | invalidPayload => "source credential payload is invalid"
  | encryptionUnavailable => "source credential encryption is not configured"
  | invalidLease => "source credential lease is invalid or expired"

inductive StoredCredentialPayload
  | https (username secret : Text)
  | ssh (username privateKey : Text) (passphrase : Option Text)
deriving DecidableEq

namespace StoredCredentialPayload

def username : StoredCredentialPayload → Text
  | https username _ | ssh username _ _ => username

def kind : StoredCredentialPayload → SourceCredentialKind
  | https .. => .https
  | ssh .. => .ssh

def validate : StoredCredentialPayload → Except SourceCredentialError Unit
  | https username secret =>
    refuse (trim username = [] ∨ '\x00' ∈ username ∨ secret = [] ∨ '\x00' ∈ secret) .invalidPayload
  | ssh username privateKey passphrase =>
    refuse (trim username = [] ∨ '\x00' ∈ username ∨ '\x00' ∈ privateKey ∨ (∃ value ∈ passphrase, '\x00' ∈ value) ∨
      ¬"-----BEGIN ".toList <+: trim privateKey ∨ ¬"PRIVATE KEY-----".toList <:+ trim privateKey) .invalidPayload

end StoredCredentialPayload

structure AeadEnvelope where
  keyId : Text
  ciphertext : Text
deriving DecidableEq

structure SourceCredential where
  id : Uuid
  teamId : Uuid
  kind : SourceCredentialKind
  host : Text
  port : Int
  username : Option Text
  currentVersionId : Option Uuid
  revokedAt : Option Timestamp
deriving DecidableEq

structure SourceCredentialVersion where
  id : Uuid
  credentialId : Uuid
  version : Int
  keyId : Text
  /-- Stored as JSON; there is no envelope in what is not one. -/
  encryptedPayload : Option AeadEnvelope
  revokedAt : Option Timestamp
deriving DecidableEq

structure SourceCredentialLease where
  id : Uuid
  tokenHash : Token
  nodeId : Uuid
  deploymentId : Uuid
  credentialVersionId : Uuid
  expiresAt : Timestamp
  consumedAt : Option Timestamp
deriving DecidableEq

structure Deployment where
  id : Uuid
  buildStatus : BuildStatus
  buildNodeId : Option Uuid
  claimedAt : Option Timestamp
  sourceCredentialVersionId : Option Uuid
deriving DecidableEq

abbrev Credentials := Table SourceCredential SourceCredential.id fun _ => ([] : List Unit)

abbrev Versions := Table SourceCredentialVersion SourceCredentialVersion.id fun version => [(version.credentialId,version.version)]

abbrev Leases := Table SourceCredentialLease SourceCredentialLease.id fun lease =>
  [Sum.inl lease.tokenHash,Sum.inr lease.deploymentId]

abbrev Deployments := Table Deployment Deployment.id fun _ => ([] : List Unit)

/-- The keys that are configured, and the encryption of another package with the JSON of what it encrypts. -/
structure Library where
  key : Text → Option Text
  activeKey : Option (Text × Text)
  encryptSecret : Text → Text → StoredCredentialPayload → Text → Option AeadEnvelope
  decryptSecret : AeadEnvelope → Text → Text → Option StoredCredentialPayload

def leaseTtl : Int := 300000000

section Functions
variable (library : Library)

def associatedData (credential : SourceCredential) (version : Int) : Text :=
  s!"grass-source-credential:v1:{credential.teamId}:{credential.id}:{version}:{credential.kind.asStr}:".toList ++
    credential.host ++ s!":{credential.port}".toList

def encryptPayload (credential : SourceCredential) (version : Int) (payload : StoredCredentialPayload) :
    Except SourceCredentialError (Text × AeadEnvelope) := do
  payload.validate
  refuse (payload.kind ≠ credential.kind) .endpointMismatch
  match library.activeKey with
  | some (keyId,key) =>
    match library.encryptSecret keyId key payload (associatedData credential version) with
    | some envelope => return (keyId,envelope)
    | none => throw .encryptionUnavailable
  | none => throw .encryptionUnavailable

def leaseCanBeRedeemed (lease : SourceCredentialLease) (nodeId deploymentId : Uuid) (now : Timestamp) : Bool :=
  lease.nodeId = nodeId ∧ lease.deploymentId = deploymentId ∧ lease.consumedAt = none ∧ now < lease.expiresAt

def credentialVersionIsActive (credential : SourceCredential) (version : SourceCredentialVersion) : Bool :=
  credential.revokedAt = none ∧ version.revokedAt = none

/-- What `redeem_lease` makes of a version and its credential. -/
def redeemedPayload (credential : SourceCredential) (version : SourceCredentialVersion) :
    Except SourceCredentialError StoredCredentialPayload := do
  refuse (credentialVersionIsActive credential version = false) .revoked
  match library.key version.keyId with
  | none => throw .encryptionUnavailable
  | some key =>
    match version.encryptedPayload with
    | none => throw .invalidPayload
    | some envelope => do
      refuse (envelope.keyId ≠ version.keyId) .invalidPayload
      match library.decryptSecret envelope key (associatedData credential version.version) with
      | none => throw .invalidPayload
      | some payload => do
        payload.validate
        return payload

end Functions

def leaseByToken (leases : Leases) (token : Token) : Option SourceCredentialLease :=
  leases.rows.find? fun lease => lease.tokenHash = token

def getForTeam (credentials : Credentials) (teamId credentialId : Uuid) : Option SourceCredential :=
  (credentials.find credentialId).filter fun credential => credential.teamId = teamId

def latestVersion (versions : Versions) (credentialId : Uuid) : Option SourceCredentialVersion :=
  ((versions.rows.filter fun row : SourceCredentialVersion => row.credentialId = credentialId).insertionSort
    fun first second => second.version ≤ first.version).head?

theorem redeemedPayload_active {library : Library} {credential : SourceCredential} {version : SourceCredentialVersion}
    {payload : StoredCredentialPayload} (redeemed : redeemedPayload library credential version = .ok payload) :
    credential.revokedAt = none ∧ version.revokedAt = none := by
  obtain ⟨active,_⟩ := refuse_bind_eq_ok.mp redeemed
  simpa [credentialVersionIsActive] using active

end GrassWorker.SourceCredentials
