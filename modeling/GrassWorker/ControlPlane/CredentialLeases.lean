import GrassWorker.Domain.SourceCredentials
import GrassWorker.Foundations.Mutexes

/-! Leases are issued when a deployment is claimed and redeemed by the node that builds it, while credentials are
rotated and revoked. Each statement of a transaction is an action of its own. -/
namespace GrassWorker.SourceCredentials
open Interleaving

inductive Lock
  | lease (id : Uuid)
  | credential (id : Uuid)
deriving DecidableEq

structure Revoked where
  credentials : List Uuid
  versions : List Uuid
deriving DecidableEq

/-- A claim of a deployment that had a version of a credential, and the lease issued for it. -/
structure Claim where
  lease : Uuid
  token : Token
  nodeId : Uuid
  deploymentId : Uuid
  versionId : Uuid
  expiresAt : Timestamp
deriving DecidableEq

structure Redemption where
  lease : Uuid
  token : Token
  nodeId : Uuid
  deploymentId : Uuid
  credential : SourceCredential
  version : SourceCredentialVersion
  secret : StoredCredentialPayload
  checkedAt : Timestamp
  began : Revoked
deriving DecidableEq

structure Shared where
  credentials : Credentials
  versions : Versions
  leases : Leases
  deployments : Deployments
  locks : Multiset Lock := 0
  drawn : Nat
  claims : List Claim := []
  redeemed : List Redemption := []

def Shared.revoked (s : Shared) : Revoked where
  credentials := (s.credentials.rows.filter fun row => row.revokedAt.isSome).map SourceCredential.id
  versions := (s.versions.rows.filter fun row => row.revokedAt.isSome).map SourceCredentialVersion.id

/-- A redemption under way: who asks for what, and what had been revoked when it began. -/
structure Redeeming where
  nodeId : Uuid
  deploymentId : Uuid
  token : Token
  began : Revoked
deriving DecidableEq

inductive Request
  | redeem (nodeId deploymentId : Uuid) (token : Token)
  | rotate (teamId credentialId : Uuid) (secret : StoredCredentialPayload)
  | revoke (teamId credentialId : Uuid)
  | claim (nodeId deploymentId : Uuid)
  /-- Builds go on, fail and are put back by other requests. -/
  | changeBuild (deploymentId : Uuid) (status : BuildStatus)

inductive Handler
  | readOwned (nodeId deploymentId : Uuid) (token : Token)
  | startRedeeming (nodeId deploymentId : Uuid) (token : Token)
  | lockLease (redeeming : Redeeming)
  | readVersion (redeeming : Redeeming) (lease : SourceCredentialLease)
  | readCredential (redeeming : Redeeming) (lease : SourceCredentialLease) (version : SourceCredentialVersion) (now : Timestamp)
  | consume (redeeming : Redeeming) (lease : SourceCredentialLease) (version : SourceCredentialVersion)
      (credential : SourceCredential) (secret : StoredCredentialPayload) (now : Timestamp)
  | lockCredential (teamId credentialId : Uuid) (secret : StoredCredentialPayload)
  | readLatest (credential : SourceCredential) (secret : StoredCredentialPayload)
  | writeVersion (credential : SourceCredential) (number : Int) (keyId : Text) (envelope : AeadEnvelope) (username : Text)
  | readRevoked (teamId credentialId : Uuid)
  | revokeVersions (credential : SourceCredential)
  | revokeCredential (credential : SourceCredential) (versionIds : List Uuid) (now : Timestamp)
  | readCandidate (nodeId deploymentId : Uuid)
  | claim (nodeId : Uuid) (candidate : Deployment)
  | changeBuild (deploymentId : Uuid) (status : BuildStatus)
deriving DecidableEq

def Handler.guards : Handler → Multiset Lock
  | .readVersion _ lease | .readCredential _ lease _ _ | .consume _ lease _ _ _ _ => {.lease lease.id}
  | .readLatest credential _ | .writeVersion credential _ _ _ _ => {.credential credential.id}
  | _ => 0

structure Input where
  now : Timestamp
  fails : Bool := false

def Shared.leave (s : Shared) (handler : Handler) : Shared := { s with locks := s.locks - handler.guards }

def locking (s : Shared) (lock : Lock) (waiting next : Handler) : Shared × Option Handler :=
  if lock ∈ s.locks then (s,some waiting) else ({ s with locks := lock ::ₘ s.locks },some next)

def reading {α : Type} (s : Shared) (handler : Handler) (found : Option α) (next : α → Option Handler) : Shared × Option Handler :=
  match found.bind next with
  | some next => (s,some next)
  | none => (s.leave handler,none)

/-- The last statement of `redeem_lease`. -/
def writeConsumed (s : Shared) (lease : SourceCredentialLease) (now : Timestamp) : Option Leases :=
  s.leases.update lease.id (fun row => { row with consumedAt := some now }) fun _ => rfl

/-- The last statements of `rotate`. -/
def writeRotated (s : Shared) (credential : SourceCredential) (number : Int) (keyId : Text) (envelope : AeadEnvelope)
    (username : Text) : Option (Versions × Credentials) := do
  let versions ← s.versions.insert ⟨s.drawn,credential.id,number,keyId,some envelope,none⟩
  let credentials ← s.credentials.update credential.id
    (fun row => { row with currentVersionId := some s.drawn, username := some username }) fun _ => rfl
  return (versions,credentials)

/-- What `revoke` commits: the versions its first statement found, and the credential. -/
def writeRevoked (s : Shared) (credential : SourceCredential) (versionIds : List Uuid) (now : Timestamp) :
    Option (Versions × Credentials) := do
  let versions ← s.versions.updateWhere (fun row => row.id ∈ versionIds ∧ row.revokedAt = none)
    (fun row => { row with revokedAt := some now }) fun _ => rfl
  let credentials ← s.credentials.update credential.id (fun row => { row with revokedAt := some now }) fun _ => rfl
  return (versions,credentials)

def issueLease (s : Shared) (nodeId : Uuid) (candidate : Deployment) (now : Timestamp) : Option Leases :=
  match candidate.sourceCredentialVersionId with
  | some versionId => s.leases.insert ⟨s.drawn,s.drawn,nodeId,candidate.id,versionId,now + leaseTtl,none⟩
  | none => some s.leases

/-- The transaction of `claim`: the deployment, if it is still pending, and the lease of its credential. -/
def writeClaim (s : Shared) (nodeId : Uuid) (candidate : Deployment) (now : Timestamp) : Option (Deployments × Leases) := do
  let row ← (s.deployments.find candidate.id).filter fun row => row.buildStatus = .pending
  let deployments ← s.deployments.update row.id
    (fun row => { row with buildStatus := .claimed, buildNodeId := some nodeId, claimedAt := some now }) fun _ => rfl
  let leases ← issueLease s nodeId candidate now
  return (deployments,leases)

def claimed (s : Shared) (nodeId deploymentId : Uuid) (now : Timestamp) : List Claim :=
  (((s.deployments.find deploymentId).bind Deployment.sourceCredentialVersionId).map fun versionId =>
    ⟨s.drawn,s.drawn,nodeId,deploymentId,versionId,now + leaseTtl⟩).toList

def advance (library : Library) (input : Input) (s : Shared) (handler : Handler) : Shared × Option Handler :=
  match handler with
  | .readOwned nodeId deploymentId token =>
    reading s handler ((s.deployments.find deploymentId).filter fun row => row.buildNodeId = some nodeId) fun _ =>
      some (.startRedeeming nodeId deploymentId token)
  | .startRedeeming nodeId deploymentId token => (s,some (.lockLease ⟨nodeId,deploymentId,token,s.revoked⟩))
  | .lockLease redeeming =>
    match leaseByToken s.leases redeeming.token with
    | some lease => locking s (.lease lease.id) handler (.readVersion redeeming lease)
    | none => (s.leave handler,none)
  | .readVersion redeeming lease =>
    if leaseCanBeRedeemed lease redeeming.nodeId redeeming.deploymentId input.now then
      reading s handler (s.versions.find lease.credentialVersionId) fun version =>
        some (.readCredential redeeming lease version input.now)
    else (s.leave handler,none)
  | .readCredential redeeming lease version now =>
    reading s handler (s.credentials.find version.credentialId) fun credential =>
      (redeemedPayload library credential version).toOption.map fun secret =>
        .consume redeeming lease version credential secret now
  | .consume redeeming lease version credential secret now =>
    match writeConsumed s lease now with
    | some leases =>
      -- a port that is none is found out when the lease is consumed already
      ({ s.leave handler with
        leases
        redeemed := s.redeemed ++
          if 0 ≤ credential.port ∧ credential.port < 65536 then
            [⟨lease.id,redeeming.token,redeeming.nodeId,redeeming.deploymentId,credential,version,secret,now,redeeming.began⟩]
          else [] },none)
    | none => (s.leave handler,none)
  | .lockCredential teamId credentialId secret =>
    match getForTeam s.credentials teamId credentialId with
    | some credential => locking s (.credential credential.id) handler (.readLatest credential secret)
    | none => (s.leave handler,none)
  | .readLatest credential secret =>
    if credential.revokedAt.isSome then (s.leave handler,none)
    else
      reading s handler (latestVersion s.versions credential.id) fun current =>
        (encryptPayload library credential (current.version + 1) secret).toOption.map fun encrypted =>
          .writeVersion credential (current.version + 1) encrypted.1 encrypted.2 secret.username
  | .writeVersion credential number keyId envelope username =>
    match writeRotated s credential number keyId envelope username with
    | some (versions,credentials) => ({ s.leave handler with versions, credentials, drawn := s.drawn + 1 },none)
    | none => (s.leave handler,none)
  | .readRevoked teamId credentialId =>
    reading s handler (getForTeam s.credentials teamId credentialId) fun credential => some (.revokeVersions credential)
  | .revokeVersions credential =>
    (s,some (.revokeCredential credential
      ((s.versions.rows.filter fun row => row.credentialId = credential.id ∧ row.revokedAt = none).map
        SourceCredentialVersion.id) input.now))
  | .revokeCredential credential versionIds now =>
    if .credential credential.id ∈ s.locks then (s,some handler)
    else
      match writeRevoked s credential versionIds now with
      | some (versions,credentials) => ({ s with versions, credentials },none)
      | none => (s.leave handler,none)
  | .readCandidate nodeId deploymentId =>
    reading s handler ((s.deployments.find deploymentId).filter fun row => row.buildStatus = .pending) fun candidate =>
      some (.claim nodeId candidate)
  | .claim nodeId candidate =>
    match writeClaim s nodeId candidate input.now with
    | some (deployments,leases) =>
      ({ s with
        deployments
        leases
        drawn := s.drawn + 1
        claims := s.claims ++ claimed s nodeId candidate.id input.now },none)
    | none => (s.leave handler,none)
  | .changeBuild deploymentId status =>
    match s.deployments.update deploymentId (fun row => { row with buildStatus := status }) fun _ => rfl with
    | some deployments => ({ s with deployments },none)
    | none => (s.leave handler,none)

def act (library : Library) (input : Input) (s : Shared) (handler : Handler) : Shared × Option Handler :=
  if input.fails then (s.leave handler,none) else advance library input s handler

def enter : Request → Handler
  | .redeem nodeId deploymentId token => .readOwned nodeId deploymentId token
  | .rotate teamId credentialId secret => .lockCredential teamId credentialId secret
  | .revoke teamId credentialId => .readRevoked teamId credentialId
  | .claim nodeId deploymentId => .readCandidate nodeId deploymentId
  | .changeBuild deploymentId status => .changeBuild deploymentId status

def machine (library : Library) : Machine Shared Handler Request Input := ⟨enter,act library⟩

def idle (credentials : Credentials) (versions : Versions) (deployments : Deployments) (drawn : Nat) : Config Shared Handler :=
  ⟨{ credentials, versions, leases := ∅, deployments, drawn },[]⟩

inductive Acts (library : Library) (input : Input) (s : Shared) : Handler → Shared → Option Handler → Prop
  | waits (handler : Handler) : Acts library input s handler s (some handler)
  | ends (handler : Handler) : Acts library input s handler (s.leave handler) none
  | owned (nodeId deploymentId : Uuid) (token : Token) :
      Acts library input s (.readOwned nodeId deploymentId token) s (some (.startRedeeming nodeId deploymentId token))
  | started (nodeId deploymentId : Uuid) (token : Token) :
      Acts library input s (.startRedeeming nodeId deploymentId token) s
        (some (.lockLease ⟨nodeId,deploymentId,token,s.revoked⟩))
  | lockedLease (redeeming : Redeeming) (lease : SourceCredentialLease)
      (found : leaseByToken s.leases redeeming.token = some lease) (free : .lease lease.id ∉ s.locks) :
      Acts library input s (.lockLease redeeming) { s with locks := .lease lease.id ::ₘ s.locks }
        (some (.readVersion redeeming lease))
  | versionRead (redeeming : Redeeming) (lease : SourceCredentialLease) (version : SourceCredentialVersion)
      (open' : leaseCanBeRedeemed lease redeeming.nodeId redeeming.deploymentId input.now = true)
      (found : s.versions.find lease.credentialVersionId = some version) :
      Acts library input s (.readVersion redeeming lease) s (some (.readCredential redeeming lease version input.now))
  | credentialRead (redeeming : Redeeming) (lease : SourceCredentialLease) (version : SourceCredentialVersion) (now : Timestamp)
      (credential : SourceCredential) (secret : StoredCredentialPayload)
      (found : s.credentials.find version.credentialId = some credential)
      (payload : redeemedPayload library credential version = .ok secret) :
      Acts library input s (.readCredential redeeming lease version now) s
        (some (.consume redeeming lease version credential secret now))
  | consumed (redeeming : Redeeming) (lease : SourceCredentialLease) (version : SourceCredentialVersion)
      (credential : SourceCredential) (secret : StoredCredentialPayload) (now : Timestamp) (leases : Leases)
      (written : s.leases.update lease.id (fun row => { row with consumedAt := some now }) (fun _ => rfl) = some leases)
      (redemptions : List Redemption) (given : redemptions = [] ∨ redemptions =
        [⟨lease.id,redeeming.token,redeeming.nodeId,redeeming.deploymentId,credential,version,secret,now,redeeming.began⟩]) :
      Acts library input s (.consume redeeming lease version credential secret now)
        { s.leave (.consume redeeming lease version credential secret now) with
          leases, redeemed := s.redeemed ++ redemptions } none
  | lockedCredential (teamId credentialId : Uuid) (secret : StoredCredentialPayload) (credential : SourceCredential)
      (free : .credential credential.id ∉ s.locks) :
      Acts library input s (.lockCredential teamId credentialId secret) { s with locks := .credential credential.id ::ₘ s.locks }
        (some (.readLatest credential secret))
  | encrypted (credential : SourceCredential) (secret : StoredCredentialPayload) (number : Int) (keyId : Text)
      (envelope : AeadEnvelope) :
      Acts library input s (.readLatest credential secret) s
        (some (.writeVersion credential number keyId envelope secret.username))
  | rotated (credential : SourceCredential) (number : Int) (keyId : Text) (envelope : AeadEnvelope) (username : Text)
      (versions : Versions) (credentials : Credentials)
      (inserted : s.versions.insert ⟨s.drawn,credential.id,number,keyId,some envelope,none⟩ = some versions)
      (updated : s.credentials.update credential.id
        (fun row => { row with currentVersionId := some s.drawn, username := some username }) (fun _ => rfl) = some credentials) :
      Acts library input s (.writeVersion credential number keyId envelope username)
        { s.leave (.writeVersion credential number keyId envelope username) with
          versions, credentials, drawn := s.drawn + 1 } none
  | toRevoke (teamId credentialId : Uuid) (credential : SourceCredential) :
      Acts library input s (.readRevoked teamId credentialId) s (some (.revokeVersions credential))
  | listed (credential : SourceCredential) (versionIds : List Uuid) :
      Acts library input s (.revokeVersions credential) s (some (.revokeCredential credential versionIds input.now))
  | revoked (credential : SourceCredential) (versionIds : List Uuid) (now : Timestamp) (versions : Versions)
      (credentials : Credentials)
      (marked : s.versions.updateWhere (fun row => row.id ∈ versionIds ∧ row.revokedAt = none)
        (fun row => { row with revokedAt := some now }) (fun _ => rfl) = some versions)
      (updated : s.credentials.update credential.id (fun row => { row with revokedAt := some now }) (fun _ => rfl) =
        some credentials) :
      Acts library input s (.revokeCredential credential versionIds now) { s with versions, credentials } none
  | candidate (nodeId : Uuid) (candidate : Deployment) (deploymentId : Uuid)
      (found : s.deployments.find deploymentId = some candidate) :
      Acts library input s (.readCandidate nodeId deploymentId) s (some (.claim nodeId candidate))
  | claimed (nodeId : Uuid) (candidate : Deployment) (deployments : Deployments) (leases : Leases)
      (updated : s.deployments.update candidate.id (fun row => { row with
        buildStatus := .claimed, buildNodeId := some nodeId, claimedAt := some input.now }) (fun _ => rfl) = some deployments)
      (issued : issueLease s nodeId candidate input.now = some leases) :
      Acts library input s (.claim nodeId candidate) { s with
        deployments, leases, drawn := s.drawn + 1
        claims := s.claims ++ claimed s nodeId candidate.id input.now } none
  | built (deploymentId : Uuid) (status : BuildStatus) (deployments : Deployments)
      (updated : s.deployments.update deploymentId (fun row => { row with buildStatus := status }) (fun _ => rfl) =
        some deployments) :
      Acts library input s (.changeBuild deploymentId status) { s with deployments } none

section Acts
variable (library : Library) (input : Input) (s : Shared)

theorem reading_acts {α : Type} (handler : Handler) (found : Option α) (next : α → Option Handler)
    (goes : ∀ value rest, found = some value → next value = some rest → Acts library input s handler s (some rest)) :
    Acts library input s handler (reading s handler found next).1 (reading s handler found next).2 := by
  unfold reading
  split
  · rename_i rest reached
    obtain ⟨value,here,continues⟩ := Option.bind_eq_some_iff.mp reached
    exact goes value rest here continues
  · exact .ends handler

theorem locking_acts (lock : Lock) (handler next : Handler)
    (goes : lock ∉ s.locks → Acts library input s handler { s with locks := lock ::ₘ s.locks } (some next)) :
    Acts library input s handler (locking s lock handler next).1 (locking s lock handler next).2 := by
  unfold locking
  split
  · exact .waits handler
  · rename_i free
    exact goes free

theorem writeClaim_acts (nodeId : Uuid) (candidate : Deployment) {deployments : Deployments} {leases : Leases}
    (written : writeClaim s nodeId candidate input.now = some (deployments,leases)) :
    Acts library input s (.claim nodeId candidate) { s with
      deployments, leases, drawn := s.drawn + 1
      claims := s.claims ++ claimed s nodeId candidate.id input.now } none := by
  obtain ⟨row,found,written⟩ := Option.bind_eq_some_iff.mp written
  obtain ⟨_,updated,written⟩ := Option.bind_eq_some_iff.mp written
  obtain ⟨_,issued,written⟩ := Option.bind_eq_some_iff.mp written
  cases written
  have same := Table.find_key (Option.filter_eq_some_iff.mp found).1
  rw [same] at updated
  exact .claimed nodeId candidate deployments leases updated issued

theorem advance_acts (handler : Handler) :
    Acts library input s handler (advance library input s handler).1 (advance library input s handler).2 := by
  cases handler with
  | readOwned nodeId deploymentId token =>
    refine reading_acts library input s _ _ _ fun _ rest _ reached => ?_
    cases reached
    exact .owned nodeId deploymentId token
  | startRedeeming nodeId deploymentId token => exact .started nodeId deploymentId token
  | lockLease redeeming =>
    simp only [advance]
    split
    · rename_i lease found
      exact locking_acts library input s _ _ _ fun free => .lockedLease redeeming lease found free
    · exact .ends _
  | readVersion redeeming lease =>
    simp only [advance]
    split
    · rename_i open'
      refine reading_acts library input s _ _ _ fun version rest found reached => ?_
      cases reached
      exact .versionRead redeeming lease version open' found
    · exact .ends _
  | readCredential redeeming lease version now =>
    refine reading_acts library input s _ _ _ fun credential rest found reached => ?_
    obtain ⟨secret,given,rfl⟩ := Option.map_eq_some_iff.mp reached
    refine .credentialRead redeeming lease version now credential secret found ?_
    cases payload : redeemedPayload library credential version with
    | ok _ =>
      rw [payload] at given
      exact congrArg _ (Option.some.inj given)
    | error _ =>
      rw [payload] at given
      cases given
  | consume redeeming lease version credential secret now =>
    simp only [advance]
    split
    · rename_i leases written
      refine .consumed redeeming lease version credential secret now leases written _ ?_
      split
      · exact .inr rfl
      · exact .inl rfl
    · exact .ends _
  | lockCredential teamId credentialId secret =>
    simp only [advance]
    split
    · rename_i credential found
      exact locking_acts library input s _ _ _ fun free => .lockedCredential teamId credentialId secret credential free
    · exact .ends _
  | readLatest credential secret =>
    simp only [advance]
    split
    · exact .ends _
    · refine reading_acts library input s _ _ _ fun current rest _ reached => ?_
      obtain ⟨encrypted,_,rfl⟩ := Option.map_eq_some_iff.mp reached
      exact .encrypted credential secret (current.version + 1) encrypted.1 encrypted.2
  | writeVersion credential number keyId envelope username =>
    simp only [advance]
    split
    · rename_i versions credentials written
      obtain ⟨_,inserted,written⟩ := Option.bind_eq_some_iff.mp written
      obtain ⟨_,updated,written⟩ := Option.bind_eq_some_iff.mp written
      cases written
      exact .rotated credential number keyId envelope username versions credentials inserted updated
    · exact .ends _
  | readRevoked teamId credentialId =>
    refine reading_acts library input s _ _ _ fun credential rest _ reached => ?_
    cases reached
    exact .toRevoke teamId credentialId credential
  | revokeVersions credential => exact .listed credential _
  | revokeCredential credential versionIds now =>
    simp only [advance]
    split
    · exact .waits _
    · split
      · rename_i versions credentials written
        obtain ⟨_,marked,written⟩ := Option.bind_eq_some_iff.mp written
        obtain ⟨_,updated,written⟩ := Option.bind_eq_some_iff.mp written
        cases written
        exact .revoked credential versionIds now versions credentials marked updated
      · exact .ends _
  | readCandidate nodeId deploymentId =>
    refine reading_acts library input s _ _ _ fun candidate rest found reached => ?_
    cases reached
    exact .candidate nodeId candidate deploymentId (Option.filter_eq_some_iff.mp found).1
  | claim nodeId candidate =>
    simp only [advance]
    split
    · rename_i deployments leases written
      exact writeClaim_acts library input s nodeId candidate written
    · exact .ends _
  | changeBuild deploymentId status =>
    simp only [advance]
    split
    · rename_i deployments updated
      exact .built deploymentId status deployments updated
    · exact .ends _

theorem act_acts (handler : Handler) :
    Acts library input s handler (act library input s handler).1 (act library input s handler).2 := by
  unfold act
  split
  · exact .ends handler
  · exact advance_acts library input s handler

end Acts

end GrassWorker.SourceCredentials
