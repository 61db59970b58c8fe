import GrassWorker.Foundations.Table
import GrassWorker.NodeProtocol

/-! The rows of the control plane's database, with the columns the modelled
functions read or write, and the unique indexes its migrations declare. -/
namespace GrassWorker

/-- Microseconds since the epoch, as `TIMESTAMPTZ` keeps them. -/
abbrev Timestamp := Int

inductive BuildStatus
  | pending | claimed | queued | building | ready | failed | canceled
deriving DecidableEq, Repr

inductive ServeStatus
  | pending | syncing | ready | failed | retired
deriving DecidableEq, Repr

inductive ReleaseStatus
  | draft | pendingReview | approved | rejected | active
deriving DecidableEq, Repr

inductive Environment
  | production | preview
deriving DecidableEq, Repr

inductive ProjectRuntime
  | static | ssr | hybrid | serverless | edge
deriving DecidableEq, Repr

inductive ReleaseReason
  | auto | promote | rollback
deriving DecidableEq, Repr

inductive ReviewStatus
  | pending | approved | rejected
deriving DecidableEq, Repr

inductive EventKind
  | system | build | serve | release | review
deriving DecidableEq, Repr

inductive AuditEventVisibility
  | platform | team
deriving DecidableEq, Repr

inductive TeamKind
  | personal | team
deriving DecidableEq, Repr

inductive HostSourceKind
  | wildcard | dnsProvider | manual
deriving DecidableEq, Repr

inductive HostBindingKind
  | platform | custom
deriving DecidableEq, Repr

inductive HostBindingEnvironment
  | production | preview | all
deriving DecidableEq, Repr

inductive HostBindingStatus
  | pending | active | failed | disabled
deriving DecidableEq, Repr

inductive HostReviewStatus
  | notRequired | pending | approved | rejected
deriving DecidableEq, Repr

inductive OwnershipStatus
  | pending | verified | failed | notRequired
deriving DecidableEq, Repr

inductive NodeStatus
  | pending | active | draining | offline | disabled
deriving DecidableEq, Repr

inductive MigrationStatus
  | pending | syncing | ready | failed
deriving DecidableEq, Repr

inductive NodeConfigSyncStatus
  | pending | applying | applied | failed
deriving DecidableEq, Repr

inductive NodeDeletionStatus
  | queued | migrating | draining | deleting | failed | completed
deriving DecidableEq, Repr

inductive ArtifactKind
  | grassOutput | buildLog | staticSite | screenshot
deriving DecidableEq, Repr

structure Team where
  id : Uuid
  kind : TeamKind := .team
  groupId : Option Uuid := none
  deletedAt : Option Timestamp := none
deriving DecidableEq

/-- The `review_policy` document of a setting or a team group. -/
structure PolicyDocument where
  production : Option String
  preview : Option String
deriving DecidableEq

structure TeamGroup where
  id : Uuid
  reviewPolicy : Option PolicyDocument
  deletedAt : Option Timestamp := none
deriving DecidableEq

structure Project where
  id : Uuid
  teamId : Uuid
  slug : String
  runtime : ProjectRuntime := .static
  archivedAt : Option Timestamp := none
  deletedAt : Option Timestamp := none
deriving DecidableEq

structure Deployment where
  id : Uuid
  projectId : Uuid
  teamId : Uuid
  region : String
  buildNodeId : Option Uuid := none
  serveNodeId : Option Uuid
  environment : Environment
  runtimeKind : ProjectRuntime
  buildStatus : BuildStatus := .pending
  serveStatus : ServeStatus := .pending
  releaseStatus : ReleaseStatus := .draft
  serveCpuMillicores : Int
  serveMemoryMb : Int
  serveDiskMb : Int
  overcommitted : Bool
  previewHost : Option String
  buildStage : Option String := none
  failureCode : Option String := none
  failureMessage : Option String := none
  serveFailureCode : Option String := none
  serveFailureMessage : Option String := none
  pendingReleaseReason : Option ReleaseReason := none
  pendingReleaseActorUserId : Option Uuid := none
  pendingReleaseAuditVisibility : Option AuditEventVisibility := none
  pendingReleaseRequestedAt : Option Timestamp := none
  claimedAt : Option Timestamp := none
  buildStartedAt : Option Timestamp := none
  buildFinishedAt : Option Timestamp := none
  serveStartedAt : Option Timestamp := none
  serveFinishedAt : Option Timestamp := none
  deletedAt : Option Timestamp := none
  createdAt : Timestamp
deriving DecidableEq

/-- A JSON value in an event's metadata; UUIDs are kept apart from other strings. -/
inductive Scalar
  | null
  | bool (value : Bool)
  | string (value : String)
  | uuid (value : Uuid)
deriving DecidableEq

def Scalar.ofString : Option String → Scalar
  | some value => .string value
  | none => .null

def Scalar.ofUuid : Option Uuid → Scalar
  | some value => .uuid value
  | none => .null

structure DeploymentEvent where
  deploymentId : Uuid
  kind : EventKind
  message : String
  metadata : List (String × Scalar)
deriving DecidableEq

structure DeploymentReview where
  id : Uuid
  deploymentId : Uuid
  reviewerUserId : Option Uuid
  status : ReviewStatus
  reason : Option String
  requestedAt : Timestamp
  reviewedAt : Option Timestamp
deriving DecidableEq

structure Release where
  projectId : Uuid
  deploymentId : Uuid
  environment : Environment
  reason : ReleaseReason
  actorUserId : Option Uuid
  previousDeploymentId : Option Uuid
  createdAt : Timestamp
deriving DecidableEq

/-- `unpacked_size_bytes` of an artifact's manifest. -/
inductive ManifestSize
  | absent | bytes (value : Nat) | malformed
deriving DecidableEq, Repr

structure DeploymentArtifact where
  id : Uuid := 0
  deploymentId : Uuid
  kind : ArtifactKind
  checksumSha256 : Option String := none
  sizeBytes : Option Int := none
  unpackedSizeBytes : ManifestSize := .absent
  deletedAt : Option Timestamp := none
deriving DecidableEq

structure AuditEvent where
  actorUserId : Option Uuid
  teamId : Option Uuid
  action : String
  targetId : Option Uuid
  reason : Option String := none
  visibility : AuditEventVisibility
deriving DecidableEq

structure HostSource where
  id : Uuid
  kind : HostSourceKind
  baseDomain : String
  region : String
  enabled : Bool := true
  allowsAutoAssign : Bool := true
  isDefault : Bool := false
  deletedAt : Option Timestamp := none
  createdAt : Timestamp
deriving DecidableEq

structure HostBinding where
  id : Uuid
  projectId : Uuid
  teamId : Uuid
  hostSourceId : Option Uuid
  host : String
  region : String
  kind : HostBindingKind
  environment : HostBindingEnvironment
  status : HostBindingStatus
  failureReason : Option String := none
  isPrimary : Bool
  reviewStatus : HostReviewStatus
  ownershipStatus : OwnershipStatus
  deletedAt : Option Timestamp := none
deriving DecidableEq

/-- What the last registration left in a node's `metadata`. -/
structure NodeMetadata where
  version : String
  build : Bool
  serve : Bool
  reportedResources : Option NodeResources
deriving DecidableEq

structure Node where
  id : Uuid
  region : String
  status : NodeStatus
  buildEnabled : Bool
  serveEnabled : Bool
  baseUrl : Option String
  capacityCpuMillicores : Int
  capacityMemoryMb : Int
  capacityDiskMb : Int
  maxDeployments : Int
  lastHeartbeatAt : Option Timestamp
  deletedAt : Option Timestamp := none
  name : String := ""
  buildConcurrency : Int := 2
  metadata : Option NodeMetadata := none
  desiredConfig : Option NodeConfiguration := none
  desiredConfigRevision : Int := 0
  effectiveConfig : Option NodeConfiguration := none
  effectiveConfigRevision : Int := 0
  configSyncStatus : NodeConfigSyncStatus := .pending
  configSyncError : Option String := none
  nodeTokenConfigured : Bool := false
  configUpdatedAt : Option Timestamp := none
  configAppliedAt : Option Timestamp := none
deriving DecidableEq

structure NodeDeletionJob where
  id : Uuid
  nodeId : Uuid
  targetNodeId : Option Uuid
  requestedByUserId : Option Uuid
  status : NodeDeletionStatus
  totalDeployments : Int
  migratedDeployments : Int
  activeBuilds : Int
  error : Option String := none
  createdAt : Timestamp
  updatedAt : Timestamp
  completedAt : Option Timestamp := none
deriving DecidableEq

structure NodeDeploymentMigration where
  id : Uuid
  deploymentId : Uuid
  sourceNodeId : Uuid
  targetNodeId : Uuid
  status : MigrationStatus
  error : Option String := none
  readyAt : Option Timestamp := none
  jobId : Uuid := 0
deriving DecidableEq

structure Identity where
  id : Uuid
  project : Uuid
  team : Uuid
  environment : Environment
  runtime : ProjectRuntime
  previewHost : Option String
  deletedAt : Option Timestamp
  createdAt : Timestamp

structure Lifecycle where
  build : BuildStatus
  serve : ServeStatus
  release : ReleaseStatus
  node : Option Uuid
  pending : Option ReleaseReason
  builder : Option Uuid
deriving DecidableEq

def Deployment.identity (row : Deployment) : Identity :=
  ⟨row.id,row.projectId,row.teamId,row.environment,row.runtimeKind,row.previewHost,row.deletedAt,row.createdAt⟩

def Deployment.lifecycle (row : Deployment) : Lifecycle :=
  ⟨row.buildStatus,row.serveStatus,row.releaseStatus,row.serveNodeId,row.pendingReleaseReason,
    row.buildNodeId⟩

/-! Unique indexes. -/

inductive DeploymentEntry
  | active (project : Uuid) (environment : Environment)
  | pendingRelease (project : Uuid) (environment : Environment)
  | previewHost (host : String)
deriving DecidableEq

/-- `ux_deployments_one_active_per_project_environment`,
`ux_deployments_one_pending_release_per_environment` and `uq_deployments_preview_host`. -/
def Identity.entries (row : Identity) (active pending : Bool) : List DeploymentEntry :=
  if row.deletedAt.isNone then
    (if active then [.active row.project row.environment] else []) ++
    (if pending then [.pendingRelease row.project row.environment] else []) ++
    (row.previewHost.map DeploymentEntry.previewHost).toList
  else []

def Deployment.entries (row : Deployment) : List DeploymentEntry :=
  row.identity.entries (row.releaseStatus = .active) row.pendingReleaseReason.isSome

inductive HostBindingEntry
  | host (host : String)
  | primary (project : Uuid)
deriving DecidableEq

/-- `ux_project_host_bindings_host` and `uq_project_host_bindings_primary`. -/
def HostBinding.entries (row : HostBinding) : List HostBindingEntry :=
  if row.deletedAt.isNone then
    .host row.host :: if row.isPrimary then [.primary row.projectId] else []
  else []

/-- `ux_projects_team_slug`. -/
def Project.entries (row : Project) : List (Uuid × String) :=
  if row.deletedAt.isNone then [(row.teamId,row.slug)] else []

/-- `ux_host_sources_single_enabled_default`. -/
def HostSource.entries (row : HostSource) : List Unit :=
  if row.deletedAt.isNone ∧ row.enabled ∧ row.isDefault then [()] else []

/-- `ux_node_deletion_jobs_active_node`. -/
def NodeDeletionJob.entries (row : NodeDeletionJob) : List Uuid :=
  if row.status = .completed then [] else [row.nodeId]

def unindexed {ρ : Type} (_ : ρ) : List Empty := []

structure Database where
  teams : Table Team (·.id) unindexed := ∅
  teamGroups : Table TeamGroup (·.id) unindexed := ∅
  projects : Table Project (·.id) Project.entries := ∅
  deployments : Table Deployment (·.id) Deployment.entries := ∅
  reviews : Table DeploymentReview (·.id) unindexed := ∅
  bindings : Table HostBinding (·.id) HostBinding.entries := ∅
  sources : Table HostSource (·.id) HostSource.entries := ∅
  nodes : Table Node (·.id) unindexed := ∅
  migrations : Table NodeDeploymentMigration (·.id) unindexed := ∅
  artifacts : List DeploymentArtifact := []
  events : List DeploymentEvent := []
  releases : List Release := []
  audit : List AuditEvent := []
  /-- `release_review_policy.default` in `system_settings`. -/
  releaseReviewPolicy : Option PolicyDocument := none
  /-- The resolved `concurrent_builds` limit of each team; no entry is no limit. -/
  concurrentBuilds : List (Uuid × Int) := []
  deletionJobs : Table NodeDeletionJob (·.id) NodeDeletionJob.entries := ∅

/-- What a transaction reads from outside the database: the clock, the identifier
of the row it creates and the outcome of a random draw. -/
structure Instant where
  now : Timestamp
  uuid : Uuid := 0
  choice : Nat := 0
deriving DecidableEq

structure DbErr where
deriving DecidableEq, Repr

section Entries
variable (identity : Identity) (active pending : Bool)

theorem Identity.mem_entries {entry : DeploymentEntry} : entry ∈ identity.entries active pending ↔
    identity.deletedAt = none ∧
      (active ∧ entry = .active identity.project identity.environment ∨
        pending ∧ entry = .pendingRelease identity.project identity.environment ∨
        ∃ host, identity.previewHost = some host ∧ entry = .previewHost host) := by
  unfold Identity.entries
  cases identity.previewHost <;> cases active <;> cases pending <;> split <;> rename_i live <;>
    simp at live <;> simp [live]

theorem Identity.nodup_entries : (identity.entries active pending).Nodup := by
  unfold Identity.entries
  cases identity.previewHost <;> cases active <;> cases pending <;> split <;> simp

theorem Identity.active_mem_entries {project : Uuid} {environment : Environment} :
    DeploymentEntry.active project environment ∈ identity.entries active pending ↔
      identity.deletedAt = none ∧ active ∧ identity.project = project ∧ identity.environment = environment := by
  rw [Identity.mem_entries]
  constructor
  · intro member
    obtain ⟨live,⟨held,same⟩ | ⟨_,same⟩ | ⟨_,_,same⟩⟩ := member <;> cases same
    exact ⟨live,held,rfl,rfl⟩
  · intro facts
    obtain ⟨live,held,rfl,rfl⟩ := facts
    exact ⟨live,.inl ⟨held,rfl⟩⟩

theorem Identity.pendingRelease_mem_entries {project : Uuid} {environment : Environment} :
    DeploymentEntry.pendingRelease project environment ∈ identity.entries active pending ↔
      identity.deletedAt = none ∧ pending ∧ identity.project = project ∧ identity.environment = environment := by
  rw [Identity.mem_entries]
  constructor
  · intro member
    obtain ⟨live,⟨_,same⟩ | ⟨held,same⟩ | ⟨_,_,same⟩⟩ := member <;> cases same
    exact ⟨live,held,rfl,rfl⟩
  · intro facts
    obtain ⟨live,held,rfl,rfl⟩ := facts
    exact ⟨live,.inr (.inl ⟨held,rfl⟩)⟩

theorem Identity.previewHost_mem_entries {host : String} :
    DeploymentEntry.previewHost host ∈ identity.entries active pending ↔
      identity.deletedAt = none ∧ identity.previewHost = some host := by
  rw [Identity.mem_entries]
  constructor
  · intro member
    obtain ⟨live,⟨_,same⟩ | ⟨_,same⟩ | ⟨_,named,same⟩⟩ := member <;> cases same
    exact ⟨live,named⟩
  · intro facts
    obtain ⟨live,named⟩ := facts
    exact ⟨live,.inr (.inr ⟨host,named,rfl⟩)⟩

theorem Identity.entries_sublist {active' pending' : Bool} (fewerActive : active' → active)
    (fewerPending : pending' → pending) :
    (identity.entries active' pending').Sublist (identity.entries active pending) := by
  unfold Identity.entries
  cases active <;> cases pending <;> cases active' <;> cases pending' <;> split <;> simp_all

end Entries

section Unique
variable {table : Table Deployment (·.id) Deployment.entries} {first second : Deployment}

theorem active_unique (left : first ∈ table.rows) (right : second ∈ table.rows)
    (liveFirst : first.deletedAt = none) (liveSecond : second.deletedAt = none)
    (activeFirst : first.releaseStatus = .active) (activeSecond : second.releaseStatus = .active)
    (project : first.projectId = second.projectId) (environment : first.environment = second.environment) :
    first = second :=
  table.same_of_entry left right
    ((Identity.active_mem_entries _ _ _).mpr ⟨liveFirst,decide_eq_true activeFirst,project,environment⟩)
    ((Identity.active_mem_entries _ _ _).mpr ⟨liveSecond,decide_eq_true activeSecond,rfl,rfl⟩)

theorem pendingRelease_unique (left : first ∈ table.rows) (right : second ∈ table.rows)
    (liveFirst : first.deletedAt = none) (liveSecond : second.deletedAt = none)
    (pendingFirst : first.pendingReleaseReason.isSome) (pendingSecond : second.pendingReleaseReason.isSome)
    (project : first.projectId = second.projectId) (environment : first.environment = second.environment) :
    first = second :=
  table.same_of_entry left right
    ((Identity.pendingRelease_mem_entries _ _ _).mpr ⟨liveFirst,pendingFirst,project,environment⟩)
    ((Identity.pendingRelease_mem_entries _ _ _).mpr ⟨liveSecond,pendingSecond,rfl,rfl⟩)

end Unique

end GrassWorker
