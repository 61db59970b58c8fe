import GrassWorker.Domain.Nodes
import GrassWorker.Features.Assignments

/-! Node deletion: a job moves the deployments of a node to another one, waits for
its builds and then disables it. A pass over a job is one transaction. -/
namespace GrassWorker.NodeDeletions
open Transaction Nodes Scheduler

inductive DeletionPhase
  | migrating | draining | deleting | failed
deriving DecidableEq, Repr

def nextPhase (totalMigrations readyMigrations failedMigrations activeBuilds : Nat) : DeletionPhase :=
  if 0 < failedMigrations then .failed
  else if readyMigrations < totalMigrations then .migrating
  else if 0 < activeBuilds then .draining
  else .deleting

structure EligibleTarget where
  id : Uuid
  name : String
  availableDeployments : Nat
deriving DecidableEq

structure DeletionPlan where
  nodeId : Uuid
  assignedDeployments : Nat
  activeBuilds : Nat
  requiresTarget : Bool
  eligibleTargets : List EligibleTarget
deriving DecidableEq

section Plan
variable (db : Database)

def assignedDeployments (nodeId : Uuid) : List Deployment :=
  (usedBy db nodeId).insertionSort fun first second => first.createdAt ≤ second.createdAt

def activeBuildCount (nodeId : Uuid) : Nat :=
  (db.deployments.rows.filter fun row => row.buildNodeId = some nodeId ∧
    (row.buildStatus = .claimed ∨ row.buildStatus = .queued ∨ row.buildStatus = .building) ∧
    row.deletedAt.isNone).length

def u64Max : Int := 18446744073709551615

/-- Addition in `u64`; `none` on overflow and for a value that is none. -/
def checkedAdd (total value : Int) : Option Int :=
  if 0 ≤ value ∧ total + value ≤ u64Max then some (total + value) else none

def requested (values : List Int) : Option Int := values.foldlM checkedAdd 0

def fits (usage capacity : Int) (values : List Int) : Bool :=
  ((requested values).bind (checkedAdd usage)).any fun value => decide (value ≤ capacity)

def candidateCanHost (candidate : Candidate) (deployments : List Deployment) : Bool :=
  fits candidate.usage.cpuMillicores candidate.capacity.cpuMillicores (deployments.map (·.serveCpuMillicores)) ∧
    fits candidate.usage.memoryMb candidate.capacity.memoryMb (deployments.map (·.serveMemoryMb)) ∧
    fits candidate.usage.diskMb candidate.capacity.diskMb (deployments.map (·.serveDiskMb)) ∧
    candidate.usage.deployments + deployments.length ≤ candidate.capacity.deployments

/-- The row of a candidate that can take the deployments, as the plan shows it. -/
def eligibleTarget (candidates : List Candidate) (target : Node) : Option EligibleTarget :=
  (candidates.find? fun candidate => candidate.nodeId = target.id).map fun candidate =>
    ⟨target.id,target.name,candidate.capacity.deployments - candidate.usage.deployments⟩

def plan (now : Timestamp) (source : Node) : Except String DeletionPlan := do
  let deployments := assignedDeployments db source.id
  let candidates ← (eligibleCandidates now db).mapError ScheduleError.message
  let candidateIds := ((candidates.filter fun candidate => candidate.nodeId ≠ source.id).filter
    (candidateCanHost · deployments)).map Candidate.nodeId
  let names := db.nodes.rows.filter fun target => target.id ∈ candidateIds
  return {
    nodeId := source.id
    assignedDeployments := deployments.length
    activeBuilds := activeBuildCount db source.id
    requiresTarget := deployments ≠ []
    eligibleTargets := (names.filterMap (eligibleTarget candidates)).insertionSort
      fun left right => left.name ≤ right.name }

def activeJob (nodeId : Uuid) : Option NodeDeletionJob :=
  db.deletionJobs.rows.find? fun job => job.nodeId = nodeId ∧ job.status ≠ .completed

def migrationsOf (jobId : Uuid) : List NodeDeploymentMigration :=
  db.migrations.rows.filter fun migration => migration.jobId = jobId

end Plan

/-! The constraints of the two tables. -/

def jobAllowed (db : Database) (job : NodeDeletionJob) : Bool :=
  job.targetNodeId.all (fun target => (db.nodes.find target).isSome ∧ target ≠ job.nodeId) ∧
    0 ≤ job.totalDeployments ∧ 0 ≤ job.migratedDeployments ∧ 0 ≤ job.activeBuilds ∧
    job.migratedDeployments ≤ job.totalDeployments ∧
    (job.status = .completed ↔ job.completedAt.isSome)

def migrationAllowed (migration : NodeDeploymentMigration) : Bool :=
  migration.sourceNodeId ≠ migration.targetNodeId ∧ (migration.status = .ready ↔ migration.readyAt.isSome)

def insertJob (job : NodeDeletionJob) : Transaction Database String NodeDeletionJob :=
  write (fun db => do
    guard (jobAllowed db job)
    let deletionJobs ← db.deletionJobs.insert job
    return (job,{ db with deletionJobs })) databaseError

def updateJob (jobId : Uuid) (change : NodeDeletionJob → NodeDeletionJob) (keeps : ∀ row, (change row).id = row.id) :
    Transaction Database String NodeDeletionJob :=
  write (fun db => do
    let deletionJobs ← db.deletionJobs.update jobId change keeps
    let row ← deletionJobs.find jobId
    guard (jobAllowed db row)
    return (row,{ db with deletionJobs })) databaseError

def insertMigrations (migrations : List NodeDeploymentMigration) : Transaction Database String Unit :=
  write (fun db => do
    guard (migrations.all migrationAllowed)
    let after ← db.migrations.insertMany migrations
    return ((),{ db with migrations := after })) databaseError

def deleteMigrations (jobId : Uuid) : Transaction Database String Unit :=
  modify fun db => { db with migrations := db.migrations.deleteWhere fun migration => migration.jobId = jobId }

def updateMigrations (selected : NodeDeploymentMigration → Prop) [DecidablePred selected]
    (change : NodeDeploymentMigration → NodeDeploymentMigration) (keeps : ∀ row, (change row).id = row.id) :
    Transaction Database String Unit :=
  write (fun db => do
    let migrations ← db.migrations.updateWhere selected change keeps
    return ((),{ db with migrations })) databaseError

def createJobAudit (job : NodeDeletionJob) (action : String) (reason : Option String) :
    Transaction Database String Unit :=
  modify fun db => { db with audit := db.audit ++
    [⟨job.requestedByUserId,none,action,some job.nodeId,reason,.platform⟩] }

def boundedJobError (error : String) : String := String.ofList (error.toList.take 2048)

/-- A count in a column of type `INTEGER`. -/
def count (value : Nat) : Transaction Database String Int := ofExcept (tryFrom i32Max value outOfRange)

section Enqueue
variable (instant : Instant) (migrationIds : Nat → Uuid)

/-- The job of a first request, or the failed one of an earlier request made new. -/
def queueJob (source : Node) (targetNodeId : Option Uuid) (requestedByUserId : Uuid) (deployments activeBuilds : Nat) :
    Transaction Database String (NodeDeletionJob × Bool) := do
  match ← query (activeJob · source.id) with
  | some job => do
    require (job.status = .failed) "node deletion is already in progress"
    deleteMigrations job.id
    let total ← count deployments
    let builds ← count activeBuilds
    let job ← updateJob job.id (fun row => { row with
      targetNodeId, status := .queued, totalDeployments := total, migratedDeployments := 0, activeBuilds := builds
      error := none, updatedAt := instant.now }) fun _ => rfl
    return (job,true)
  | none => do
    let total ← count deployments
    let builds ← count activeBuilds
    let job ← insertJob {
      id := instant.uuid, nodeId := source.id, targetNodeId, requestedByUserId := some requestedByUserId
      status := .queued, totalDeployments := total, migratedDeployments := 0, activeBuilds := builds
      createdAt := instant.now, updatedAt := instant.now }
    return (job,false)

def plannedMigrations (job : NodeDeletionJob) (source target : Uuid) (deployments : List Deployment) :
    List NodeDeploymentMigration :=
  deployments.zipIdx.map fun (deployment,index) =>
    { id := migrationIds index, jobId := job.id, deploymentId := deployment.id, sourceNodeId := source
      targetNodeId := target, status := .pending }

def requireTarget (plan : DeletionPlan) (targetNodeId : Option Uuid) : Transaction Database String Unit :=
  if plan.requiresTarget then do
    let target ← orElse targetNodeId "replacement Serve Node required"
    require (target ∈ plan.eligibleTargets.map EligibleTarget.id)
      "selected replacement Serve Node is unavailable or lacks capacity"
  else pure ()

def createMigrations (job : NodeDeletionJob) (source : Uuid) (targetNodeId : Option Uuid) (deployments : List Deployment) :
    Transaction Database String Unit :=
  match targetNodeId with
  | none => pure ()
  | some target =>
    if deployments = [] then pure ()
    else insertMigrations (plannedMigrations migrationIds job source target deployments)

def enqueue (source : Node) (targetNodeId : Option Uuid) (requestedByUserId : Uuid) :
    Transaction Database String NodeDeletionJob := do
  let plan ← ofExcept (plan (← get) instant.now source)
  requireTarget plan targetNodeId
  let deployments ← query (assignedDeployments · source.id)
  let (job,retrying) ← queueJob instant source targetNodeId requestedByUserId deployments.length plan.activeBuilds
  createMigrations migrationIds job source.id targetNodeId deployments
  let _ ← updateNode source.id (fun row => { row with status := .draining }) fun _ => rfl
  createJobAudit job (if retrying then "node.deletion_retried" else "node.deletion_queued") none
  return job

end Enqueue

section Process
variable (instant : Instant)

def updateJobPhase (job : NodeDeletionJob) (status : NodeDeletionStatus) (ready activeBuilds : Nat)
    (error : Option String) : Transaction Database String NodeDeletionJob := do
  let migrated ← count ready
  let builds ← count activeBuilds
  updateJob job.id (fun row => { row with
    status, migratedDeployments := migrated, activeBuilds := builds, error, updatedAt := instant.now }) fun _ => rfl

def failJob (job : NodeDeletionJob) (ready activeBuilds : Nat) (message : String) : Transaction Database String Unit := do
  let message := boundedJobError message
  updateMigrations (fun migration => migration.jobId = job.id ∧ migration.status ≠ .failed)
    (fun migration => { migration with status := .failed, error := some message, readyAt := none }) fun _ => rfl
  let failed ← updateJobPhase instant job .failed ready activeBuilds (some message)
  createJobAudit failed "node.deletion_failed" (some message)

def isHexDigit (c : Char) : Bool := ('0' ≤ c ∧ c ≤ '9') ∨ ('a' ≤ c ∧ c ≤ 'f') ∨ ('A' ≤ c ∧ c ≤ 'F')

def artifactValidationError (artifact : DeploymentArtifact) : Option String :=
  if ¬artifact.checksumSha256.any (fun checksum => checksum.utf8ByteSize = 64 ∧ checksum.toList.all isHexDigit) then
    some "Grass Output artifact checksum metadata is missing or invalid"
  else if artifact.sizeBytes.all fun size => decide (size < 0) then
    some "Grass Output artifact size metadata is missing or invalid"
  else if (Assignments.artifactUnpackedSizeBytes artifact.unpackedSizeBytes).isNone then
    some "Grass Output artifact unpacked size metadata is invalid"
  else none

def targetIsAvailable (target : Node) (now : Timestamp) : Bool :=
  target.serveEnabled ∧ target.baseUrl.any (fun url => Validator.trim url.toList ≠ []) ∧ isHealthy target now 90

def switchReadyRoutes (job : NodeDeletionJob) (migrations : List NodeDeploymentMigration) :
    Transaction Database String Unit := do
  match job.targetNodeId with
  | none => pure ()
  | some target =>
    let ids := migrations.map NodeDeploymentMigration.deploymentId
    if ids = [] then pure ()
    else
      write (fun db => do
        let deployments ← db.deployments.updateWhere
          (fun row => row.id ∈ ids ∧ row.serveNodeId = some job.nodeId ∧ occupies row = true)
          (fun row => { row with serveNodeId := some target, overcommitted := false }) fun _ => rfl
        return ((),{ db with deployments })) databaseError
      createJobAudit job "node.deletion_route_switched" none

def switchWhen (condition : Prop) [Decidable condition] (job : NodeDeletionJob) (migrations : List NodeDeploymentMigration) :
    Transaction Database String Unit := if condition then switchReadyRoutes job migrations else pure ()

def readyCount (migrations : List NodeDeploymentMigration) : Nat :=
  (migrations.filter fun migration => migration.status = .ready).length

def failedCount (migrations : List NodeDeploymentMigration) : Nat :=
  (migrations.filter fun migration => migration.status = .failed).length

/-- The first `GrassOutput` artifact that was not removed. -/
def grassOutput (db : Database) (deploymentId : Uuid) : Option DeploymentArtifact :=
  db.artifacts.find? fun artifact => artifact.deploymentId = deploymentId ∧ artifact.kind = .grassOutput ∧
    artifact.deletedAt.isNone

def artifactError (db : Database) (deploymentId : Uuid) : Option String :=
  match grassOutput db deploymentId with
  | some artifact => artifactValidationError artifact
  | none => some "Grass Output artifact is missing"

/-- One round of the loop over the migrations: a deployment that no longer needs its
shadow copy is Ready, one whose artifact cannot be copied fails. -/
def settleMigration (migration : NodeDeploymentMigration) : Transaction Database String Unit := do
  if migration.status = .ready then pure ()
  else
    let deployment ← query (·.deployments.find migration.deploymentId)
    if !deployment.any occupies then
      updateMigrations (fun row => row.id = migration.id)
        (fun row => { row with status := .ready, error := none, readyAt := some instant.now }) fun _ => rfl
    else if deployment.any fun row => decide (row.buildStatus = .ready) then
      match ← query (artifactError · migration.deploymentId) with
      | some error =>
        updateMigrations (fun row => row.id = migration.id)
          (fun row => { row with status := .failed, error := some error, readyAt := none }) fun _ => rfl
      | none => pure ()

/-- The last pass: the node is disabled and the job done. `false` when the node has no row. -/
def finish (job : NodeDeletionJob) (ready : Nat) : Transaction Database String Bool := do
  match ← query (·.nodes.find job.nodeId) with
  | none => return false
  | some source => do
    let _ ← updateNode source.id (fun row => { row with status := .disabled, deletedAt := some instant.now }) fun _ => rfl
    let migrated ← count ready
    let _ ← updateJob job.id (fun row => { row with
      status := .completed, migratedDeployments := migrated, activeBuilds := 0, error := none
      updatedAt := instant.now, completedAt := some instant.now }) fun _ => rfl
    createJobAudit job "node.deleted" none
    return true

/-- `next_phase` and what the pass does in each phase. -/
def advance (job : NodeDeletionJob) (migrations : List NodeDeploymentMigration) (activeBuilds : Nat) :
    Transaction Database String Bool := do
  let ready := readyCount migrations
  match nextPhase migrations.length ready (failedCount migrations) activeBuilds with
  | .failed => do
    failJob instant job ready activeBuilds
      ((migrations.findSome? NodeDeploymentMigration.error).getD "deployment migration failed")
    return true
  | .migrating => do
    let _ ← updateJobPhase instant job .migrating ready activeBuilds none
    return true
  | .draining => do
    switchWhen (ready = migrations.length ∧ job.migratedDeployments < job.totalDeployments) job migrations
    let _ ← updateJobPhase instant job .draining ready activeBuilds none
    return true
  | .deleting => do
    switchWhen (job.migratedDeployments < job.totalDeployments) job migrations
    if job.status ≠ .deleting then
      let _ ← updateJobPhase instant job .deleting ready 0 none
      return true
    else finish instant job ready

def targetAvailable (db : Database) (now : Timestamp) (job : NodeDeletionJob)
    (migrations : List NodeDeploymentMigration) : Bool :=
  match job.targetNodeId with
  | some target => (db.nodes.find target).any (targetIsAvailable · now)
  | none => migrations = []

/-- One pass over a job; `false` when it ends without a commit. -/
def processJob (jobId : Uuid) : Transaction Database String Bool := do
  match ← query (·.deletionJobs.find jobId) with
  | none => return false
  | some job =>
    if job.status = .failed ∨ job.status = .completed then return false
    else
      let migrations ← query (migrationsOf · job.id)
      let available ← query (targetAvailable · instant.now job migrations)
      if job.migratedDeployments < job.totalDeployments ∧ available = false then
        let activeBuilds ← query (activeBuildCount · job.nodeId)
        failJob instant job (readyCount migrations) activeBuilds "replacement Serve Node is no longer active and healthy"
        return true
      else
        forM migrations (settleMigration instant)
        let migrations ← query (migrationsOf · job.id)
        let activeBuilds ← query (activeBuildCount · job.nodeId)
        advance instant job migrations activeBuilds

/-- What `process_pending_jobs` does with a job whose pass failed; `job` is the row it had listed. -/
def failCurrent (job : NodeDeletionJob) (error : String) : Transaction Database String Unit := do
  match ← query (·.deletionJobs.find job.id) with
  | none => pure ()
  | some current =>
    if current.status = .failed ∨ current.status = .completed then pure ()
    else failJob instant current job.migratedDeployments.toNat job.activeBuilds.toNat (boundedJobError error)

/-- The jobs a round of `process_pending_jobs` goes through. -/
def pendingJobs (db : Database) : List NodeDeletionJob :=
  (db.deletionJobs.rows.filter fun job => job.status ≠ .failed ∧ job.status ≠ .completed).insertionSort
    fun first second => first.updatedAt ≤ second.updatedAt

end Process

end GrassWorker.NodeDeletions
