import GrassWorker.Infra.Errors

/-! Access to projects, their soft deletion and restoration, the deletion of
teams, and the creation of deployments. -/
namespace GrassWorker.Projects
open Transaction Deployments Delivery Scheduler Handling

inductive ProjectScope
  | active | includingDeleted
deriving DecidableEq, Repr

def teamById (db : Database) (teamId : Uuid) : Option Team :=
  (db.teams.find teamId).filter fun team => team.deletedAt.isNone

/-- `project_access::load` for a member of the team. -/
def access (db : Database) (projectId : Uuid) (scope : ProjectScope) : Except AppError (Project × Team) :=
  match (db.projects.find projectId).filter fun project => scope = .includingDeleted || project.deletedAt.isNone with
  | none => .error (.notFound "project not found")
  | some project =>
    match teamById db project.teamId with
    | none => .error (.notFound "team not found")
    | some team => .ok (project,team)

def loadDeployment (db : Database) (projectId deploymentId : Uuid) : Except AppError Deployment :=
  match getById db deploymentId with
  | none => .error (.notFound "deployment not found")
  | some deployment =>
    if deployment.projectId ≠ projectId then .error (.notFound "deployment not found") else .ok deployment

def ensureDeployable (project : Project) : Except AppError Unit :=
  if project.archivedAt.isSome then .error (.conflict "project is archived") else .ok ()

section Transactions
variable (instant : Instant)

def updateProject (projectId : Uuid) (change : Project → Project) (keeps : ∀ row, (change row).id = row.id) :
    Handling Unit :=
  write (fun db => do
    let projects ← db.projects.update projectId change keeps
    return ((),{ db with projects })) .infrastructure

def softDeleteBinding (binding : HostBinding) : HostBinding :=
  { binding with deletedAt := some instant.now, isPrimary := false }

/-- Deletes the project and its live bindings; a project that is already deleted is left alone. -/
def softDeleteProjectRecords (projectId actorUserId : Uuid) : Handling Unit := do
  let project ← orElse (← query (·.projects.find projectId)) .infrastructure
  if project.deletedAt.isSome then return ()
  else do
    write (fun db => do
      let bindings ← db.bindings.updateWhere (fun binding => binding.projectId = projectId ∧ binding.deletedAt = none)
        (softDeleteBinding instant) fun _ => rfl
      return ((),{ db with bindings })) AppError.infrastructure
    updateProject projectId (fun project => { project with deletedAt := some instant.now }) fun _ => rfl
    createAuditEvent (some actorUserId) (some project.teamId) "project.deleted" projectId none

def restoreProject (projectId actorUserId : Uuid) : Handling Unit := do
  let project ← orElse (← query (·.projects.find projectId)) (.notFound "project not found")
  require project.deletedAt.isSome (.conflict "project is not deleted")
  updateProject projectId (fun project => { project with deletedAt := none }) fun _ => rfl
  createAuditEvent (some actorUserId) (some project.teamId) "project.restored" projectId none

/-- `admin_teams::remove`: personal teams and teams with a live project are refused. -/
def removeTeam (teamId actorUserId : Uuid) : Handling Unit := do
  let team ← orElse (← query (teamById · teamId)) (.notFound "team not found")
  require (team.kind ≠ .personal) (.validation "personal teams cannot be deleted")
  let owned := (← get).projects.rows.filter fun project => project.teamId = teamId ∧ project.deletedAt.isNone
  require (owned = []) (.conflict ("team still owns " ++ toString owned.length ++
    " project(s); delete or transfer them first"))
  write (fun db => do
    let teams ← db.teams.update teamId (fun team => { team with deletedAt := some instant.now }) fun _ => rfl
    return ((),{ db with teams })) AppError.infrastructure
  createPlatformAuditEvent (some actorUserId) (some teamId) "team.deleted" teamId
    (some "deleted by platform administrator")

structure CreateDeploymentParams where
  project : Project
  environment : Environment
  triggeredByUserId : Option Uuid
  previewHost : Option String
deriving DecidableEq

def newDeployment (params : CreateDeploymentParams) (placement : Placement) : Deployment :=
  let resources := runtimeServeResources params.project.runtime
  { id := instant.uuid
    projectId := params.project.id
    teamId := params.project.teamId
    region := placement.region
    serveNodeId := some placement.nodeId
    environment := params.environment
    runtimeKind := params.project.runtime
    serveCpuMillicores := resources.cpuMillicores
    serveMemoryMb := resources.memoryMb
    serveDiskMb := resources.diskMb
    overcommitted := placement.overcommitted
    previewHost := params.previewHost
    createdAt := instant.now }

def createDeployment (params : CreateDeploymentParams) (placement : Placement) : Handling Deployment := do
  let created ← write (fun db => do
    let deployments ← db.deployments.insert (newDeployment instant params placement)
    return (newDeployment instant params placement,{ db with deployments })) AppError.infrastructure
  appendEvent created.id .system "deployment created"
    [("environment",.string (environmentValue created.environment))]
  return created

def createPlacedDeployment (params : CreateDeploymentParams) (selectedNodeId : Option Uuid)
    (region : Option String) : Handling Deployment := do
  let placement ← mapError AppError.mapScheduleError (ofExcept (placeDeploymentInRegion instant.now instant.choice
    (runtimeServeResources params.project.runtime) selectedNodeId region (← get)))
  let created ← createDeployment instant params placement
  appendEvent created.id .serve "deployment assigned to serve node"
    [("mode",.string (if selectedNodeId.isSome then "manual" else "automatic")),
      ("serve_node_id",.uuid placement.nodeId),("overcommitted",.bool placement.overcommitted)]
  createAuditEvent params.triggeredByUserId (some created.teamId) "deployment.created" created.id none
  return created

def failUnimplemented (deployment : Deployment) : Handling Unit :=
  match runtimeFailure deployment.runtimeKind with
  | none => pure ()
  | some (code,message) => do
    let _ ← ofDelivery (transitionUnsuccessfulBuild instant deployment
      { target := .failed, failureCode := some code, failureMessage := some message })
    return ()

end Transactions

end GrassWorker.Projects
