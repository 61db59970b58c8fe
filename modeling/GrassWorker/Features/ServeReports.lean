import GrassWorker.Domain.Activation

/-! Serve status reports of a node, for its own deployments and for those
migrating to it. -/
namespace GrassWorker.ServeReports
open Transaction Deployments Delivery Handling Activation

inductive ReportedServeStatus
  | syncing | ready | failed
deriving DecidableEq, Repr

def ReportedServeStatus.target : ReportedServeStatus → ServeStatus
  | .syncing => .syncing
  | .ready => .ready
  | .failed => .failed

structure Report where
  status : ReportedServeStatus
  failureCode : Option String := none
  failureMessage : Option String := none
deriving DecidableEq

def isIdentifierByte (c : Char) : Bool := c.isLower || c.isDigit || c = '_' || c = '-'

def validateStatusReport (report : Report) : Except String Unit :=
  if report.failureMessage.any (fun message => 1024 < message.utf8ByteSize) then
    .error "failure_message must be at most 1024 bytes"
  else if report.status ≠ .failed then
    if report.failureCode.isSome ∨ report.failureMessage.isSome then
      .error "failure details are only allowed for failed status"
    else .ok ()
  else match report.failureCode with
    | none => .error "failed status requires failure_code"
    | some code =>
      if code = "" ∨ 64 < code.utf8ByteSize ∨ ¬code.toList.all isIdentifierByte then
        .error "failure_code must be a lowercase identifier of at most 64 bytes"
      else .ok ()

/-- `shadow_migration_statuses`. -/
def isShadow : MigrationStatus → Bool
  | .pending | .syncing | .ready => true
  | .failed => false

def shadowMigration (db : Database) (node deploymentId : Uuid) : Option NodeDeploymentMigration :=
  db.migrations.rows.find? fun migration => migration.deploymentId = deploymentId ∧
    migration.targetNodeId = node ∧ isShadow migration.status

section Transactions
variable (instant : Instant)

def setMigration (report : Report) (migration : NodeDeploymentMigration) : NodeDeploymentMigration :=
  match report.status with
  | .syncing => { migration with status := .syncing, error := none, readyAt := none }
  | .ready => { migration with status := .ready, error := none, readyAt := some instant.now }
  | .failed => { migration with
      status := .failed, error := report.failureMessage.or report.failureCode, readyAt := none }

theorem setMigration_id (report : Report) (migration : NodeDeploymentMigration) :
    (setMigration instant report migration).id = migration.id := by
  unfold setMigration
  split <;> rfl

def reportMigration (migration : NodeDeploymentMigration) (report : Report) : Handling Unit :=
  write (fun db => do
    let migrations ← db.migrations.update migration.id (setMigration instant report)
      fun row => setMigration_id instant report row
    return ((),{ db with migrations })) .infrastructure

def reportAssigned (node : Uuid) (deployment : Deployment) (report : Report) : Handling Unit := do
  require (deployment.serveNodeId = some node) (.forbidden "deployment is not assigned to this Serve Node")
  require (deployment.buildStatus = .ready) (.conflict "deployment build is not ready")
  let updated ← ofState (transitionServe instant.now deployment
    { target := report.status.target, failureCode := report.failureCode, failureMessage := report.failureMessage })
  if report.status = .ready then completeServeReady instant updated else pure ()

def reportStatus (node : Uuid) (serveEnabled : Bool) (deploymentId : Uuid) (report : Report) : Handling Unit := do
  require serveEnabled (.forbidden "node does not have Serve capability")
  mapError .validation (ofExcept (validateStatusReport report))
  let deployment ← lockedDeployment deploymentId
  match ← query (shadowMigration · node deploymentId) with
  | some migration =>
    if deployment.serveNodeId ≠ some node then reportMigration instant migration report
    else reportAssigned instant node deployment report
  | none => reportAssigned instant node deployment report

end Transactions

end GrassWorker.ServeReports
