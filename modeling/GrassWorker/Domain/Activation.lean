import GrassWorker.Infra.Errors

/-! Promotion, rollback and the completion of a synchronized deployment. The
decision whether a release needs a review is taken from the row a request read;
the transaction that follows works on the row as it is by then. -/
namespace GrassWorker.Activation
open Transaction Deployments Delivery Handling

inductive ActivationAction
  | release | requestReview
deriving DecidableEq, Repr

def activationAction : ReleaseStatus → Bool → Except String ActivationAction
  | .rejected, _ => .error "rejected deployments must be re-submitted for review"
  | .pendingReview, _ => .error "deployment is waiting for review"
  | .draft, true => .ok .requestReview
  | _, _ => .ok .release

/-- The checks of `activate` before its transaction, on the row that was read. -/
def chooseAction (db : Database) (deployment : Deployment) : Except AppError ActivationAction := do
  if deployment.buildStatus ≠ .ready then .error (.conflict "only deployments with a ready build can be activated")
  else if deployment.releaseStatus = .active then .error (.conflict "deployment is already active")
  else match reviewPolicyForTeam db deployment.teamId with
    | none => .error .infrastructure
    | some policy =>
      match activationAction deployment.releaseStatus (policy.modeFor deployment.environment = .manual) with
      | .error message => .error (.conflict message)
      | .ok action => .ok action

def outcomeDeployment : ReleaseRequestOutcome → Deployment × Bool
  | .activated deployment => (deployment,false)
  | .syncQueued deployment => (deployment,true)

section Transactions
variable (instant : Instant)

/-- The transaction of `activate`; `true` when the release is left waiting. -/
def activate (action : ActivationAction) (deployment : Deployment) (reason : ReleaseReason)
    (actorUserId : Uuid) : Handling Bool :=
  match action with
  | .requestReview => do
    let locked ← lockedDeployment deployment.id
    let (reviewed,_) ← ofState (requestReview instant locked (some actorUserId))
    createAuditEvent (some actorUserId) (some deployment.teamId) "deployment.review_requested" reviewed.id none
    return false
  | .release => do
    let outcome ← ofDelivery (requestRelease instant deployment reason actorUserId .team)
    let (released,pending) := outcomeDeployment outcome
    createAuditEvent (some actorUserId) (some deployment.teamId) (releaseAuditAction reason pending) released.id none
    return pending

def completeServeReady (deployment : Deployment) : Handling Unit := do
  if deployment.pendingReleaseReason.isSome then do
    let _ ← ofDelivery (completePendingRelease instant deployment)
    ofReconcile (reconcileEnvironment instant deployment.projectId deployment.environment)
  else do
    let mode ← reviewModeOf deployment
    match serveReadyReleaseAction mode deployment.releaseStatus with
    | .activate => do
      let activated ← ofState (Deployments.activate instant.now deployment .auto none)
      createAuditEvent none (some activated.teamId) "deployment.auto_activated" activated.id none
      ofReconcile (reconcileEnvironment instant deployment.projectId deployment.environment)
    | _ => ofReconcile (reconcileEnvironment instant deployment.projectId deployment.environment)

end Transactions

end GrassWorker.Activation
