import GrassWorker.Domain.Activation

/-! Administrators' decisions on a deployment: review, republication and withdrawal,
and the team's own unpublication. Reasons are the trimmed, non-empty ones. -/
namespace GrassWorker.Governance
open Transaction Deployments Delivery Handling Activation

section Transactions
variable (instant : Instant)

def projectOf (projectId : Uuid) : Handling Project := do
  orElse (← query (·.projects.find projectId)) (.notFound "project not found")

def servedOnce (deployment : Deployment) (message : String) : Handling Unit := do
  require (deployment.buildStatus = .ready ∧
    (deployment.serveStatus = .ready ∨ deployment.serveStatus = .retired)) (.conflict message)
  require (deployment.serveStatus ≠ .retired ∨ wasServeReady (← get) deployment.id)
    (.conflict "retired deployment never reached Serve Ready")

def resolve (deployment : Deployment) (approved : Bool) (reviewerUserId : Uuid) (reason : Option String) :
    Handling Deployment := do
  let review ← orElse (← query (latestPendingReview · deployment.id)) (.conflict "deployment has no pending review")
  let review ← ofDb (resolveReview instant.now review reviewerUserId approved reason)
  let decided ← ofState (transitionRelease deployment (if approved then .approved else .rejected)
    [("review_id",.uuid review.id),("reviewer",.uuid reviewerUserId),("platform_admin",.bool true),
      ("reason",.ofString reason)])
  appendEvent decided.id .review
    (if approved then "review approved by platform administrator" else "review rejected by platform administrator")
    [("review_id",.uuid review.id),("reason",.ofString review.reason)]
  createPlatformAuditEvent (some reviewerUserId) (some decided.teamId)
    (if approved then "deployment.review_approved" else "deployment.review_rejected") decided.id review.reason
  return decided

def decide (deploymentId : Uuid) (approved : Bool) (reviewerUserId : Uuid) (reason : Option String) :
    Handling Unit := do
  let deployment ← lockedDeployment deploymentId
  let _ ← projectOf deployment.projectId
  servedOnce deployment "only deployments with ready build and Serve artifact can be reviewed"
  let decided ← resolve instant deployment approved reviewerUserId reason
  if approved then do
    let outcome ← ofDelivery (requestRelease instant decided .promote reviewerUserId .platform)
    let (released,pending) := outcomeDeployment outcome
    createPlatformAuditEvent (some reviewerUserId) (some released.teamId) (releaseAuditAction .promote pending)
      released.id none
  else return ()

inductive RepublishAction
  | release | review | conflict
deriving DecidableEq, Repr

def republishAction : ReleaseStatus → ReviewMode → RepublishAction
  | .approved, _ | .draft, .auto | .rejected, .auto => .release
  | .draft, .manual | .rejected, .manual => .review
  | .pendingReview, _ | .active, _ => .conflict

/-- A rejected deployment goes back through the review states before it is released. -/
def returnRejected (target : Deployment) : Handling Deployment :=
  if target.releaseStatus = .rejected then do
    let submitted ← ofState (transitionRelease target .pendingReview
      [("republish",.bool true),("policy",.string "auto")])
    ofState (transitionRelease submitted .approved [("republish",.bool true),("policy",.string "auto")])
  else pure target

def republishReleased (target : Deployment) (actorUserId : Uuid) : Handling (Deployment × String) := do
  let target ← returnRejected target
  let outcome ← ofDelivery (requestRelease instant target .promote actorUserId .platform)
  let (released,pending) := outcomeDeployment outcome
  return (released,if pending then "deployment.republish_queued" else "deployment.republished")

def republishReviewed (target : Deployment) (actorUserId : Uuid) : Handling (Deployment × String) := do
  let (reviewed,_) ← ofState (requestReview instant target (some actorUserId))
  return (reviewed,"deployment.republish_review_requested")

def republish (deploymentId actorUserId : Uuid) (reason : Option String) : Handling Unit := do
  let target ← lockedDeployment deploymentId
  servedOnce target "only deployments with ready build and Serve artifact can be republished"
  let mode ← reviewModeOf target
  let (updated,action) ← match republishAction target.releaseStatus mode with
    | .conflict => throw (.conflict "deployment is already active or waiting for review")
    | .review => republishReviewed instant target actorUserId
    | .release => republishReleased instant target actorUserId
  createPlatformAuditEvent (some actorUserId) (some updated.teamId) action updated.id reason
  let _ ← projectOf updated.projectId
  return ()

/-- Removes every route of a deployment and returns it to draft, which invalidates its review. -/
def withdraw (deploymentId actorUserId : Uuid) (reason : Option String) : Handling Unit := do
  let deployment ← lockedDeployment deploymentId
  let removed ← ofDelivery (removePublication instant deployment .platformAdmin)
  createPlatformAuditEvent (some actorUserId) (some removed.teamId) "deployment.withdrawn" removed.id reason
  let _ ← projectOf removed.projectId
  return ()

def unpublish (projectId teamId deploymentId actorUserId : Uuid) : Handling Unit := do
  let deployment ← lockedDeployment deploymentId
  require (deployment.projectId = projectId) (.notFound "deployment not found")
  let removed ← ofDelivery (removePublication instant deployment .teamUser)
  createAuditEvent (some actorUserId) (some teamId) "deployment.unpublished" removed.id none

end Transactions

/-- Writes the `release_review_policy.default` setting. -/
def setReviewPolicy (policy : Option PolicyDocument) : Handling Unit :=
  modify fun db => { db with releaseReviewPolicy := policy }

def setGroupReviewPolicy (group : Uuid) (policy : Option PolicyDocument) : Handling Unit :=
  write (fun db => do
    let teamGroups ← db.teamGroups.update group (fun row => { row with reviewPolicy := policy }) fun _ => rfl
    return ((),{ db with teamGroups })) AppError.infrastructure

end GrassWorker.Governance
