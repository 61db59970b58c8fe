import GrassWorker.Infra.Errors
import GrassWorker.Infra.Quota

/-! Build reports of a node and cancellations by a user. -/
namespace GrassWorker.Stage
open Transaction Deployments Delivery Handling

inductive ReportedStatus
  | queued | building | ready | failed | canceled
deriving DecidableEq, Repr

def ReportedStatus.target : ReportedStatus → BuildStatus
  | .queued => .queued
  | .building => .building
  | .ready => .ready
  | .failed => .failed
  | .canceled => .canceled

structure StageRequest where
  status : Option ReportedStatus
  stage : Option String := none
  failureCode : Option String := none
  failureMessage : Option String := none
deriving DecidableEq

def cancellationWasRequested (status : BuildStatus) (cancelFlagged : Bool) : Bool :=
  status = .canceled || cancelFlagged

def cancellationReleasesBuildSlot : BuildStatus → Bool
  | .claimed | .queued | .building => true
  | .pending | .ready | .failed | .canceled => false

def isTerminal : BuildStatus → Bool
  | .ready | .failed | .canceled => true
  | .pending | .claimed | .queued | .building => false

structure OwnedDeployment where
  node : Uuid
  row : Deployment
  builds : row.buildNodeId = some node
deriving DecidableEq

def buildOwnedDeployment (db : Database) (node deploymentId : Uuid) : Except AppError OwnedDeployment :=
  match getById db deploymentId with
  | none => .error (.notFound "deployment not found")
  | some row =>
    if builds : row.buildNodeId = some node then .ok ⟨node,row,builds⟩
    else .error (.forbidden "deployment build is not assigned to this node")

def readyReportNeedsBuildTransition (status : BuildStatus) : Bool := status ≠ .ready

section Transactions
variable (instant : Instant)

/-- The release decision of `finalize_ready`, on the row after the build transition. -/
def settleReady (deployment : Deployment) : Handling (Deployment × ReadyReleaseAction) := do
  let mode ← reviewModeOf deployment
  match readyReleaseAction mode deployment.releaseStatus with
  | .activate => do
    let activated ← ofState (activate instant.now deployment .auto none)
    return (activated,.activate)
  | .requestReview => do
    let (reviewed,_) ← ofState (requestReview instant deployment none)
    return (reviewed,.requestReview)
  | .none => return (deployment,.none)

/-- The build transition of a Ready report, unless the build is ready already. -/
def buildReady (deployment : Deployment) (transition : BuildTransition) : Handling Deployment :=
  if readyReportNeedsBuildTransition deployment.buildStatus then ofState (transitionBuild instant.now deployment transition)
  else pure deployment

/-- Decides from the row as it is in the transaction, not from the one the request read. -/
def finalizeReady (requested : Deployment) (transition : BuildTransition) :
    Handling (Deployment × Bool × ReadyReleaseAction) := do
  let deployment ← lockedDeployment requested.id
  let built ← buildReady instant deployment transition
  let (settled,action) ← settleReady instant built
  ofReconcile (reconcileEnvironment instant settled.projectId settled.environment)
  return (settled,readyReportNeedsBuildTransition deployment.buildStatus,action)

/-- The row, whether the build status changed, and the release action of a report. -/
def applyReport (deployment : Deployment) (transition : BuildTransition) :
    Handling (Deployment × Bool × ReadyReleaseAction) :=
  match transition.target with
  | .ready => finalizeReady instant deployment transition
  | .failed | .canceled => do
    let updated ← ofDelivery (transitionUnsuccessfulBuild instant deployment transition)
    return (updated,true,.none)
  | _ => do
    let updated ← ofState (transitionBuild instant.now deployment transition)
    return (updated,true,.none)

def auditWhen (condition : Bool) (teamId : Option Uuid) (action : String) (target : Uuid) (reason : Option String) :
    Handling Unit :=
  if condition then createAuditEvent none teamId action target reason else pure ()

/-- The transaction of a report with a status; `true` when the build ended with it. -/
def report (node : Uuid) (deployment : Deployment) (status : ReportedStatus) (body : StageRequest) :
    Handling Bool := do
  let (updated,transitioned,action) ← applyReport instant deployment
    { target := status.target, stage := body.stage, failureCode := body.failureCode
      failureMessage := body.failureMessage, buildNodeId := some node }
  auditWhen (status = .building && deployment.buildStatus ≠ .building) (some deployment.teamId)
    "deployment.build_started" updated.id none
  auditWhen (isTerminal status.target && transitioned) (some deployment.teamId)
    "deployment.build_finished" updated.id body.failureMessage
  auditWhen (action = .requestReview) (some deployment.teamId) "deployment.review_requested" updated.id none
  return isTerminal status.target && transitioned

def progress (deployment : Deployment) (stage : Option String) : Handling Unit :=
  match stage with
  | none => pure ()
  | some stage => do
    let _ ← ofDb (updateStage deployment stage)
    return ()

/-- The transaction of `cancel_deployment_core`. -/
def cancel (deployment : Deployment) (actorUserId : Uuid) : Handling Unit := do
  let canceled ← ofDelivery (transitionUnsuccessfulBuild instant deployment
    { target := .canceled, failureMessage := some "canceled by user" })
  createAuditEvent (some actorUserId) (some deployment.teamId) "deployment.canceled" canceled.id none

end Transactions

/-! Reports that succeed. -/

section Successes
variable {instant : Instant} {db : Database} {node : Uuid} {deployment row : Deployment} {body : StageRequest}

theorem auditWhen_succeeds {condition : Bool} {team : Option Uuid} {action : String} {target : Uuid}
    {reason : Option String} : Succeeds (auditWhen condition team action target reason) db fun _ _ => True := by
  cases condition with
  | true => exact (succeeds_modify db _ _).mpr trivial
  | false => exact (succeeds_pure db _ _).mpr trivial

private theorem report_succeeds {status : ReportedStatus}
    (applies : Succeeds (applyReport instant deployment
      { target := status.target, stage := body.stage, failureCode := body.failureCode
        failureMessage := body.failureMessage, buildNodeId := some node }) db fun _ _ => True) :
    Succeeds (report instant node deployment status body) db fun _ _ => True := by
  unfold report
  simp only [succeeds_bind,succeeds_pure]
  refine applies.mono fun _ _ _ => ?_
  refine auditWhen_succeeds.mono fun _ _ _ => ?_
  exact auditWhen_succeeds.mono fun _ _ _ => auditWhen_succeeds

theorem report_started_succeeds {status : ReportedStatus} (early : status = .queued ∨ status = .building)
    (found : db.deployments.find deployment.id = some row)
    (edge : canTransitionBuild deployment.buildStatus status.target) :
    Succeeds (report instant node deployment status body) db fun _ _ => True := by
  apply report_succeeds
  unfold applyReport
  rcases early with rfl | rfl <;> simp only [ReportedStatus.target,succeeds_bind,succeeds_ofState,succeeds_pure] <;>
    exact (transitionBuild_succeeds found edge).mono fun _ _ _ => trivial

theorem report_ended_succeeds {status : ReportedStatus} (ended : status = .failed ∨ status = .canceled)
    (current : getByIdForUpdate db deployment.id = some row) (edge : canTransitionBuild row.buildStatus status.target) :
    Succeeds (report instant node deployment status body) db fun _ _ => True := by
  apply report_succeeds
  unfold applyReport
  rcases ended with rfl | rfl <;> simp only [ReportedStatus.target,succeeds_bind,succeeds_ofDelivery,succeeds_pure]
  · exact transitionUnsuccessfulBuild_succeeds (.inl rfl) current edge
  · exact transitionUnsuccessfulBuild_succeeds (.inr rfl) current edge

theorem settleReady_succeeds {built : Deployment} (found : db.deployments.find built.id = some built)
    (ready : built.buildStatus = .ready) (governed : (reviewPolicyForTeam db built.teamId).isSome)
    (fresh : db.reviews.find instant.uuid = none) : Succeeds (settleReady instant built) db fun _ _ => True := by
  obtain ⟨policy,resolved⟩ := Option.isSome_iff_exists.mp governed
  unfold settleReady
  rw [succeeds_bind,succeeds_reviewModeOf]
  refine ⟨policy,resolved,?_⟩
  cases mode : policy.modeFor built.environment with
  | auto =>
    have waits : readyReleaseAction .auto built.releaseStatus = .none := by
      unfold readyReleaseAction
      split <;> rfl
    simp only [waits,succeeds_pure]
  | manual =>
    by_cases draft : built.releaseStatus = .draft
    · have reviewed : readyReleaseAction .manual built.releaseStatus = .requestReview := by rw [draft]; rfl
      have may : MayRelease built .pendingReview := by
        constructor
        · rw [draft]; rfl
        · rw [draft,ready]; rfl
      simp only [reviewed,succeeds_bind,succeeds_ofState,succeeds_pure]
      exact requestReview_succeeds found may fresh
    · have waits : readyReleaseAction .manual built.releaseStatus = .none := if_pos draft
      simp only [waits,succeeds_pure]

theorem report_ready_succeeds (current : getByIdForUpdate db deployment.id = some row)
    (building : row.buildStatus = .building) (governed : (reviewPolicyForTeam db row.teamId).isSome)
    (fresh : db.reviews.find instant.uuid = none) :
    Succeeds (report instant node deployment .ready body) db fun _ _ => True := by
  apply report_succeeds
  unfold applyReport
  simp only [ReportedStatus.target]
  unfold finalizeReady
  simp only [succeeds_bind,succeeds_lockedDeployment,succeeds_ofReconcile,succeeds_pure]
  have found : db.deployments.find row.id = some row := by
    rw [locked_id current]
    exact (getByIdForUpdate_eq_some.mp current).1
  refine ⟨row,current,?_⟩
  unfold buildReady
  rw [if_pos (by rw [building]; rfl),succeeds_ofState]
  refine (transitionBuild_succeeds found (by rw [building]; rfl)).mono ?_
  intro built middle wrote
  obtain ⟨origin,present,same,stored⟩ := wrote.row
  obtain rfl : row = origin := Option.some.inj (found.symm.trans present)
  have key : built.id = row.id := wrote.key fun row => setBuild_id _ row _
  have settled : Succeeds (settleReady instant built) middle fun _ _ => True := by
    apply settleReady_succeeds
    · rw [key]
      exact stored
    · rw [← same]
      rfl
    · rw [wrote.rest,← same]
      exact governed
    · rw [wrote.rest.reviews]
      exact fresh
  exact settled.mono fun _ _ _ => reconcileEnvironment_succeeds.mono fun _ _ _ => trivial

end Successes

end GrassWorker.Stage
