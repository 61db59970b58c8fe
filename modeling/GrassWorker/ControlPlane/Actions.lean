import GrassWorker.Domain.Hosts
import GrassWorker.Features.Claim
import GrassWorker.Features.Governance
import GrassWorker.Features.ServeReports
import GrassWorker.Features.Stage

/-! The transactions of the control plane. Each is one atomic action: those that
change which deployments are served hold the placement lock, any other locks the
one row it works on, and a transaction that fails commits nothing. -/
namespace GrassWorker.ControlPlane
open Transaction Handling

inductive Action
  | progress (deployment : Deployment) (stage : Option String)
  | report (owned : Stage.OwnedDeployment) (status : Stage.ReportedStatus) (body : Stage.StageRequest)
  | cancel (deployment : Deployment) (actor : Uuid)
  | claim (node : Uuid) (candidate : Deployment)
  | activate (action : Activation.ActivationAction) (deployment : Deployment) (reason : ReleaseReason) (actor : Uuid)
  | reportServe (node : Uuid) (serveEnabled : Bool) (deployment : Uuid) (sent : ServeReports.Report)
  | decide (deployment : Uuid) (approved : Bool) (reviewer : Uuid) (reason : Option String)
  | republish (deployment actor : Uuid) (reason : Option String)
  | withdraw (deployment actor : Uuid) (reason : Option String)
  | unpublish (project team deployment actor : Uuid)
  | create (params : Projects.CreateDeploymentParams) (selectedNode : Option Uuid) (region : Option String)
  | failUnimplemented (deployment : Deployment)
  | deleteProject (project actor : Uuid)
  | restoreProject (project actor : Uuid)
  | removeTeam (team actor : Uuid)
  | setReviewPolicy (policy : Option PolicyDocument)
  | setGroupReviewPolicy (group : Uuid) (policy : Option PolicyDocument)
  | createSource (params : Hosts.CreateHostSourceParams)
  | createProject (params : Hosts.CreateProjectParams) (actor : Uuid)
  | createBinding (request : Hosts.BindHostRequest)
  | updateBindingStatus (binding : Uuid) (status : HostBindingStatus) (failureReason : Option String)
  | runCheck (binding : Uuid) (ready : Bool) (ownership : Hosts.DnsVerification)
  | decideDomain (binding : Uuid) (approved : Bool) (actor : Uuid) (reason : Option String)
  | deleteHost (project binding : Uuid)
deriving DecidableEq

inductive Reply
  | acknowledged
  | buildEnded (ended : Bool)
  | claim (outcome : Claim.ClaimOutcome)
  | created (deployment : Deployment)
  | project (project : Project)
  | bound (binding : HostBinding)
deriving DecidableEq

def acknowledge {α : Type} (transaction : Handling α) : Handling Reply := do
  let _ ← transaction
  return .acknowledged

def Action.run (instant : Instant) : Action → Handling Reply
  | .progress deployment stage => acknowledge (Stage.progress deployment stage)
  | .report owned status body => do
    let ended ← Stage.report instant owned.node owned.row status body
    return .buildEnded ended
  | .cancel deployment actor => acknowledge (Stage.cancel instant deployment actor)
  | .claim node candidate => do
    let outcome ← Claim.claim instant node candidate
    return .claim outcome
  | .activate action deployment reason actor => acknowledge (Activation.activate instant action deployment reason actor)
  | .reportServe node serveEnabled deployment sent =>
    acknowledge (ServeReports.reportStatus instant node serveEnabled deployment sent)
  | .decide deployment approved reviewer reason =>
    acknowledge (Governance.decide instant deployment approved reviewer reason)
  | .republish deployment actor reason => acknowledge (Governance.republish instant deployment actor reason)
  | .withdraw deployment actor reason => acknowledge (Governance.withdraw instant deployment actor reason)
  | .unpublish project team deployment actor =>
    acknowledge (Governance.unpublish instant project team deployment actor)
  | .create params selectedNode region => do
    let created ← Projects.createPlacedDeployment instant params selectedNode region
    return .created created
  | .failUnimplemented deployment => acknowledge (Projects.failUnimplemented instant deployment)
  | .deleteProject project actor => acknowledge (Projects.softDeleteProjectRecords instant project actor)
  | .restoreProject project actor => acknowledge (Projects.restoreProject project actor)
  | .removeTeam team actor => acknowledge (Projects.removeTeam instant team actor)
  | .setReviewPolicy policy => acknowledge (Governance.setReviewPolicy policy)
  | .setGroupReviewPolicy group policy => acknowledge (Governance.setGroupReviewPolicy group policy)
  | .createSource params => acknowledge (Hosts.createSource instant params)
  | .createProject params actor => do
    let project ← Hosts.createProject instant params actor
    return .project project
  | .createBinding request => do
    let binding ← Hosts.createBinding instant request
    return .bound binding
  | .updateBindingStatus binding status failureReason =>
    acknowledge (Hosts.updateBindingStatus binding status failureReason)
  | .runCheck binding ready ownership => acknowledge (Hosts.runCheck binding ready ownership)
  | .decideDomain binding approved actor reason => acknowledge (Hosts.decideDomain binding approved actor reason)
  | .deleteHost project binding => acknowledge (Hosts.deleteHost instant project binding)

end GrassWorker.ControlPlane
