import GrassWorker.Domain.Projects
import GrassWorker.Infra.Quota

/-! Claims of pending builds by a build node. -/
namespace GrassWorker.Claim
open Transaction Deployments Handling

def canClaimNewBuild (status : NodeStatus) : Bool := status = .active

def claimable (row : Deployment) : Bool :=
  row.buildStatus = .pending ∧ (row.runtimeKind = .static ∨ row.runtimeKind = .ssr) ∧ row.deletedAt.isNone

def candidates (db : Database) : List Deployment :=
  ((db.deployments.rows.filter claimable).insertionSort fun first second => first.createdAt ≤ second.createdAt).take 10

def teamFor (db : Database) (teamId : Uuid) : Except AppError Team :=
  match Projects.teamById db teamId with
  | none => .error (.notFound "team not found")
  | some team => .ok team

/-- The limit `acquire_slot` is given; no limit is a negative one. -/
def slotLimit (db : Database) (teamId : Uuid) : Int := (db.concurrentBuilds.lookup teamId).getD (-1)

/-- `current_node_for_claim_query`: the node's row as it is when the claim is committed. -/
def currentNode (db : Database) (nodeId : Uuid) : Option Node :=
  (db.nodes.find nodeId).filter fun node => node.deletedAt.isNone ∧ node.status = .active ∧ node.buildEnabled

inductive ClaimOutcome
  | claimed | nodeGone | lost
deriving DecidableEq, Repr

def setClaimed (now : Timestamp) (node : Uuid) (row : Deployment) : Deployment :=
  { row with buildStatus := .claimed, buildNodeId := some node, claimedAt := some now }

def claim (instant : Instant) (node : Uuid) (candidate : Deployment) : Handling ClaimOutcome := do
  let db ← get
  if (currentNode db node).isNone then return .nodeGone
  else match (db.deployments.find candidate.id).filter fun row => row.buildStatus = .pending with
    | none => return .lost
    | some _ => do
      let _ ← ofDb (updateDeployment candidate.id (setClaimed instant.now node) fun _ => rfl)
      appendEvent candidate.id .build "build status changed to claimed"
        [("status",.string "claimed"),("build_node_id",.uuid node)]
      return .claimed

end GrassWorker.Claim
