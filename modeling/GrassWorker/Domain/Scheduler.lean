import GrassWorker.Domain.Deployments
import GrassWorker.Foundations.Checks

/-! Serve placement: which deployments a node's capacity is charged for, which
nodes are eligible, and the choice of one. The score order among candidates that
fit is a floating point comparison with random ties; `choice` stands for its outcome. -/
namespace GrassWorker.Scheduler
open Transaction Deployments

inductive ScheduleError
  | noCapacity
  | noCapacityInRegion (region : String)
  | selectedNodeUnavailable
  | selectedNodeCapacity
  | invalidData
  | database (error : DbErr)
deriving DecidableEq, Repr

def ScheduleError.message : ScheduleError → String
  | .noCapacity => "no serve node has enough capacity"
  | .noCapacityInRegion region => "no healthy serve node is available in region '" ++ region ++ "'"
  | .selectedNodeUnavailable => "selected serve node is unavailable"
  | .selectedNodeCapacity => "selected serve node has no remaining capacity"
  | .invalidData => "serve node resource data is invalid"
  | .database _ => "database error"

/-- The filter the capacity queries share: `deleted_at IS NULL`, a build that has not
ended badly and a Serve status other than `retired`. -/
def occupies (row : Deployment) : Bool :=
  row.deletedAt.isNone ∧ row.buildStatus ≠ .failed ∧ row.buildStatus ≠ .canceled ∧ row.serveStatus ≠ .retired

/-- The deployments `NODE_USAGE_SQL` sums over for a node. -/
def usedBy (db : Database) (node : Uuid) : List Deployment :=
  db.deployments.rows.filter fun row => row.serveNodeId = some node ∧ occupies row

/-- The deployments the lateral join of `ELIGIBLE_CANDIDATES_SQL` adds: those on their way to the node. -/
def shadowOf (db : Database) (node : Uuid) : List Deployment :=
  db.migrations.rows.filterMap fun migration =>
    if migration.targetNodeId = node ∧ migration.status ≠ .failed then
      (db.deployments.find migration.deploymentId).filter fun row => row.serveNodeId ≠ some node ∧ occupies row
    else none

structure NodeUsage where
  cpuMillicores : Int
  memoryMb : Int
  diskMb : Int
  deployments : Nat
deriving DecidableEq, Repr

def usageOf (rows : List Deployment) : NodeUsage where
  cpuMillicores := (rows.map (·.serveCpuMillicores)).sum
  memoryMb := (rows.map (·.serveMemoryMb)).sum
  diskMb := (rows.map (·.serveDiskMb)).sum
  deployments := rows.length

def nodeUsage (db : Database) (node : Uuid) : NodeUsage := usageOf (usedBy db node)

structure Candidate where
  nodeId : Uuid
  region : String
  capacity : NodeUsage
  usage : NodeUsage
deriving DecidableEq, Repr

def unsigned (value : Int) : Except ScheduleError Int :=
  if value < 0 then .error .invalidData else .ok value

def unsignedUsage (usage : NodeUsage) : Except ScheduleError NodeUsage := do
  return ⟨← unsigned usage.cpuMillicores,← unsigned usage.memoryMb,← unsigned usage.diskMb,usage.deployments⟩

/-- The `WHERE` clause of `ELIGIBLE_CANDIDATES_SQL`. -/
def eligible (now : Timestamp) (node : Node) : Bool :=
  node.deletedAt.isNone ∧ node.status = .active ∧ node.serveEnabled ∧
    node.lastHeartbeatAt.any (fun at' => now - 90000000 ≤ at') ∧
    node.baseUrl.any (fun url => url.toList.any (· ≠ ' ')) ∧
    0 < node.capacityCpuMillicores ∧ 0 < node.capacityMemoryMb ∧ 0 < node.capacityDiskMb ∧
    0 < node.maxDeployments

def candidateOf (db : Database) (node : Node) : Except ScheduleError Candidate := do
  let capacity ← unsignedUsage
    ⟨node.capacityCpuMillicores,node.capacityMemoryMb,node.capacityDiskMb,node.maxDeployments.toNat⟩
  let usage ← unsignedUsage (usageOf (usedBy db node.id ++ shadowOf db node.id))
  return ⟨node.id,node.region,capacity,usage⟩

def eligibleCandidates (now : Timestamp) (db : Database) : Except ScheduleError (List Candidate) :=
  (db.nodes.rows.filter (eligible now)).mapM (candidateOf db)

def Candidate.hasPositiveCapacity (candidate : Candidate) : Bool :=
  0 < candidate.capacity.cpuMillicores ∧ 0 < candidate.capacity.memoryMb ∧
    0 < candidate.capacity.diskMb ∧ 0 < candidate.capacity.deployments

def Candidate.allAtMostOne (candidate : Candidate) (requested : ServeResources) : Bool :=
  candidate.usage.cpuMillicores + requested.cpuMillicores ≤ candidate.capacity.cpuMillicores ∧
    candidate.usage.memoryMb + requested.memoryMb ≤ candidate.capacity.memoryMb ∧
    candidate.usage.diskMb + requested.diskMb ≤ candidate.capacity.diskMb ∧
    candidate.usage.deployments + 1 ≤ candidate.capacity.deployments

def Candidate.canOverflow (candidate : Candidate) (requested : ServeResources) : Bool :=
  candidate.usage.diskMb + requested.diskMb ≤ candidate.capacity.diskMb ∧
    candidate.usage.deployments + 1 ≤ candidate.capacity.deployments + 2

structure Placement where
  nodeId : Uuid
  region : String
  overcommitted : Bool
deriving DecidableEq, Repr

def Candidate.place (candidate : Candidate) (overcommitted : Bool) : Placement :=
  ⟨candidate.nodeId,candidate.region,overcommitted⟩

/-- One of the candidates, the `choice`-th. -/
def chooseLowestRandom (choice : Nat) (candidates : List Candidate) : Option Candidate :=
  candidates[choice % candidates.length]?

def chooseCandidate (choice : Nat) (candidates : List Candidate) (requested : ServeResources)
    (selectedNodeId : Option Uuid) : Except ScheduleError Placement :=
  match selectedNodeId with
  | some selected =>
    match candidates.find? fun candidate => candidate.nodeId = selected ∧ candidate.hasPositiveCapacity with
    | none => .error .selectedNodeUnavailable
    | some candidate =>
      if candidate.canOverflow requested then .ok (candidate.place (!candidate.allAtMostOne requested))
      else .error .selectedNodeCapacity
  | none =>
    let eligible := candidates.filter Candidate.hasPositiveCapacity
    match chooseLowestRandom choice (eligible.filter fun candidate => candidate.allAtMostOne requested) with
    | some candidate => .ok (candidate.place false)
    | none =>
      match chooseLowestRandom choice (eligible.filter fun candidate => candidate.canOverflow requested) with
      | some candidate => .ok (candidate.place true)
      | none => .error .noCapacity

def chooseCandidateInRegion (choice : Nat) (candidates : List Candidate) (requested : ServeResources)
    (region : Option String) (selectedNodeId : Option Uuid) : Except ScheduleError Placement :=
  match region with
  | none => chooseCandidate choice candidates requested selectedNodeId
  | some region =>
    if candidates.all (·.region ≠ region) then .error (.noCapacityInRegion region)
    else chooseCandidate choice (candidates.filter (·.region = region)) requested selectedNodeId

def placeDeploymentInRegion (now : Timestamp) (choice : Nat) (requested : ServeResources)
    (selectedNodeId : Option Uuid) (region : Option String) (db : Database) : Except ScheduleError Placement := do
  chooseCandidateInRegion choice (← eligibleCandidates now db) requested region selectedNodeId

section Placed
variable {now : Timestamp} {choice : Nat} {requested : ServeResources} {selectedNodeId : Option Uuid}
  {region : Option String} {db : Database} {candidates : List Candidate} {placement : Placement}

theorem chooseLowestRandom_mem {candidate : Candidate} (chosen : chooseLowestRandom choice candidates = some candidate) :
    candidate ∈ candidates := List.mem_of_getElem? chosen

theorem chooseCandidate_mem (chosen : chooseCandidate choice candidates requested selectedNodeId = .ok placement) :
    ∃ candidate ∈ candidates, candidate.nodeId = placement.nodeId := by
  unfold chooseCandidate at chosen
  split at chosen
  · split at chosen
    · cases chosen
    · rename_i candidate found
      split at chosen
      · cases chosen
        exact ⟨candidate,List.mem_of_find?_eq_some found,rfl⟩
      · cases chosen
  · dsimp only at chosen
    split at chosen
    · rename_i candidate lowest
      cases chosen
      have inside := List.mem_of_mem_filter (chooseLowestRandom_mem lowest)
      exact ⟨candidate,List.mem_of_mem_filter inside,rfl⟩
    · split at chosen
      · rename_i candidate lowest
        cases chosen
        have inside := List.mem_of_mem_filter (chooseLowestRandom_mem lowest)
        exact ⟨candidate,List.mem_of_mem_filter inside,rfl⟩
      · cases chosen

theorem candidateOf_nodeId {node : Node} {candidate : Candidate} (built : candidateOf db node = .ok candidate) :
    candidate.nodeId = node.id := by
  unfold candidateOf at built
  obtain ⟨capacity,_,built⟩ := Checks.bind_eq_ok.mp built
  obtain ⟨usage,_,built⟩ := Checks.bind_eq_ok.mp built
  cases built
  rfl

theorem placed_eligible (placed : placeDeploymentInRegion now choice requested selectedNodeId region db = .ok placement) :
    ∃ node ∈ db.nodes.rows, node.id = placement.nodeId ∧ eligible now node := by
  obtain ⟨candidates,queried,chosen⟩ := Checks.bind_eq_ok.mp placed
  obtain ⟨candidate,member,same⟩ : ∃ candidate ∈ candidates, candidate.nodeId = placement.nodeId := by
    unfold chooseCandidateInRegion at chosen
    split at chosen
    · exact chooseCandidate_mem chosen
    · split at chosen
      · cases chosen
      · obtain ⟨candidate,inside,same⟩ := chooseCandidate_mem chosen
        exact ⟨candidate,List.mem_of_mem_filter inside,same⟩
  obtain ⟨node,listed,built⟩ := Checks.mem_of_mapM queried member
  obtain ⟨inside,fit⟩ := List.mem_filter.mp listed
  exact ⟨node,inside,(candidateOf_nodeId built).symm.trans same,fit⟩

end Placed

end GrassWorker.Scheduler
