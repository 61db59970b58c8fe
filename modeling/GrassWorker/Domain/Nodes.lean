import GrassWorker.Entity
import GrassWorker.Foundations.Transaction
import GrassWorker.Validator

/-! Nodes: what a heartbeat or a registration writes. The columns are computed from
the row the authentication step read and written onto the row as it is by then. -/
namespace GrassWorker.Nodes
open Transaction Validator

def heartbeatStaleSeconds : Int := 90

def i64Max : Nat := 9223372036854775807
def i32Max : Nat := 2147483647

def tryFrom (limit value : Nat) (error : String) : Except String Int :=
  if value ≤ limit then .ok value else .error error

def outOfRange : String := "out of range integral type conversion attempted"

def databaseError : String := "database error"

/-- What the last registered configuration asks of gateways; a token without one. -/
def gatewayAuthentication (node : Node) : GatewayAuthenticationMode :=
  (node.effectiveConfig.map (·.security.gatewayAuthentication)).getD .token

def statusAfterNodeActivity : NodeStatus → NodeStatus
  | .draining => .draining
  | _ => .active

def getById (db : Database) (nodeId : Uuid) : Option Node := (db.nodes.find nodeId).filter (·.deletedAt.isNone)

/-- `ActiveModel::update`: the columns it sets, on the row as it is; the row after the write. -/
def updateNode (nodeId : Uuid) (change : Node → Node) (keeps : ∀ row, (change row).id = row.id) :
    Transaction Database String Node :=
  write (fun db => do
    let nodes ← db.nodes.update nodeId change keeps
    let row ← nodes.find nodeId
    return (row,{ db with nodes })) databaseError

theorem ensures_updateNode (nodeId : Uuid) (change : Node → Node) (keeps : ∀ row, (change row).id = row.id)
    (db : Database) (post : Node → Database → Prop) :
    Ensures (updateNode nodeId change keeps) db post ↔
      ∀ nodes row, db.nodes.update nodeId change keeps = some nodes → nodes.find nodeId = some row →
        post row { db with nodes } := by
  rw [updateNode,ensures_write]
  constructor
  · intro whole nodes row updated found
    refine whole row _ ?_
    simp [updated,found]
  · intro parts row after written
    obtain ⟨nodes,updated,written⟩ := Option.bind_eq_some_iff.mp written
    obtain ⟨found,present,written⟩ := Option.bind_eq_some_iff.mp written
    cases written
    exact parts nodes row updated present

structure HeartbeatRequest where
  effectiveConfigRevision : Nat := 0
  applyingConfigRevision : Option Nat := none
  configApplyError : Option String := none
deriving DecidableEq

section Heartbeat
variable (node : Node) (heartbeat : HeartbeatRequest)

/-- The failure a heartbeat reports, without surrounding white space and unless that leaves nothing. -/
def HeartbeatRequest.applyError : Option (List Char) :=
  (heartbeat.configApplyError.map fun error => trim error.toList).filter (· ≠ [])

def configSyncStateForHeartbeat : NodeConfigSyncStatus × Option String :=
  let desiredRevision := node.desiredConfigRevision.toNat
  if node.desiredConfig.isSome ∧ heartbeat.effectiveConfigRevision = desiredRevision then (.applied,none)
  else if heartbeat.applyingConfigRevision = some desiredRevision then
    match heartbeat.applyError with
    | some error => (.failed,some (String.ofList (error.take 2000)))
    | none => (.applying,none)
  else (.pending,none)

def desiredConfigForHeartbeat : Except String (Option Nat × Option NodeConfiguration) :=
  if node.desiredConfigRevision < 0 then .error "stored desired config revision is invalid"
  else
    let desiredRevision := node.desiredConfigRevision.toNat
    if heartbeat.effectiveConfigRevision = desiredRevision ∨
        heartbeat.applyingConfigRevision = some desiredRevision ∧ heartbeat.configApplyError = none then
      .ok (none,none)
    else match node.desiredConfig with
      | none => .ok (none,none)
      | some desired => .ok (some desiredRevision,some desired)

def heartbeatColumns (now : Timestamp) (effectiveRevision : Int) (row : Node) : Node :=
  let sync := configSyncStateForHeartbeat node heartbeat
  { row with
    status := statusAfterNodeActivity node.status
    lastHeartbeatAt := some now
    effectiveConfigRevision := effectiveRevision
    configSyncStatus := sync.1
    configSyncError := sync.2
    configAppliedAt := if sync.1 = .applied then some now else row.configAppliedAt }

def recordHeartbeat (now : Timestamp) : Transaction Database String Node := do
  let effectiveRevision ← ofExcept (tryFrom i64Max heartbeat.effectiveConfigRevision
    "effective config revision exceeds the supported range")
  updateNode node.id (heartbeatColumns node heartbeat now effectiveRevision) fun _ => rfl

end Heartbeat

structure RegisterNodeParams where
  name : String
  region : String
  version : String
  buildEnabled : Bool
  serveEnabled : Bool
  buildConcurrency : Int
  baseUrl : Option String
  resources : Option NodeResources
  configRevision : Nat
  effectiveConfig : Option NodeConfiguration
  nodeTokenConfigured : Bool
deriving DecidableEq

structure RegistrationConfigState where
  desired : Option NodeConfiguration
  desiredRevision : Int
  effective : Option NodeConfiguration
  effectiveRevision : Int
  status : NodeConfigSyncStatus
  error : Option String
  nodeTokenConfigured : Bool
  updatedAt : Option Timestamp
  appliedAt : Option Timestamp
deriving DecidableEq

section Registration
variable (now : Timestamp) (node : Node)

def unchangedConfigState : RegistrationConfigState where
  desired := node.desiredConfig
  desiredRevision := node.desiredConfigRevision
  effective := node.effectiveConfig
  effectiveRevision := node.effectiveConfigRevision
  status := node.configSyncStatus
  error := node.configSyncError
  nodeTokenConfigured := node.nodeTokenConfigured
  updatedAt := node.configUpdatedAt
  appliedAt := node.configAppliedAt

def registrationConfigState (revision : Nat) (effective : Option NodeConfiguration) (nodeTokenConfigured : Bool) :
    Except String RegistrationConfigState :=
  match effective with
  | none => .ok (unchangedConfigState node)
  | some effective => do
    let revision ← tryFrom i64Max revision "config revision exceeds the supported range"
    match node.desiredConfig with
    | none => return {
        desired := some effective, desiredRevision := revision, effective := some effective
        effectiveRevision := revision, status := .applied, error := none, nodeTokenConfigured
        updatedAt := some now, appliedAt := some now }
    | some desired =>
      let (status,error,appliedAt) :=
        if revision = node.desiredConfigRevision ∧ desired = effective then
          (NodeConfigSyncStatus.applied,none,some now)
        else if revision = node.desiredConfigRevision then
          (NodeConfigSyncStatus.failed,some "effective configuration differs from desired revision",
            node.configAppliedAt)
        else (NodeConfigSyncStatus.pending,none,node.configAppliedAt)
      return { unchangedConfigState node with
        effective := some effective, effectiveRevision := revision, status, error, nodeTokenConfigured, appliedAt }

/-- The capacity a registration brings, each value in the range of its column. -/
def registrationResources (params : RegisterNodeParams) : Except String (Option (Int × Int × Int × Int)) :=
  match params.serveEnabled,params.resources with
  | true,some resources => do
    let cpu ← tryFrom i64Max resources.cpuMillicores outOfRange
    let memory ← tryFrom i64Max resources.memoryMb outOfRange
    let disk ← tryFrom i64Max resources.diskMb outOfRange
    let deployments ← tryFrom i32Max resources.maxDeployments outOfRange
    return some (cpu,memory,disk,deployments)
  | true,none => .error "serve-capable node registration is missing resources"
  | false,_ => .ok none

/-- Capacity is set by the first report only: the columns that were still zero, and
`max_deployments` when nothing had been reported. -/
def initialCapacity (resources : Option (Int × Int × Int × Int)) (row : Node) : Node :=
  match resources with
  | none => row
  | some (cpu,memory,disk,deployments) => { row with
      capacityCpuMillicores := if node.capacityCpuMillicores = 0 then cpu else row.capacityCpuMillicores
      capacityMemoryMb := if node.capacityMemoryMb = 0 then memory else row.capacityMemoryMb
      capacityDiskMb := if node.capacityDiskMb = 0 then disk else row.capacityDiskMb
      maxDeployments := if node.metadata.isNone then deployments else row.maxDeployments }

def registrationColumns (params : RegisterNodeParams) (config : RegistrationConfigState)
    (resources : Option (Int × Int × Int × Int)) (row : Node) : Node :=
  { initialCapacity node resources row with
    name := params.name
    region := params.region
    buildEnabled := params.buildEnabled
    serveEnabled := params.serveEnabled
    buildConcurrency := if params.buildEnabled then params.buildConcurrency else 0
    baseUrl := if params.serveEnabled then params.baseUrl else none
    metadata := some ⟨params.version,params.buildEnabled,params.serveEnabled,params.resources⟩
    desiredConfig := config.desired
    desiredConfigRevision := config.desiredRevision
    effectiveConfig := config.effective
    effectiveConfigRevision := config.effectiveRevision
    configSyncStatus := config.status
    configSyncError := config.error
    nodeTokenConfigured := config.nodeTokenConfigured
    configUpdatedAt := config.updatedAt
    configAppliedAt := config.appliedAt
    status := statusAfterNodeActivity node.status
    lastHeartbeatAt := some now }

theorem initialCapacity_frame (resources : Option (Int × Int × Int × Int)) (row : Node) :
    (initialCapacity node resources row).id = row.id ∧
      (initialCapacity node resources row).deletedAt = row.deletedAt := by
  unfold initialCapacity
  split <;> exact ⟨rfl,rfl⟩

def applyRegistration (params : RegisterNodeParams) : Transaction Database String Node := do
  let config ← ofExcept (registrationConfigState now node params.configRevision params.effectiveConfig
    params.nodeTokenConfigured)
  let resources ← ofExcept (registrationResources params)
  updateNode node.id (registrationColumns now node params config resources)
    fun row => (initialCapacity_frame node resources row).1

end Registration

def markStaleOffline (now : Timestamp) (staleAfterSeconds : Int) : Transaction Database String Nat :=
  let threshold := now - staleAfterSeconds * 1000000
  let stale := fun node : Node => node.status = .active ∧ node.deletedAt = none ∧
    node.lastHeartbeatAt.all (fun at' => decide (at' < threshold)) = true
  write (fun db => do
    let nodes ← db.nodes.updateWhere stale (fun node => { node with status := .offline }) fun _ => rfl
    return ((db.nodes.rows.filter fun node => decide (stale node)).length,{ db with nodes })) databaseError

def isHealthy (node : Node) (now : Timestamp) (staleAfterSeconds : Int) : Bool :=
  node.status = .active ∧ node.lastHeartbeatAt.any fun at' => (now - at').tdiv 1000000 ≤ staleAfterSeconds

end GrassWorker.Nodes
