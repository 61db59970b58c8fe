import GrassWorker.Domain.Nodes
import GrassWorker.Domain.Scheduler

/-! What an administrator sets on a node: its desired configuration and its capacity. -/
namespace GrassWorker.NodeSettings
open Transaction Validator Scheduler Nodes Checks

/-- The `url` crate's reading of a URL, as far as it is asked. -/
structure Url where
  scheme : String
  hasHost : Bool
  username : String

structure Parsers where
  url : List Char → Option Url
  isIpAddr : String → Bool
  isEnvFilter : List Char → Bool

section Validation
variable (parsers : Parsers) (configuration : NodeConfiguration)

def validateHttpUrl (value : String) : Bool :=
  (parsers.url (trim value.toList)).any fun url =>
    (url.scheme = "http" ∨ url.scheme = "https") ∧ url.hasHost ∧ url.username = ""

def isAbsolute (value : String) : Bool := (trim value.toList).head? = some '/'

def blank (value : String) : Bool := trim value.toList = []

def validateTarget (target : NodePrivateRepositoryTargetConfiguration) : Except String PUnit := do
  let host := trim target.host.toList
  refuse (host = [] ∨ '*' ∈ host ∨ '/' ∈ host) "private repository targets require an exact host"
  refuse (¬parsers.isIpAddr target.ip) "private repository target IP is invalid"
  refuse (target.port = 0) "private repository target port must be greater than zero"

def validateNodeConfiguration : Except String PUnit := do
  let identity := configuration.node
  refuse (blank identity.id ∨ 120 < identity.id.length) "node id must contain between 1 and 120 characters"
  refuse (¬(normalizeRegion identity.region).isOk) "node region is invalid"
  refuse (¬validateHttpUrl parsers identity.controlApi)
    "control API must be an absolute HTTP(S) URL without credentials"
  refuse (¬isAbsolute identity.workRoot) "node work root must be an absolute path"
  refuse (¬identity.capabilities.build ∧ ¬identity.capabilities.serve) "node must enable build or serve"
  refuse (identity.capabilities.build ∧ configuration.build.concurrency = 0)
    "build concurrency must be positive for a Build Node"
  refuse (configuration.build.commandTimeoutSeconds = 0) "build command timeout must be greater than zero"
  let serve := configuration.serve
  refuse (¬parsers.isIpAddr serve.host) "serve host must be an IPv4 or IPv6 address"
  refuse (serve.port = 0) "serve port must be greater than zero"
  refuse (serve.tls.enabled ∧ (serve.tls.port = 0 ∨ serve.tls.port = serve.port))
    "serve TLS port must be positive and different from the HTTP port"
  refuse (¬validateHttpUrl parsers serve.publicBaseUrl) "serve public base URL must be an absolute HTTP(S) URL"
  refuse (¬isAbsolute serve.artifactCacheRoot) "artifact cache root must be an absolute path"
  refuse (serve.capacity.maxDeployments = 0) "maximum deployments must be greater than zero"
  refuse (i64Max < serve.capacity.cpuMillicores ∨ i64Max < serve.capacity.memoryMb ∨
      i64Max < serve.capacity.diskMb ∨ i32Max < serve.capacity.maxDeployments)
    "serve capacity exceeds the supported range"
  let runtime := configuration.runtime
  refuse (runtime.backend ≠ "docker-socket" ∧ runtime.backend ≠ "podman-socket")
    "runtime backend must be docker-socket or podman-socket"
  refuse (blank runtime.socket) "runtime socket cannot be empty"
  refuse (blank runtime.defaultBuildImage ∨ blank runtime.defaultServeImage) "runtime images cannot be empty"
  refuse (blank runtime.network) "runtime network cannot be empty"
  refuse (runtime.resources.cpuLimit = 0 ∨ runtime.resources.memoryMb = 0)
    "runtime resource limits must be greater than zero"
  refuse (i64Max < runtime.resources.memoryMb) "runtime memory limit exceeds the supported range"
  refuse (100 < configuration.security.privateRepositoryTargets.length)
    "no more than 100 private repository targets may be configured"
  configuration.security.privateRepositoryTargets.forM (validateTarget parsers)
  refuse (¬parsers.isEnvFilter (trim configuration.log.level.toList)) "log filter is invalid"

/-- The checks that the new capacity holds what is used; `unlimited` reads zero as no limit. -/
def validateUsage (cpu memory disk deployments : Nat) (unlimited : Bool) (usage : NodeUsage) : Except String PUnit := do
  let below := fun (capacity : Nat) (used : Int) => ¬(unlimited ∧ capacity = 0) ∧ (capacity : Int) < used
  refuse (below cpu usage.cpuMillicores)
    ("CPU capacity cannot be lower than current usage (" ++ toString usage.cpuMillicores ++ "m)")
  refuse (below memory usage.memoryMb)
    ("memory capacity cannot be lower than current usage (" ++ toString usage.memoryMb ++ " MB)")
  refuse (below disk usage.diskMb)
    ("disk capacity cannot be lower than current usage (" ++ toString usage.diskMb ++ " MB)")
  refuse (deployments < usage.deployments)
    ("deployment capacity cannot be lower than current usage (" ++ toString usage.deployments ++ ")")

def validateConfigurationCapacity (usage : NodeUsage) : Except String PUnit :=
  if ¬configuration.node.capabilities.serve then .ok ⟨⟩
  else
    let capacity := configuration.serve.capacity
    validateUsage capacity.cpuMillicores capacity.memoryMb capacity.diskMb capacity.maxDeployments true usage

/-- `checked_add(1)`. -/
def nextRevision (node : Node) : Except String Int :=
  if node.desiredConfigRevision + 1 ≤ i64Max then .ok (node.desiredConfigRevision + 1)
  else .error "node configuration revision is exhausted"

structure PreparedDesiredConfigurationUpdate where
  desired : NodeConfiguration
  revision : Int
  status : NodeConfigSyncStatus
  error : Option String
  updatedAt : Timestamp

def prepareDesiredConfigurationUpdate (node : Node) (now : Timestamp) :
    Except String PreparedDesiredConfigurationUpdate := do
  validateNodeConfiguration parsers configuration
  let revision ← nextRevision node
  return ⟨configuration,revision,.pending,none,now⟩

end Validation

def unknownRegion (code : String) : String :=
  "Unknown region '" ++ code ++ "'. Create it in platform settings or with New Region first."

/-- `node_usage` for one node; the row of any node may have a sum that is out of range. -/
def usageRow (db : Database) (nodeId : Uuid) : Except String NodeUsage :=
  let nodes := (db.deployments.rows.filterMap (·.serveNodeId)).dedup
  match nodes.mapM fun node => unsignedUsage (nodeUsage db node) with
  | .ok _ => .ok (nodeUsage db nodeId)
  | .error error => .error error.message

def preparedColumns (prepared : PreparedDesiredConfigurationUpdate) (row : Node) : Node :=
  { row with
    desiredConfig := some prepared.desired
    desiredConfigRevision := prepared.revision
    configSyncStatus := prepared.status
    configSyncError := prepared.error
    configUpdatedAt := some prepared.updatedAt }

theorem preparedColumns_id (prepared : PreparedDesiredConfigurationUpdate) (row : Node) :
    (preparedColumns prepared row).id = row.id := rfl

def updateConfiguration (parsers : Parsers) (regions : List String) (actor nodeId : Uuid)
    (configuration : NodeConfiguration) (now : Timestamp) : Transaction Database String Node := do
  ofExcept (validateNodeConfiguration parsers configuration)
  let node ← orElse (← query (getById · nodeId)) "node not found"
  require (configuration.node.region ∈ regions) (unknownRegion configuration.node.region)
  let usage ← ofExcept (← query (usageRow · nodeId))
  ofExcept (validateConfigurationCapacity configuration usage)
  let prepared ← ofExcept (prepareDesiredConfigurationUpdate parsers configuration node now)
  let updated ← updateNode nodeId (preparedColumns prepared) (preparedColumns_id prepared)
  modify fun db => { db with
    audit := db.audit ++ [⟨some actor,none,"node.configuration_updated",some updated.id,none,.platform⟩] }
  return updated

/-- `UpdateNodeCapacityRequest`. -/
abbrev CapacityRequest := NodeResources

def validateCapacity (body : CapacityRequest) (usage : NodeUsage) : Except String NodeResources := do
  refuse (body.cpuMillicores = 0 ∨ body.memoryMb = 0 ∨ body.diskMb = 0 ∨ body.maxDeployments = 0)
    "capacity values must be positive integers"
  refuse (i64Max < body.cpuMillicores ∨ i64Max < body.memoryMb ∨ i64Max < body.diskMb ∨ i32Max < body.maxDeployments)
    "capacity values exceed the supported range"
  validateUsage body.cpuMillicores body.memoryMb body.diskMb body.maxDeployments false usage
  return body

def capacityColumns (capacity : NodeResources) (row : Node) : Node :=
  { row with
    capacityCpuMillicores := capacity.cpuMillicores
    capacityMemoryMb := capacity.memoryMb
    capacityDiskMb := capacity.diskMb
    maxDeployments := capacity.maxDeployments }

theorem capacityColumns_id (capacity : NodeResources) (row : Node) : (capacityColumns capacity row).id = row.id := rfl

def updateCapacity (actor nodeId : Uuid) (body : CapacityRequest) : Transaction Database String Node := do
  let node ← orElse (← query (getById · nodeId)) "node not found"
  require (node.serveEnabled = true) "capacity can only be configured for a Serve Node"
  let usage ← ofExcept (← query (usageRow · nodeId))
  let capacity ← ofExcept (validateCapacity body usage)
  let updated ← updateNode nodeId (capacityColumns capacity) (capacityColumns_id capacity)
  modify fun db => { db with
    audit := db.audit ++ [⟨some actor,none,"node.capacity_updated",some updated.id,none,.platform⟩] }
  return updated

end GrassWorker.NodeSettings
