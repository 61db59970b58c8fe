import GrassWorker.Features.NodeSettings
import GrassWorker.Foundations.IpAddr
import GrassWorker.Foundations.Serde

/-! The configuration file of a node: what is read from it, what of it is synchronized, and how a desired
configuration is written to it. -/
namespace GrassWorker.Config
open Checks NodeSettings Serde Validator

def u16Max : Nat := 65535
def u32Max : Nat := 4294967295
def u64Max : Nat := 18446744073709551615

inductive LogFormat
  | pretty | json
deriving DecidableEq

structure LogConfig where
  level : String := "info"
  format : LogFormat := .pretty
deriving DecidableEq

structure NodeCapabilitiesConfig where
  build : Bool := true
  serve : Bool := true
deriving DecidableEq

structure NodeIdentityConfig where
  id : String := "local-node"
  controlApi : String := "http://127.0.0.1:7817"
  nodeToken : String := "change-me"
  region : String := "default"
  workRoot : String := "/data/node"
  capabilities : NodeCapabilitiesConfig := {}
deriving DecidableEq

structure BuildConfig where
  concurrency : Nat := 1
  commandTimeoutSeconds : Nat := 600
  retainWorkspaceOnFailure : Bool := false
deriving DecidableEq

structure ServeCapacityConfig where
  cpuMillicores : Nat := 0
  memoryMb : Nat := 0
  diskMb : Nat := 0
  maxDeployments : Nat := 10
deriving DecidableEq

structure SsrServeConfig where
  idleStopSeconds : Nat := 1800
  startupTimeoutSeconds : Nat := 90
deriving DecidableEq

structure ServeConfig where
  host : IpAddr := .v4 ⟨0,0,0,0⟩
  port : Nat := 8080
  publicBaseUrl : String := "http://127.0.0.1:8080"
  metadataCacheTtlSeconds : Nat := 30
  artifactCacheRoot : String := "/data/node/artifacts"
  capacity : ServeCapacityConfig := {}
  ssr : SsrServeConfig := {}
  tls : NodeTlsConfiguration := {}
deriving DecidableEq

structure RuntimeResourcesConfig where
  cpuLimit : Nat := 2
  memoryMb : Nat := 2048
deriving DecidableEq

structure RuntimeConfig where
  backend : String := "podman-socket"
  socket : String := "unix:///run/user/1000/podman/podman.sock"
  defaultBuildImage : String := "docker.io/library/node:22"
  defaultServeImage : String := "docker.io/library/node:22"
  network : String := "bridge"
  resources : RuntimeResourcesConfig := {}
deriving DecidableEq

structure PrivateRepositoryTargetConfig where
  host : String
  ip : IpAddr
  port : Nat
deriving DecidableEq

structure SecurityConfig where
  gatewayAuthentication : GatewayAuthenticationMode := .token
  privateRepositoryTargets : List PrivateRepositoryTargetConfig := []
deriving DecidableEq

structure DevelopmentConfig where
  verboseBuildLog : Bool := false
deriving DecidableEq

structure NodeConfig where
  generatedBy : Option String := none
  configRevision : Nat := 0
  node : NodeIdentityConfig := {}
  build : BuildConfig := {}
  runtime : RuntimeConfig := {}
  serve : ServeConfig := {}
  security : SecurityConfig := {}
  development : DevelopmentConfig := {}
  log : LogConfig := {}
deriving DecidableEq

/-! Writing. -/

section Writing

def ipValue (address : IpAddr) : Value := .string (String.ofList address.print)

def LogFormat.toValue : LogFormat → Value
  | .pretty => .string "pretty"
  | .json => .string "json"

def gatewayValue : GatewayAuthenticationMode → Value
  | .token => .string "token"
  | .none => .string "none"

def LogConfig.toValue (config : LogConfig) : Value := .table [("level",.string config.level),("format",config.format.toValue)]

def NodeCapabilitiesConfig.toValue (config : NodeCapabilitiesConfig) : Value :=
  .table [("build",.boolean config.build),("serve",.boolean config.serve)]

def NodeIdentityConfig.toValue (config : NodeIdentityConfig) : Value := .table [
  ("id",.string config.id),
  ("control_api",.string config.controlApi),
  ("node_token",.string config.nodeToken),
  ("region",.string config.region),
  ("work_root",.string config.workRoot),
  ("capabilities",config.capabilities.toValue)]

def BuildConfig.toValue (config : BuildConfig) : Value := .table [
  ("concurrency",.integer config.concurrency),
  ("command_timeout_seconds",.integer config.commandTimeoutSeconds),
  ("retain_workspace_on_failure",.boolean config.retainWorkspaceOnFailure)]

def ServeCapacityConfig.toValue (config : ServeCapacityConfig) : Value := .table [
  ("cpu_millicores",.integer config.cpuMillicores),
  ("memory_mb",.integer config.memoryMb),
  ("disk_mb",.integer config.diskMb),
  ("max_deployments",.integer config.maxDeployments)]

def SsrServeConfig.toValue (config : SsrServeConfig) : Value := .table [
  ("idle_stop_seconds",.integer config.idleStopSeconds),
  ("startup_timeout_seconds",.integer config.startupTimeoutSeconds)]

def tlsValue (config : NodeTlsConfiguration) : Value := .table [("enabled",.boolean config.enabled),("port",.integer config.port)]

def ServeConfig.toValue (config : ServeConfig) : Value := .table [
  ("host",ipValue config.host),
  ("port",.integer config.port),
  ("public_base_url",.string config.publicBaseUrl),
  ("metadata_cache_ttl_seconds",.integer config.metadataCacheTtlSeconds),
  ("artifact_cache_root",.string config.artifactCacheRoot),
  ("capacity",config.capacity.toValue),
  ("ssr",config.ssr.toValue),
  ("tls",tlsValue config.tls)]

def RuntimeResourcesConfig.toValue (config : RuntimeResourcesConfig) : Value :=
  .table [("cpu_limit",.integer config.cpuLimit),("memory_mb",.integer config.memoryMb)]

def RuntimeConfig.toValue (config : RuntimeConfig) : Value := .table [
  ("backend",.string config.backend),
  ("socket",.string config.socket),
  ("default_build_image",.string config.defaultBuildImage),
  ("default_serve_image",.string config.defaultServeImage),
  ("network",.string config.network),
  ("resources",config.resources.toValue)]

def PrivateRepositoryTargetConfig.toValue (config : PrivateRepositoryTargetConfig) : Value :=
  .table [("host",.string config.host),("ip",ipValue config.ip),("port",.integer config.port)]

def SecurityConfig.toValue (config : SecurityConfig) : Value := .table [
  ("gateway_authentication",gatewayValue config.gatewayAuthentication),
  ("private_repository_targets",.array (config.privateRepositoryTargets.map PrivateRepositoryTargetConfig.toValue))]

def DevelopmentConfig.toValue (config : DevelopmentConfig) : Value := .table [("verbose_build_log",.boolean config.verboseBuildLog)]

/-- `skip_serializing_if` leaves out who has generated the file, if nobody has. -/
def NodeConfig.toValue (config : NodeConfig) : Value := .table ((config.generatedBy.map fun name => ("generated_by",Value.string name)).toList ++ [
  ("config_revision",.integer config.configRevision),
  ("node",config.node.toValue),
  ("build",config.build.toValue),
  ("runtime",config.runtime.toValue),
  ("serve",config.serve.toValue),
  ("security",config.security.toValue),
  ("development",config.development.toValue),
  ("log",config.log.toValue)])

end Writing

/-! Reading. What is missing has its default. -/

section Reading

def asIp (value : Value) : Option IpAddr := (asString value).bind fun text => IpAddr.parse text.toList

def asU16 : Value → Option Nat := asNat u16Max

def asU32 : Value → Option Nat := asNat u32Max

def asU64 : Value → Option Nat := asNat u64Max

def LogFormat.ofValue (value : Value) : Option LogFormat :=
  (asString value).bind fun name => if name = "pretty" then some .pretty else if name = "json" then some .json else none

def gatewayOfValue (value : Value) : Option GatewayAuthenticationMode :=
  (asString value).bind fun name => if name = "token" then some .token else if name = "none" then some .none else none

def LogConfig.ofValue (value : Value) : Option LogConfig := do
  let defaults : LogConfig := {}
  let level ← field value "level" asString defaults.level
  let format ← field value "format" LogFormat.ofValue defaults.format
  return { level, format }

def NodeCapabilitiesConfig.ofValue (value : Value) : Option NodeCapabilitiesConfig := do
  let defaults : NodeCapabilitiesConfig := {}
  let build ← field value "build" asBool defaults.build
  let serve ← field value "serve" asBool defaults.serve
  return { build, serve }

def NodeIdentityConfig.ofValue (value : Value) : Option NodeIdentityConfig := do
  let defaults : NodeIdentityConfig := {}
  let id ← field value "id" asString defaults.id
  let controlApi ← field value "control_api" asString defaults.controlApi
  let nodeToken ← field value "node_token" asString defaults.nodeToken
  let region ← field value "region" asString defaults.region
  let workRoot ← field value "work_root" asString defaults.workRoot
  let capabilities ← field value "capabilities" NodeCapabilitiesConfig.ofValue defaults.capabilities
  return { id, controlApi, nodeToken, region, workRoot, capabilities }

def BuildConfig.ofValue (value : Value) : Option BuildConfig := do
  let defaults : BuildConfig := {}
  let concurrency ← field value "concurrency" asU16 defaults.concurrency
  let commandTimeoutSeconds ← field value "command_timeout_seconds" asU64 defaults.commandTimeoutSeconds
  let retainWorkspaceOnFailure ← field value "retain_workspace_on_failure" asBool defaults.retainWorkspaceOnFailure
  return { concurrency, commandTimeoutSeconds, retainWorkspaceOnFailure }

def ServeCapacityConfig.ofValue (value : Value) : Option ServeCapacityConfig := do
  let defaults : ServeCapacityConfig := {}
  let cpuMillicores ← field value "cpu_millicores" asU64 defaults.cpuMillicores
  let memoryMb ← field value "memory_mb" asU64 defaults.memoryMb
  let diskMb ← field value "disk_mb" asU64 defaults.diskMb
  let maxDeployments ← field value "max_deployments" asU32 defaults.maxDeployments
  return { cpuMillicores, memoryMb, diskMb, maxDeployments }

def SsrServeConfig.ofValue (value : Value) : Option SsrServeConfig := do
  let defaults : SsrServeConfig := {}
  let idleStopSeconds ← field value "idle_stop_seconds" asU64 defaults.idleStopSeconds
  let startupTimeoutSeconds ← field value "startup_timeout_seconds" asU64 defaults.startupTimeoutSeconds
  return { idleStopSeconds, startupTimeoutSeconds }

def tlsOfValue (value : Value) : Option NodeTlsConfiguration := do
  let defaults : NodeTlsConfiguration := {}
  let enabled ← field value "enabled" asBool defaults.enabled
  let port ← field value "port" asU16 defaults.port
  return { enabled, port }

def ServeConfig.ofValue (value : Value) : Option ServeConfig := do
  let defaults : ServeConfig := {}
  let host ← field value "host" asIp defaults.host
  let port ← field value "port" asU16 defaults.port
  let publicBaseUrl ← field value "public_base_url" asString defaults.publicBaseUrl
  let metadataCacheTtlSeconds ← field value "metadata_cache_ttl_seconds" asU64 defaults.metadataCacheTtlSeconds
  let artifactCacheRoot ← field value "artifact_cache_root" asString defaults.artifactCacheRoot
  let capacity ← field value "capacity" ServeCapacityConfig.ofValue defaults.capacity
  let ssr ← field value "ssr" SsrServeConfig.ofValue defaults.ssr
  let tls ← field value "tls" tlsOfValue defaults.tls
  return { host, port, publicBaseUrl, metadataCacheTtlSeconds, artifactCacheRoot, capacity, ssr, tls }

def RuntimeResourcesConfig.ofValue (value : Value) : Option RuntimeResourcesConfig := do
  let defaults : RuntimeResourcesConfig := {}
  let cpuLimit ← field value "cpu_limit" asU32 defaults.cpuLimit
  let memoryMb ← field value "memory_mb" asU64 defaults.memoryMb
  return { cpuLimit, memoryMb }

def RuntimeConfig.ofValue (value : Value) : Option RuntimeConfig := do
  let defaults : RuntimeConfig := {}
  let backend ← field value "backend" asString defaults.backend
  let socket ← field value "socket" asString defaults.socket
  let defaultBuildImage ← field value "default_build_image" asString defaults.defaultBuildImage
  let defaultServeImage ← field value "default_serve_image" asString defaults.defaultServeImage
  let network ← field value "network" asString defaults.network
  let resources ← field value "resources" RuntimeResourcesConfig.ofValue defaults.resources
  return { backend, socket, defaultBuildImage, defaultServeImage, network, resources }

def PrivateRepositoryTargetConfig.ofValue (value : Value) : Option PrivateRepositoryTargetConfig := do
  let host ← field value "host" asString none
  let ip ← field value "ip" asIp none
  let port ← field value "port" asU16 none
  return { host, ip, port }

def SecurityConfig.ofValue (value : Value) : Option SecurityConfig := do
  let defaults : SecurityConfig := {}
  let gatewayAuthentication ← field value "gateway_authentication" gatewayOfValue defaults.gatewayAuthentication
  let privateRepositoryTargets ← field value "private_repository_targets" (asArray PrivateRepositoryTargetConfig.ofValue)
    defaults.privateRepositoryTargets
  return { gatewayAuthentication, privateRepositoryTargets }

def DevelopmentConfig.ofValue (value : Value) : Option DevelopmentConfig := do
  let defaults : DevelopmentConfig := {}
  let verboseBuildLog ← field value "verbose_build_log" asBool defaults.verboseBuildLog
  return { verboseBuildLog }

def NodeConfig.ofValue (value : Value) : Option NodeConfig := do
  let defaults : NodeConfig := {}
  let generatedBy ← field value "generated_by" (fun name => (asString name).map some) (some defaults.generatedBy)
  let configRevision ← field value "config_revision" asU64 defaults.configRevision
  let node ← field value "node" NodeIdentityConfig.ofValue defaults.node
  let build ← field value "build" BuildConfig.ofValue defaults.build
  let runtime ← field value "runtime" RuntimeConfig.ofValue defaults.runtime
  let serve ← field value "serve" ServeConfig.ofValue defaults.serve
  let security ← field value "security" SecurityConfig.ofValue defaults.security
  let development ← field value "development" DevelopmentConfig.ofValue defaults.development
  let log ← field value "log" LogConfig.ofValue defaults.log
  return { generatedBy, configRevision, node, build, runtime, serve, security, development, log }

end Reading

/-! What is written is read back. -/

section RoundTrip

@[simp] theorem asIp_ipValue (address : IpAddr) : asIp (ipValue address) = some address := by
  unfold asIp ipValue
  rw [asString_string,Option.bind_some,String.toList_ofList,IpAddr.parse_print]

@[simp] theorem LogFormat.readsBack (format : LogFormat) : LogFormat.ofValue format.toValue = some format := by
  cases format <;> rfl

@[simp] theorem gateway_readsBack (mode : GatewayAuthenticationMode) : gatewayOfValue (gatewayValue mode) = some mode := by
  cases mode <;> rfl

@[simp] theorem LogConfig.readsBack (config : LogConfig) : LogConfig.ofValue config.toValue = some config := by
  simp [LogConfig.ofValue,LogConfig.toValue,field_cons]

@[simp] theorem NodeCapabilitiesConfig.readsBack (config : NodeCapabilitiesConfig) : NodeCapabilitiesConfig.ofValue config.toValue = some config := by
  simp [NodeCapabilitiesConfig.ofValue,NodeCapabilitiesConfig.toValue,field_cons]

@[simp] theorem NodeIdentityConfig.readsBack (config : NodeIdentityConfig) : NodeIdentityConfig.ofValue config.toValue = some config := by
  simp [NodeIdentityConfig.ofValue,NodeIdentityConfig.toValue,field_cons]

@[simp] theorem DevelopmentConfig.readsBack (config : DevelopmentConfig) : DevelopmentConfig.ofValue config.toValue = some config := by
  simp [DevelopmentConfig.ofValue,DevelopmentConfig.toValue,field_cons]

theorem BuildConfig.readsBack (config : BuildConfig) (concurrency : config.concurrency ≤ u16Max)
    (timeout : config.commandTimeoutSeconds ≤ u64Max) : BuildConfig.ofValue config.toValue = some config := by
  simp [BuildConfig.ofValue,BuildConfig.toValue,field_cons,asU16,asU64,asNat_integer concurrency,asNat_integer timeout]

theorem ServeCapacityConfig.readsBack (config : ServeCapacityConfig) (cpu : config.cpuMillicores ≤ u64Max) (memory : config.memoryMb ≤ u64Max)
    (disk : config.diskMb ≤ u64Max) (deployments : config.maxDeployments ≤ u32Max) :
    ServeCapacityConfig.ofValue config.toValue = some config := by
  simp [ServeCapacityConfig.ofValue,ServeCapacityConfig.toValue,field_cons,asU32,asU64,asNat_integer cpu,asNat_integer memory,
    asNat_integer disk,asNat_integer deployments]

theorem SsrServeConfig.readsBack (config : SsrServeConfig) (idle : config.idleStopSeconds ≤ u64Max)
    (startup : config.startupTimeoutSeconds ≤ u64Max) : SsrServeConfig.ofValue config.toValue = some config := by
  simp [SsrServeConfig.ofValue,SsrServeConfig.toValue,field_cons,asU64,asNat_integer idle,asNat_integer startup]

theorem tls_readsBack (config : NodeTlsConfiguration) (port : config.port ≤ u16Max) : tlsOfValue (tlsValue config) = some config := by
  simp [tlsOfValue,tlsValue,field_cons,asU16,asNat_integer port]

theorem RuntimeResourcesConfig.readsBack (config : RuntimeResourcesConfig) (cpu : config.cpuLimit ≤ u32Max)
    (memory : config.memoryMb ≤ u64Max) : RuntimeResourcesConfig.ofValue config.toValue = some config := by
  simp [RuntimeResourcesConfig.ofValue,RuntimeResourcesConfig.toValue,field_cons,asU32,asU64,asNat_integer cpu,asNat_integer memory]

theorem PrivateRepositoryTargetConfig.readsBack (config : PrivateRepositoryTargetConfig) (port : config.port ≤ u16Max) :
    PrivateRepositoryTargetConfig.ofValue config.toValue = some config := by
  simp [PrivateRepositoryTargetConfig.ofValue,PrivateRepositoryTargetConfig.toValue,field_cons,asU16,asNat_integer port]

theorem SecurityConfig.readsBack (config : SecurityConfig) (ports : ∀ target ∈ config.privateRepositoryTargets, target.port ≤ u16Max) :
    SecurityConfig.ofValue config.toValue = some config := by
  have targets : asArray PrivateRepositoryTargetConfig.ofValue
      (.array (config.privateRepositoryTargets.map PrivateRepositoryTargetConfig.toValue)) = some config.privateRepositoryTargets :=
    asArray_map _ fun target member => target.readsBack (ports target member)
  simp [SecurityConfig.ofValue,SecurityConfig.toValue,field_cons,targets]

structure ServeConfig.InRange (config : ServeConfig) : Prop where
  port : config.port ≤ u16Max
  ttl : config.metadataCacheTtlSeconds ≤ u64Max
  cpu : config.capacity.cpuMillicores ≤ u64Max
  memory : config.capacity.memoryMb ≤ u64Max
  disk : config.capacity.diskMb ≤ u64Max
  deployments : config.capacity.maxDeployments ≤ u32Max
  idle : config.ssr.idleStopSeconds ≤ u64Max
  startup : config.ssr.startupTimeoutSeconds ≤ u64Max
  tls : config.tls.port ≤ u16Max

theorem ServeConfig.readsBack (config : ServeConfig) (fits : config.InRange) : ServeConfig.ofValue config.toValue = some config := by
  have capacity := config.capacity.readsBack fits.cpu fits.memory fits.disk fits.deployments
  have ssr := config.ssr.readsBack fits.idle fits.startup
  have tls := tls_readsBack config.tls fits.tls
  simp [ServeConfig.ofValue,ServeConfig.toValue,field_cons,asU16,asU64,asNat_integer fits.port,asNat_integer fits.ttl,capacity,ssr,tls]

theorem RuntimeConfig.readsBack (config : RuntimeConfig) (cpu : config.resources.cpuLimit ≤ u32Max)
    (memory : config.resources.memoryMb ≤ u64Max) : RuntimeConfig.ofValue config.toValue = some config := by
  simp [RuntimeConfig.ofValue,RuntimeConfig.toValue,field_cons,config.resources.readsBack cpu memory]

structure NodeConfig.InRange (config : NodeConfig) : Prop where
  revision : config.configRevision ≤ u64Max
  concurrency : config.build.concurrency ≤ u16Max
  timeout : config.build.commandTimeoutSeconds ≤ u64Max
  serve : config.serve.InRange
  cpu : config.runtime.resources.cpuLimit ≤ u32Max
  memory : config.runtime.resources.memoryMb ≤ u64Max
  targets : ∀ target ∈ config.security.privateRepositoryTargets, target.port ≤ u16Max

theorem NodeConfig.readsBack (config : NodeConfig) (fits : config.InRange) : NodeConfig.ofValue config.toValue = some config := by
  have build := config.build.readsBack fits.concurrency fits.timeout
  have runtime := config.runtime.readsBack fits.cpu fits.memory
  have serve := config.serve.readsBack fits.serve
  have security := config.security.readsBack fits.targets
  obtain ⟨generatedBy,revision,node,build',runtime',serve',security',development,log⟩ := config
  have range : asNat u64Max (.integer revision) = some revision := asNat_integer fits.revision
  cases generatedBy with
  | none =>
    simp [NodeConfig.ofValue,NodeConfig.toValue,field_cons,asU64,range,build,runtime,serve,security]
  | some name =>
    simp [NodeConfig.ofValue,NodeConfig.toValue,field_cons,asU64,range,build,runtime,serve,security]

theorem bounded {table : Value} {key : String} {limit default number : Nat}
    (read : field table key (asNat limit) (some default) = some number) (small : default ≤ limit) : number ≤ limit := by
  refine field_invariant read ?_ ?_
  · rintro _ ⟨⟩
    exact small
  · exact fun _ _ => asNat_le

end RoundTrip

/-- `load_toml_or_default` of a file that is there or not. -/
def loadPersisted (file : Option Value) : Option NodeConfig := NodeConfig.ofValue (file.getD (.table []))

def saveToml (config : NodeConfig) : Option Value := toToml config.toValue

/-! What is read has the width of its type, and so have the defaults. -/

section Widths
variable {value : Value}

theorem BuildConfig.bounded_of_read {config : BuildConfig} (read : BuildConfig.ofValue value = some config) :
    config.concurrency ≤ u16Max ∧ config.commandTimeoutSeconds ≤ u64Max := by
  simp only [ofValue,Option.bind_eq_bind,Option.bind_eq_some_iff,Option.pure_def,Option.some.injEq] at read
  obtain ⟨_,concurrency,_,timeout,_,_,rfl⟩ := read
  exact ⟨bounded concurrency (by decide),bounded timeout (by decide)⟩

theorem RuntimeConfig.bounded_of_read {config : RuntimeConfig} (read : RuntimeConfig.ofValue value = some config) :
    config.resources.cpuLimit ≤ u32Max ∧ config.resources.memoryMb ≤ u64Max := by
  simp only [ofValue,Option.bind_eq_bind,Option.bind_eq_some_iff,Option.pure_def,Option.some.injEq] at read
  obtain ⟨_,_,_,_,_,_,_,_,_,_,resources,found,rfl⟩ := read
  refine field_invariant found ?_ fun source resources read => ?_
  · rintro _ ⟨⟩
    exact ⟨Nat.le_of_ble_eq_true rfl,Nat.le_of_ble_eq_true rfl⟩
  · simp only [RuntimeResourcesConfig.ofValue,Option.bind_eq_bind,Option.bind_eq_some_iff,Option.pure_def,Option.some.injEq] at read
    obtain ⟨_,cpu,_,memory,rfl⟩ := read
    exact ⟨bounded cpu (by decide),bounded memory (by decide)⟩

theorem ServeCapacityConfig.bounded_of_read {config : ServeCapacityConfig} (read : ServeCapacityConfig.ofValue value = some config) :
    config.cpuMillicores ≤ u64Max ∧ config.memoryMb ≤ u64Max ∧ config.diskMb ≤ u64Max ∧ config.maxDeployments ≤ u32Max := by
  simp only [ofValue,Option.bind_eq_bind,Option.bind_eq_some_iff,Option.pure_def,Option.some.injEq] at read
  obtain ⟨_,cpu,_,memory,_,disk,_,deployments,rfl⟩ := read
  exact ⟨bounded cpu (by decide),bounded memory (by decide),bounded disk (by decide),bounded deployments (by decide)⟩

theorem SsrServeConfig.bounded_of_read {config : SsrServeConfig} (read : SsrServeConfig.ofValue value = some config) :
    config.idleStopSeconds ≤ u64Max ∧ config.startupTimeoutSeconds ≤ u64Max := by
  simp only [ofValue,Option.bind_eq_bind,Option.bind_eq_some_iff,Option.pure_def,Option.some.injEq] at read
  obtain ⟨_,idle,_,startup,rfl⟩ := read
  exact ⟨bounded idle (by decide),bounded startup (by decide)⟩

theorem ServeConfig.inRange_of_read {config : ServeConfig} (read : ServeConfig.ofValue value = some config) : config.InRange := by
  simp only [ofValue,Option.bind_eq_bind,Option.bind_eq_some_iff,Option.pure_def,Option.some.injEq] at read
  obtain ⟨_,_,_,port,_,_,_,ttl,_,_,capacity,room,ssr,times,tls,listening,rfl⟩ := read
  obtain ⟨cpu,memory,disk,deployments⟩ : capacity.cpuMillicores ≤ u64Max ∧ capacity.memoryMb ≤ u64Max ∧ capacity.diskMb ≤ u64Max ∧
      capacity.maxDeployments ≤ u32Max :=
    field_invariant room (by rintro _ ⟨⟩; decide) fun _ _ => ServeCapacityConfig.bounded_of_read
  obtain ⟨idle,startup⟩ : ssr.idleStopSeconds ≤ u64Max ∧ ssr.startupTimeoutSeconds ≤ u64Max :=
    field_invariant times (by rintro _ ⟨⟩; decide) fun _ _ => SsrServeConfig.bounded_of_read
  have tlsPort : tls.port ≤ u16Max := by
    refine field_invariant listening (by rintro _ ⟨⟩; decide) fun source tls read => ?_
    simp only [tlsOfValue,Option.bind_eq_bind,Option.bind_eq_some_iff,Option.pure_def,Option.some.injEq] at read
    obtain ⟨_,_,_,port,rfl⟩ := read
    exact bounded port (by decide)
  exact ⟨bounded port (by decide),bounded ttl (by decide),cpu,memory,disk,deployments,idle,startup,tlsPort⟩

theorem PrivateRepositoryTargetConfig.bounded_of_read {config : PrivateRepositoryTargetConfig}
    (read : PrivateRepositoryTargetConfig.ofValue value = some config) : config.port ≤ u16Max := by
  simp only [ofValue,Option.bind_eq_bind,Option.bind_eq_some_iff,Option.pure_def,Option.some.injEq] at read
  obtain ⟨_,_,_,_,_,port,rfl⟩ := read
  exact field_invariant port (by rintro _ ⟨⟩) fun _ _ => asNat_le

theorem SecurityConfig.bounded_of_read {config : SecurityConfig} (read : SecurityConfig.ofValue value = some config) :
    ∀ target ∈ config.privateRepositoryTargets, target.port ≤ u16Max := by
  simp only [ofValue,Option.bind_eq_bind,Option.bind_eq_some_iff,Option.pure_def,Option.some.injEq] at read
  obtain ⟨_,_,targets,listed,rfl⟩ := read
  refine field_invariant listed (by rintro _ ⟨⟩ target member; cases member) fun array targets read target member => ?_
  obtain ⟨_,own⟩ := mem_asArray read target member
  exact PrivateRepositoryTargetConfig.bounded_of_read own

theorem NodeConfig.inRange_of_read {config : NodeConfig} (read : NodeConfig.ofValue value = some config) : config.InRange := by
  simp only [ofValue,Option.bind_eq_bind,Option.bind_eq_some_iff,Option.pure_def,Option.some.injEq] at read
  obtain ⟨_,_,_,revision,_,_,build,built,runtime,ran,serve,served,security,secured,_,_,_,_,rfl⟩ := read
  obtain ⟨concurrency,timeout⟩ : build.concurrency ≤ u16Max ∧ build.commandTimeoutSeconds ≤ u64Max :=
    field_invariant built (by rintro _ ⟨⟩; decide) fun _ _ => BuildConfig.bounded_of_read
  obtain ⟨cpu,memory⟩ : runtime.resources.cpuLimit ≤ u32Max ∧ runtime.resources.memoryMb ≤ u64Max :=
    field_invariant ran (by rintro _ ⟨⟩; decide) fun _ _ => RuntimeConfig.bounded_of_read
  have serving : serve.InRange :=
    field_invariant served (by rintro _ ⟨⟩; constructor <;> decide) fun _ _ => ServeConfig.inRange_of_read
  have targets : ∀ target ∈ security.privateRepositoryTargets, target.port ≤ u16Max :=
    field_invariant secured (by rintro _ ⟨⟩; decide) fun _ _ => SecurityConfig.bounded_of_read
  exact ⟨bounded revision (by decide),concurrency,timeout,serving,cpu,memory,targets⟩

end Widths

def NodeConfig.nodeTokenConfigured (config : NodeConfig) : Bool :=
  let token := trim config.node.nodeToken.toList
  token ≠ [] ∧ token ≠ "change-me".toList

/-! What is synchronized. -/

section Synchronization

def LogFormat.protocol : LogFormat → NodeLogFormat
  | .pretty => .pretty
  | .json => .json

def LogFormat.ofProtocol : NodeLogFormat → LogFormat
  | .pretty => .pretty
  | .json => .json

def NodeConfig.syncConfiguration (config : NodeConfig) : NodeConfiguration where
  node := ⟨config.node.id,config.node.controlApi,config.node.workRoot,config.node.region,
    ⟨config.node.capabilities.build,config.node.capabilities.serve⟩⟩
  build := ⟨config.build.concurrency,config.build.commandTimeoutSeconds,config.build.retainWorkspaceOnFailure⟩
  serve := {
    host := String.ofList config.serve.host.print
    port := config.serve.port
    publicBaseUrl := config.serve.publicBaseUrl
    metadataCacheTtlSeconds := config.serve.metadataCacheTtlSeconds
    artifactCacheRoot := config.serve.artifactCacheRoot
    capacity := ⟨config.serve.capacity.cpuMillicores,config.serve.capacity.memoryMb,config.serve.capacity.diskMb,
      config.serve.capacity.maxDeployments⟩
    ssr := ⟨config.serve.ssr.idleStopSeconds,config.serve.ssr.startupTimeoutSeconds⟩
    tls := config.serve.tls }
  runtime := {
    backend := config.runtime.backend
    socket := config.runtime.socket
    defaultBuildImage := config.runtime.defaultBuildImage
    defaultServeImage := config.runtime.defaultServeImage
    network := config.runtime.network
    resources := ⟨config.runtime.resources.cpuLimit,config.runtime.resources.memoryMb⟩ }
  security := ⟨config.security.gatewayAuthentication,
    config.security.privateRepositoryTargets.map fun target => ⟨target.host,String.ofList target.ip.print,target.port⟩⟩
  development := ⟨config.development.verboseBuildLog⟩
  log := ⟨config.log.level,config.log.format.protocol⟩

def parseIp (text problem : String) : Except String IpAddr :=
  match IpAddr.parse text.toList with
  | some address => .ok address
  | none => .error problem

def parseTarget (target : NodePrivateRepositoryTargetConfiguration) : Except String PrivateRepositoryTargetConfig := do
  let ip ← parseIp target.ip "private repository target IP is invalid"
  return ⟨target.host,ip,target.port⟩

def publicUrlProblem : String := "serve public_base_url must be an absolute HTTP(S) URL"

def validPublicUrl (url : List Char → Option Url) (value : String) : Bool :=
  (url value.toList).any fun url => (url.scheme = "http" ∨ url.scheme = "https") ∧ url.hasHost

def NodeConfig.validate (url : List Char → Option Url) (config : NodeConfig) : Except String PUnit := do
  let capabilities := config.node.capabilities
  match normalizeRegion config.node.region with
  | .ok _ => pure ⟨⟩
  | .error error => .error ("invalid node region: " ++ error.message)
  refuse (¬capabilities.build ∧ ¬capabilities.serve) "node must enable build or serve"
  refuse (capabilities.build ∧ config.build.concurrency = 0) "build concurrency must be positive when build capability is enabled"
  refuse (capabilities.serve ∧ config.serve.tls.enabled ∧ (config.serve.tls.port = 0 ∨ config.serve.tls.port = config.serve.port))
    "serve TLS port must be positive and different from the HTTP port"
  refuse (capabilities.serve ∧ ¬validPublicUrl url config.serve.publicBaseUrl) publicUrlProblem

def NodeConfig.withDesired (config : NodeConfig) (desired : NodeConfiguration) (host : IpAddr) (targets : List PrivateRepositoryTargetConfig) :
    NodeConfig :=
  { config with
    node := { config.node with
      id := desired.node.id
      controlApi := desired.node.controlApi
      workRoot := desired.node.workRoot
      region := desired.node.region
      capabilities := ⟨desired.node.capabilities.build,desired.node.capabilities.serve⟩ }
    build := ⟨desired.build.concurrency,desired.build.commandTimeoutSeconds,desired.build.retainWorkspaceOnFailure⟩
    serve := {
      host
      port := desired.serve.port
      publicBaseUrl := desired.serve.publicBaseUrl
      metadataCacheTtlSeconds := desired.serve.metadataCacheTtlSeconds
      artifactCacheRoot := desired.serve.artifactCacheRoot
      capacity := ⟨desired.serve.capacity.cpuMillicores,desired.serve.capacity.memoryMb,desired.serve.capacity.diskMb,
        desired.serve.capacity.maxDeployments⟩
      ssr := ⟨desired.serve.ssr.idleStopSeconds,desired.serve.ssr.startupTimeoutSeconds⟩
      tls := desired.serve.tls }
    runtime := {
      backend := desired.runtime.backend
      socket := desired.runtime.socket
      defaultBuildImage := desired.runtime.defaultBuildImage
      defaultServeImage := desired.runtime.defaultServeImage
      network := desired.runtime.network
      resources := ⟨desired.runtime.resources.cpuLimit,desired.runtime.resources.memoryMb⟩ }
    security := ⟨desired.security.gatewayAuthentication,targets⟩
    development := ⟨desired.development.verboseBuildLog⟩
    log := ⟨desired.log.level,.ofProtocol desired.log.format⟩ }

def NodeConfig.applySyncConfiguration (url : List Char → Option Url) (config : NodeConfig) (desired : NodeConfiguration) :
    Except String NodeConfig := do
  let host ← parseIp desired.serve.host "serve host must be an IPv4 or IPv6 address"
  let targets ← desired.security.privateRepositoryTargets.mapM parseTarget
  let config := config.withDesired desired host targets
  config.validate url
  return config

/-- What the file holds then, unless the desired configuration is refused or cannot be written. -/
def persistDesired (url : List Char → Option Url) (path : String) (file : Option Value) (revision : Nat) (desired : NodeConfiguration) :
    Except String Value := do
  match loadPersisted file with
  | none => .error ("failed to load Node config from " ++ path)
  | some config =>
    let config ← config.applySyncConfiguration url desired
    match saveToml { config with configRevision := revision } with
    | some written => return written
    | none => .error ("failed to persist Node config to " ++ path)

end Synchronization

end GrassWorker.Config
