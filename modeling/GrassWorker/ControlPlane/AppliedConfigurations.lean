import GrassWorker.Node.Config

/-! A desired configuration on its way: accepted by the control plane, written to the file of the node, read from
it again and reported. The control plane accepts addresses that are printed in another way, numbers that
the file cannot hold, and a URL that is only one without the blanks around it. -/
namespace GrassWorker.AppliedConfigurations
open Checks Config NodeSettings Nodes Serde

/-! The JSON of a configuration. -/

section Json

def identityJson (identity : NodeIdentityConfiguration) : Value := .table [
  ("id",.string identity.id),
  ("control_api",.string identity.controlApi),
  ("work_root",.string identity.workRoot),
  ("region",.string identity.region),
  ("capabilities",.table [("build",.boolean identity.capabilities.build),("serve",.boolean identity.capabilities.serve)])]

def buildJson (build : NodeBuildConfiguration) : Value := .table [
  ("concurrency",.integer build.concurrency),
  ("command_timeout_seconds",.integer build.commandTimeoutSeconds),
  ("retain_workspace_on_failure",.boolean build.retainWorkspaceOnFailure)]

def capacityJson (capacity : NodeServeCapacityConfiguration) : Value := .table [
  ("cpu_millicores",.integer capacity.cpuMillicores),
  ("memory_mb",.integer capacity.memoryMb),
  ("disk_mb",.integer capacity.diskMb),
  ("max_deployments",.integer capacity.maxDeployments)]

def ssrJson (ssr : NodeSsrConfiguration) : Value := .table [
  ("idle_stop_seconds",.integer ssr.idleStopSeconds),
  ("startup_timeout_seconds",.integer ssr.startupTimeoutSeconds)]

def serveJson (serve : NodeServeConfiguration) : Value := .table [
  ("host",.string serve.host),
  ("port",.integer serve.port),
  ("public_base_url",.string serve.publicBaseUrl),
  ("metadata_cache_ttl_seconds",.integer serve.metadataCacheTtlSeconds),
  ("artifact_cache_root",.string serve.artifactCacheRoot),
  ("capacity",capacityJson serve.capacity),
  ("ssr",ssrJson serve.ssr),
  ("tls",tlsValue serve.tls)]

def runtimeJson (runtime : NodeRuntimeConfiguration) : Value := .table [
  ("backend",.string runtime.backend),
  ("socket",.string runtime.socket),
  ("default_build_image",.string runtime.defaultBuildImage),
  ("default_serve_image",.string runtime.defaultServeImage),
  ("network",.string runtime.network),
  ("resources",.table [("cpu_limit",.integer runtime.resources.cpuLimit),("memory_mb",.integer runtime.resources.memoryMb)])]

def targetJson (target : NodePrivateRepositoryTargetConfiguration) : Value :=
  .table [("host",.string target.host),("ip",.string target.ip),("port",.integer target.port)]

def securityJson (security : NodeSecurityConfiguration) : Value := .table [
  ("gateway_authentication",gatewayValue security.gatewayAuthentication),
  ("private_repository_targets",.array (security.privateRepositoryTargets.map targetJson))]

def logFormatJson : NodeLogFormat → Value
  | .pretty => .string "pretty"
  | .json => .string "json"

/-- `serde_json::to_value`. -/
def toJson (configuration : NodeConfiguration) : Value := .table [
  ("node",identityJson configuration.node),
  ("build",buildJson configuration.build),
  ("serve",serveJson configuration.serve),
  ("runtime",runtimeJson configuration.runtime),
  ("security",securityJson configuration.security),
  ("development",.table [("verbose_build_log",.boolean configuration.development.verboseBuildLog)]),
  ("log",.table [("level",.string configuration.log.level),("format",logFormatJson configuration.log.format)])]

theorem identityJson_injective : Function.Injective identityJson := by
  rintro ⟨_,_,_,_,_,_⟩ ⟨_,_,_,_,_,_⟩ same
  simpa [identityJson] using same

theorem buildJson_injective : Function.Injective buildJson := by
  rintro ⟨_,_,_⟩ ⟨_,_,_⟩ same
  simpa [buildJson] using same

theorem capacityJson_injective : Function.Injective capacityJson := by
  rintro ⟨_,_,_,_⟩ ⟨_,_,_,_⟩ same
  simpa [capacityJson] using same

theorem ssrJson_injective : Function.Injective ssrJson := by
  rintro ⟨_,_⟩ ⟨_,_⟩ same
  simpa [ssrJson] using same

theorem tlsValue_injective : Function.Injective tlsValue := by
  rintro ⟨_,_⟩ ⟨_,_⟩ same
  simpa [tlsValue] using same

theorem serveJson_injective : Function.Injective serveJson := by
  rintro ⟨_,_,_,_,_,_,_,_⟩ ⟨_,_,_,_,_,_,_,_⟩ same
  simpa [serveJson,capacityJson_injective.eq_iff,ssrJson_injective.eq_iff,tlsValue_injective.eq_iff] using same

theorem runtimeJson_injective : Function.Injective runtimeJson := by
  rintro ⟨_,_,_,_,_,_,_⟩ ⟨_,_,_,_,_,_,_⟩ same
  simpa [runtimeJson] using same

theorem targetJson_injective : Function.Injective targetJson := by
  rintro ⟨_,_,_⟩ ⟨_,_,_⟩ same
  simpa [targetJson] using same

theorem gatewayValue_injective : Function.Injective gatewayValue := by
  intro first second same
  cases first <;> cases second <;> first | rfl | simp [gatewayValue] at same

theorem logFormatJson_injective : Function.Injective logFormatJson := by
  intro first second same
  cases first <;> cases second <;> first | rfl | simp [logFormatJson] at same

theorem securityJson_injective : Function.Injective securityJson := by
  rintro ⟨_,_⟩ ⟨_,_⟩ same
  simpa [securityJson,gatewayValue_injective.eq_iff,targetJson_injective.list_map.eq_iff] using same

theorem toJson_injective : Function.Injective toJson := by
  rintro ⟨_,_,_,_,_,⟨_⟩,⟨_,_⟩⟩ ⟨_,_,_,_,_,⟨_⟩,⟨_,_⟩⟩ same
  simpa [toJson,identityJson_injective.eq_iff,buildJson_injective.eq_iff,serveJson_injective.eq_iff,runtimeJson_injective.eq_iff,
    securityJson_injective.eq_iff,logFormatJson_injective.eq_iff] using same

end Json

section Definitions
variable (url : List Char → Option Url) (isEnvFilter : List Char → Bool)

/-- The parsers of the control plane; that of addresses is the one of the node. -/
def parsers : Parsers := ⟨url,fun text => (IpAddr.parse text.toList).isSome,isEnvFilter⟩

structure InRange (desired : NodeConfiguration) : Prop where
  concurrency : desired.build.concurrency ≤ u16Max
  timeout : desired.build.commandTimeoutSeconds ≤ u64Max
  port : desired.serve.port ≤ u16Max
  ttl : desired.serve.metadataCacheTtlSeconds ≤ u64Max
  deployments : desired.serve.capacity.maxDeployments ≤ u32Max
  idle : desired.serve.ssr.idleStopSeconds ≤ u64Max
  startup : desired.serve.ssr.startupTimeoutSeconds ≤ u64Max
  tls : desired.serve.tls.port ≤ u16Max
  cpu : desired.runtime.resources.cpuLimit ≤ u32Max
  targets : ∀ target ∈ desired.security.privateRepositoryTargets, target.port ≤ u16Max

/-- The node writes the desired configuration, reads it again, and is recorded to have applied it when it reports it. -/
def Applies (path : String) (file : Option Value) (revision : Nat) (desired : NodeConfiguration) (node : Node) (now : Timestamp) : Prop :=
  ∃ written loaded state, persistDesired url path file revision desired = .ok written ∧ loadPersisted (some written) = some loaded ∧
    toJson loaded.syncConfiguration = toJson desired ∧
    registrationConfigState now node loaded.configRevision (some loaded.syncConfiguration) loaded.nodeTokenConfigured = .ok state ∧
    state.status = .applied

def Canonical (text : String) : Prop := ∃ address, IpAddr.parse text.toList = some address ∧ String.ofList address.print = text

/-- The addresses are spelled as they are printed, the file holds the numbers, and the URL is one with all its blanks. -/
structure Appliable (desired : NodeConfiguration) : Prop where
  host : Canonical desired.serve.host
  targets : ∀ target ∈ desired.security.privateRepositoryTargets, Canonical target.ip
  timeout : desired.build.commandTimeoutSeconds ≤ i64Max
  ttl : desired.serve.metadataCacheTtlSeconds ≤ i64Max
  idle : desired.serve.ssr.idleStopSeconds ≤ i64Max
  startup : desired.serve.ssr.startupTimeoutSeconds ≤ i64Max
  publicUrl : desired.node.capabilities.serve = true → validPublicUrl url desired.serve.publicBaseUrl = true

end Definitions

section Accepted
variable {url : List Char → Option Url} {isEnvFilter : List Char → Bool} {desired : NodeConfiguration}

structure Checked (desired : NodeConfiguration) : Prop where
  region : (Validator.normalizeRegion desired.node.region).isOk = true
  capabilities : ¬(¬desired.node.capabilities.build ∧ ¬desired.node.capabilities.serve)
  concurrency : ¬(desired.node.capabilities.build ∧ desired.build.concurrency = 0)
  host : (IpAddr.parse desired.serve.host.toList).isSome = true
  tls : ¬(desired.serve.tls.enabled ∧ (desired.serve.tls.port = 0 ∨ desired.serve.tls.port = desired.serve.port))
  capacity : desired.serve.capacity.cpuMillicores ≤ i64Max ∧ desired.serve.capacity.memoryMb ≤ i64Max ∧ desired.serve.capacity.diskMb ≤ i64Max
  memory : desired.runtime.resources.memoryMb ≤ i64Max
  targets : ∀ target ∈ desired.security.privateRepositoryTargets, (IpAddr.parse target.ip.toList).isSome = true

theorem target_checked {target : NodePrivateRepositoryTargetConfiguration} (accepted : validateTarget (parsers url isEnvFilter) target = .ok ⟨⟩) :
    (IpAddr.parse target.ip.toList).isSome = true := by
  unfold validateTarget at accepted
  simp only [refuse_bind_eq_ok] at accepted
  exact not_not.mp accepted.2.1

theorem checked_of_accepted (accepted : validateNodeConfiguration (parsers url isEnvFilter) desired = .ok ⟨⟩) : Checked desired := by
  unfold validateNodeConfiguration at accepted
  simp only [refuse_bind_eq_ok] at accepted
  obtain ⟨_,region,_,_,capabilities,concurrency,_,host,_,tls,_,_,_,capacity,_,_,_,_,_,memory,_,rest⟩ := accepted
  obtain ⟨_,targets,_⟩ := bind_eq_ok.mp rest
  refine ⟨not_not.mp region,capabilities,concurrency,not_not.mp host,tls,by omega,Nat.not_lt.mp memory,fun target member => ?_⟩
  exact target_checked (forM_eq_ok.mp targets target member)

end Accepted

/-! What the node makes of it. -/

section Written
variable {url : List Char → Option Url} {desired : NodeConfiguration} {config : NodeConfig} {revision : Nat}

def readIp (text : String) : IpAddr := (IpAddr.parse text.toList).getD (.v4 ⟨0,0,0,0⟩)

def readTarget (target : NodePrivateRepositoryTargetConfiguration) : PrivateRepositoryTargetConfig := ⟨target.host,readIp target.ip,target.port⟩

def writtenConfig (config : NodeConfig) (revision : Nat) (desired : NodeConfiguration) : NodeConfig :=
  { config.withDesired desired (readIp desired.serve.host) (desired.security.privateRepositoryTargets.map readTarget) with configRevision := revision }

def reprint (text : String) : String := String.ofList (readIp text).print

def reprinted (desired : NodeConfiguration) : NodeConfiguration :=
  { desired with
    serve := { desired.serve with host := reprint desired.serve.host }
    security := { desired.security with
      privateRepositoryTargets := desired.security.privateRepositoryTargets.map fun target => { target with ip := reprint target.ip } } }

theorem parseIp_eq {text problem : String} (address : (IpAddr.parse text.toList).isSome = true) : parseIp text problem = .ok (readIp text) := by
  obtain ⟨found,parsed⟩ := Option.isSome_iff_exists.mp address
  unfold parseIp readIp
  rw [parsed]
  rfl

theorem canonical_iff {text : String} (address : (IpAddr.parse text.toList).isSome = true) : Canonical text ↔ reprint text = text := by
  obtain ⟨found,parsed⟩ := Option.isSome_iff_exists.mp address
  unfold Canonical reprint readIp
  rw [parsed]
  simp

theorem sync_writtenConfig : (writtenConfig config revision desired).syncConfiguration = reprinted desired := by
  have format : (LogFormat.ofProtocol desired.log.format).protocol = desired.log.format := by
    cases desired.log.format <;> rfl
  unfold NodeConfig.syncConfiguration writtenConfig NodeConfig.withDesired reprinted reprint
  dsimp only
  rw [format,List.map_map]
  rfl

theorem reprinted_eq_iff (checked : Checked desired) : reprinted desired = desired ↔
    Canonical desired.serve.host ∧ ∀ target ∈ desired.security.privateRepositoryTargets, Canonical target.ip := by
  have targets : desired.security.privateRepositoryTargets.map (fun target => { target with ip := reprint target.ip }) =
      desired.security.privateRepositoryTargets ↔ ∀ target ∈ desired.security.privateRepositoryTargets, Canonical target.ip := by
    constructor
    · intro same target member
      rw [canonical_iff (checked.targets target member)]
      have each := List.map_inj_left.mp (same.trans (List.map_id _).symm) target member
      exact congrArg NodePrivateRepositoryTargetConfiguration.ip each
    · intro canonical
      refine Eq.trans (List.map_congr_left ?_) (List.map_id _)
      intro target member
      have same := (canonical_iff (checked.targets target member)).mp (canonical target member)
      change NodePrivateRepositoryTargetConfiguration.mk target.host (reprint target.ip) target.port = target
      rw [same]
  rw [canonical_iff checked.host,← targets]
  constructor
  · intro same
    exact ⟨congrArg (fun configuration => configuration.serve.host) same,
      congrArg (fun configuration => configuration.security.privateRepositoryTargets) same⟩
  · rintro ⟨host,others⟩
    unfold reprinted
    rw [host,others]

theorem validate_iff (checked : Checked desired) (targets : List PrivateRepositoryTargetConfig) (host : IpAddr) :
    (config.withDesired desired host targets).validate url = .ok ⟨⟩ ↔
      (desired.node.capabilities.serve = true → validPublicUrl url desired.serve.publicBaseUrl = true) := by
  obtain ⟨region,normalized⟩ : ∃ region, Validator.normalizeRegion desired.node.region = .ok region := by
    have region := checked.region
    cases normalized : Validator.normalizeRegion desired.node.region with
    | ok region => exact ⟨region,rfl⟩
    | error problem =>
      rw [normalized] at region
      cases region
  unfold NodeConfig.validate NodeConfig.withDesired
  dsimp only
  rw [normalized]
  dsimp only
  rw [refuse_bind_eq_ok,refuse_bind_eq_ok,refuse_bind_eq_ok,refuse_eq_ok]
  constructor
  · rintro ⟨_,_,_,readable⟩ serve
    by_contra blank
    exact readable ⟨serve,blank⟩
  · intro readable
    refine ⟨checked.capabilities,checked.concurrency,fun both => checked.tls both.2,fun both => both.2 (readable both.1)⟩

theorem apply_iff (checked : Checked desired) (result : NodeConfig) : config.applySyncConfiguration url desired = .ok result ↔
    config.withDesired desired (readIp desired.serve.host) (desired.security.privateRepositoryTargets.map readTarget) = result ∧
      (desired.node.capabilities.serve = true → validPublicUrl url desired.serve.publicBaseUrl = true) := by
  have targets : desired.security.privateRepositoryTargets.mapM parseTarget = .ok (desired.security.privateRepositoryTargets.map readTarget) := by
    apply mapM_eq_ok
    intro target member
    unfold parseTarget
    rw [parseIp_eq (checked.targets target member)]
    rfl
  have whole : config.applySyncConfiguration url desired = .ok result ↔ ∃ done,
      (config.withDesired desired (readIp desired.serve.host) (desired.security.privateRepositoryTargets.map readTarget)).validate url = .ok done ∧
        config.withDesired desired (readIp desired.serve.host) (desired.security.privateRepositoryTargets.map readTarget) = result := by
    unfold NodeConfig.applySyncConfiguration
    rw [parseIp_eq checked.host,targets]
    change ((config.withDesired desired (readIp desired.serve.host) _).validate url >>= fun _ => pure _) = .ok result ↔ _
    exact bind_eq_ok.trans (exists_congr fun done => and_congr_right fun _ => pure_eq_ok)
  rw [whole,← validate_iff checked]
  constructor
  · rintro ⟨⟨⟩,passed,same⟩
    exact ⟨same,passed⟩
  · rintro ⟨same,passed⟩
    exact ⟨⟨⟩,passed,same⟩

theorem integer_inToml (value : Nat) : (Value.integer value).inToml = true ↔ value ≤ i64Max := by
  unfold Value.inToml tomlMax i64Max
  simp only [decide_eq_true_eq]
  omega

theorem target_inToml (target : PrivateRepositoryTargetConfig) (port : target.port ≤ u16Max) : target.toValue.inToml = true := by
  have small : (Value.integer target.port).inToml = true := (integer_inToml _).mpr (le_trans port (by decide))
  simp [PrivateRepositoryTargetConfig.toValue,ipValue,small]

theorem format_inToml (format : LogFormat) : format.toValue.inToml = true := by
  cases format <;> rfl

theorem gateway_inToml (mode : GatewayAuthenticationMode) : (gatewayValue mode).inToml = true := by
  cases mode <;> rfl

theorem written_inToml_iff (checked : Checked desired) (range : InRange desired) (revised : revision ≤ i64Max) :
    (writtenConfig config revision desired).toValue.inToml = true ↔ desired.build.commandTimeoutSeconds ≤ i64Max ∧
      desired.serve.metadataCacheTtlSeconds ≤ i64Max ∧ desired.serve.ssr.idleStopSeconds ≤ i64Max ∧
        desired.serve.ssr.startupTimeoutSeconds ≤ i64Max := by
  have u16 : ∀ value, value ≤ u16Max → value ≤ i64Max := fun value small => le_trans small (by decide)
  have u32 : ∀ value, value ≤ u32Max → value ≤ i64Max := fun value small => le_trans small (by decide)
  have targets : ∀ target ∈ desired.security.privateRepositoryTargets, (readTarget target).toValue.inToml = true :=
    fun target member => target_inToml _ (range.targets target member)
  obtain ⟨cpu,memory,disk⟩ := checked.capacity
  have generated : entriesInToml (config.generatedBy.map fun name => ("generated_by",Value.string name)).toList = true := by
    cases config.generatedBy <;> rfl
  have small : ∀ value : Nat, value ≤ i64Max → (Value.integer value).inToml = true := fun value small => (integer_inToml value).mpr small
  have concurrency := small _ (u16 _ range.concurrency)
  have port := small _ (u16 _ range.port)
  have tls := small _ (u16 _ range.tls)
  have deployments := small _ (u32 _ range.deployments)
  have limit := small _ (u32 _ range.cpu)
  have capacity := small _ cpu
  have ram := small _ memory
  have space := small _ disk
  have resources := small _ checked.memory
  have written := small _ revised
  simp only [writtenConfig,NodeConfig.withDesired,NodeConfig.toValue,NodeIdentityConfig.toValue,NodeCapabilitiesConfig.toValue,
    BuildConfig.toValue,RuntimeConfig.toValue,RuntimeResourcesConfig.toValue,ServeConfig.toValue,ServeCapacityConfig.toValue,
    SsrServeConfig.toValue,tlsValue,SecurityConfig.toValue,DevelopmentConfig.toValue,LogConfig.toValue,ipValue,
    inToml_table,entriesInToml_append,entriesInToml_cons,entriesInToml_nil,inToml_string,inToml_boolean,inToml_array,generated,
    gateway_inToml,format_inToml,concurrency,port,tls,deployments,limit,capacity,ram,space,resources,written,
    Bool.and_eq_true,Bool.true_and,Bool.and_true,allInToml_map,List.map_map,integer_inToml]
  constructor
  · rintro ⟨timeout,others,_⟩
    exact ⟨timeout,others⟩
  · rintro ⟨timeout,others⟩
    exact ⟨timeout,others,targets⟩

theorem written_inRange (checked : Checked desired) (range : InRange desired) (revised : revision ≤ i64Max) :
    (writtenConfig config revision desired).InRange := by
  have u64 : ∀ value, value ≤ i64Max → value ≤ u64Max := fun value small => le_trans small (by decide)
  obtain ⟨cpu,memory,disk⟩ := checked.capacity
  constructor
  · exact u64 _ revised
  · exact range.concurrency
  · exact range.timeout
  · exact ⟨range.port,range.ttl,u64 _ cpu,u64 _ memory,u64 _ disk,range.deployments,range.idle,range.startup,range.tls⟩
  · exact range.cpu
  · exact u64 _ checked.memory
  · intro target member
    obtain ⟨source,inside,rfl⟩ := List.mem_map.mp member
    exact range.targets source inside

theorem persisted_iff {saved : Option Value} {error : String} {written : Value} :
    (match saved with
      | some written => pure written
      | none => Except.error error : Except String Value) = .ok written ↔ saved = some written := by
  cases saved with
  | none => constructor <;> intro impossible <;> cases impossible
  | some value => exact ⟨fun same => congrArg some (Except.ok.inj same),fun same => congrArg Except.ok (Option.some.inj same)⟩

theorem persistDesired_iff (checked : Checked desired) (range : InRange desired) (revised : revision ≤ i64Max) {file : Option Value}
    (valid : loadPersisted file = some config) (path : String) (written : Value) :
    persistDesired url path file revision desired = .ok written ↔
      written = (writtenConfig config revision desired).toValue ∧
      (desired.node.capabilities.serve = true → validPublicUrl url desired.serve.publicBaseUrl = true) ∧
      desired.build.commandTimeoutSeconds ≤ i64Max ∧ desired.serve.metadataCacheTtlSeconds ≤ i64Max ∧
      desired.serve.ssr.idleStopSeconds ≤ i64Max ∧ desired.serve.ssr.startupTimeoutSeconds ≤ i64Max := by
  rw [← @written_inToml_iff desired config revision checked range revised]
  unfold persistDesired
  rw [valid]
  dsimp only
  rw [bind_eq_ok]
  constructor
  · rintro ⟨applied,done,saved⟩
    obtain ⟨rfl,readable⟩ := (apply_iff checked applied).mp done
    have kept : toToml (writtenConfig config revision desired).toValue = some written := persisted_iff.mp saved
    unfold toToml at kept
    split at kept
    · rename_i holds
      exact ⟨(Option.some.inj kept).symm,readable,holds⟩
    · cases kept
  · rintro ⟨rfl,readable,holds⟩
    refine ⟨_,(apply_iff checked _).mpr ⟨rfl,readable⟩,?_⟩
    have kept : toToml (writtenConfig config revision desired).toValue = some (writtenConfig config revision desired).toValue := by
      rw [toToml,if_pos holds]
    exact persisted_iff.mpr kept

theorem load_written (checked : Checked desired) (range : InRange desired) (revised : revision ≤ i64Max) :
    loadPersisted (some (writtenConfig config revision desired).toValue) = some (writtenConfig config revision desired) :=
  NodeConfig.readsBack _ (written_inRange checked range revised)

end Written

theorem reported_applied {node : Node} {desired : NodeConfiguration} {revision : Nat} (revised : revision ≤ i64Max)
    (wanted : node.desiredConfig = some desired) (current : node.desiredConfigRevision = revision) (now : Timestamp) (token : Bool) :
    ∃ state, registrationConfigState now node revision (some desired) token = .ok state ∧ state.status = .applied := by
  have revision' : tryFrom i64Max revision "config revision exceeds the supported range" = .ok (revision : Int) := if_pos revised
  unfold registrationConfigState
  dsimp only
  rw [revision',wanted,current]
  refine ⟨_,rfl,?_⟩
  dsimp only
  rw [if_pos ⟨rfl,rfl⟩]

theorem accepted_configuration_applies_iff (url : List Char → Option Url) (isEnvFilter : List Char → Bool) (desired : NodeConfiguration)
    (accepted : validateNodeConfiguration (parsers url isEnvFilter) desired = .ok PUnit.unit.{1}) (range : InRange desired)
    (path : String) (file : Option Value) (config : NodeConfig) (valid : loadPersisted file = some config)
    (node : Node) (revision : Nat) (revised : revision ≤ i64Max) (wanted : node.desiredConfig = some desired)
    (current : node.desiredConfigRevision = revision) (now : Timestamp) :
    Applies url path file revision desired node now ↔ Appliable url desired := by
  have checked := checked_of_accepted accepted
  have persists := @persistDesired_iff url desired config revision checked range revised file valid path
  constructor
  · rintro ⟨written,loaded,state,persisted,reads,same,_⟩
    obtain ⟨rfl,readable,timeout,ttl,idle,startup⟩ := (persists written).mp persisted
    rw [load_written checked range revised] at reads
    rw [← Option.some.inj reads,sync_writtenConfig] at same
    obtain ⟨host,targets⟩ := (reprinted_eq_iff checked).mp (toJson_injective same)
    exact ⟨host,targets,timeout,ttl,idle,startup,readable⟩
  · intro appliable
    have same := (reprinted_eq_iff checked).mpr ⟨appliable.host,appliable.targets⟩
    have persisted := (persists _).mpr ⟨rfl,appliable.publicUrl,appliable.timeout,appliable.ttl,appliable.idle,appliable.startup⟩
    obtain ⟨state,reported,applied⟩ := reported_applied revised wanted current now (writtenConfig config revision desired).nodeTokenConfigured
    refine ⟨_,_,state,persisted,load_written checked range revised,?_,?_,applied⟩
    · rw [sync_writtenConfig,same]
    · rw [sync_writtenConfig,same]
      exact reported

section Examples

def httpUrl (text : List Char) : Option Url :=
  if "http://".toList.isPrefixOf text ∧ 7 < text.length then some ⟨"http",true,""⟩ else none

def desiredWith (host : String) : NodeConfiguration where
  node := ⟨"edge","http://control.internal","/data/node","eu",⟨true,true⟩⟩
  build := ⟨1,600,false⟩
  serve := {
    host
    port := 8080
    publicBaseUrl := "http://edge.internal"
    metadataCacheTtlSeconds := 30
    artifactCacheRoot := "/data/node/artifacts"
    capacity := ⟨4000,8192,65536,50⟩
    ssr := ⟨1800,90⟩ }
  runtime := {
    backend := "podman-socket"
    socket := "unix:///run/podman.sock"
    defaultBuildImage := "node:22"
    defaultServeImage := "node:22"
    network := "bridge"
    resources := ⟨2,2048⟩ }
  security := ⟨.token,[]⟩
  development := ⟨false⟩
  log := ⟨"info",.pretty⟩

def desiring (desired : NodeConfiguration) : Node where
  id := 1
  region := "eu"
  status := .active
  buildEnabled := true
  serveEnabled := true
  baseUrl := none
  capacityCpuMillicores := 4000
  capacityMemoryMb := 8192
  capacityDiskMb := 65536
  maxDeployments := 50
  lastHeartbeatAt := none
  desiredConfig := some desired
  desiredConfigRevision := 1

theorem desiredWith_inRange (host : String) : InRange (desiredWith host) := by
  constructor
  all_goals first | exact Nat.le_of_ble_eq_true rfl | exact fun _ impossible => absurd impossible List.not_mem_nil

/-- An address that is accepted and printed in another way is never reported as it is desired. -/
theorem long_address_never_applied :
    let desired := desiredWith "0:0:0:0:0:0:0:1"
    validateNodeConfiguration (parsers httpUrl fun _ => true) desired = .ok PUnit.unit.{1} ∧ loadPersisted none = some {} ∧
      (reprinted desired).serve.host = "::1" ∧ ∀ now, ¬Applies httpUrl "node.toml" none 1 desired (desiring desired) now := by
  intro desired
  have accepted : validateNodeConfiguration (parsers httpUrl fun _ => true) desired = .ok PUnit.unit.{1} := by decide +kernel
  have checked := checked_of_accepted accepted
  have range : InRange desired := desiredWith_inRange _
  have shortened : (reprinted desired).serve.host = "::1" := by decide +kernel
  refine ⟨accepted,rfl,shortened,fun now => ?_⟩
  rintro ⟨written,loaded,state,persisted,reads,same,_⟩
  obtain ⟨rfl,_⟩ := (persistDesired_iff checked range (by decide) rfl "node.toml" written).mp persisted
  rw [load_written checked range (by decide)] at reads
  rw [← Option.some.inj reads,sync_writtenConfig] at same
  have host := congrArg (fun configuration => configuration.serve.host) (toJson_injective same)
  change (reprinted desired).serve.host = "0:0:0:0:0:0:0:1" at host
  rw [shortened] at host
  revert host
  decide

theorem short_address_applied : Applies httpUrl "node.toml" none 1 (desiredWith "::1") (desiring (desiredWith "::1")) 0 := by
  apply (accepted_configuration_applies_iff httpUrl (fun _ => true) (desiredWith "::1") (by decide +kernel) (desiredWith_inRange _) "node.toml"
    none {} rfl (desiring (desiredWith "::1")) 1 (by decide) rfl rfl 0).mpr
  have address : Canonical "::1" := ⟨.v6 ⟨[0,0,0,0,0,0,0,1],rfl,by decide⟩,by decide +kernel,by decide⟩
  exact ⟨address,fun _ impossible => absurd impossible List.not_mem_nil,by decide,by decide,by decide,by decide,fun _ => by decide⟩

end Examples

end GrassWorker.AppliedConfigurations
