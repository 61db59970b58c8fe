import GrassWorker.ControlPlane.Actions
import GrassWorker.Foundations.Interleaving

/-! The request handlers of the control plane as sequences of atomic steps: a
read, one transaction or one cache call each, with what is known in between. -/
namespace GrassWorker.ControlPlane
open Interleaving Deployments

structure Input where
  instant : Instant := { now := 0 }
  databaseFails : Bool := false
  cacheFails : Bool := false
  /-- What authorization, a quota, a policy or a region check decided against the request. -/
  refusal : Option AppError := none
  /-- The review a custom host needs under the domain review policy. -/
  domainReview : HostReviewStatus := .approved
  /-- The provider's answer for a host under a source. -/
  provisioned : HostBindingStatus := .active
  providerMessage : Option String := none
deriving DecidableEq

inductive NodeCall
  | stage (deployment : Uuid) (body : Stage.StageRequest)
  | claim (capacity : Nat)
  | reportServe (deployment : Uuid) (sent : ServeReports.Report)
deriving DecidableEq

inductive ProjectCall
  | cancel (deployment actor : Uuid)
  | activate (deployment : Uuid) (reason : ReleaseReason) (actor : Uuid)
  | unpublish (deployment actor : Uuid)
  | create (environment : Environment) (selectedNode : Option Uuid) (region : Option String) (actor : Uuid)
  | retry (deployment actor : Uuid)
  | delete (actor : Uuid)
  | restore (actor : Uuid)
  | bindHost (host : String) (environment : HostBindingEnvironment) (source : Option Uuid) (region : Option String)
  | deleteHost (binding : Uuid)
deriving DecidableEq

def ProjectCall.scope : ProjectCall → Projects.ProjectScope
  | .delete _ | .restore _ => .includingDeleted
  | _ => .active

def Action.direct : Action → Bool
  | .decide .. | .republish .. | .withdraw .. | .removeTeam .. | .setReviewPolicy .. | .setGroupReviewPolicy ..
  | .updateBindingStatus .. | .runCheck .. | .decideDomain .. => true
  | _ => false

inductive Request
  | node (node : Uuid) (call : NodeCall)
  | project (project : Uuid) (call : ProjectCall)
  | rollback (project deployment actor : Uuid)
  | cancelStream (deployment actor : Uuid)
  | createProject (team : Uuid) (slug : String) (runtime : ProjectRuntime) (actor : Uuid)
  | createSource (params : Hosts.CreateHostSourceParams)
  | direct (action : { action : Action // action.direct })
deriving DecidableEq

inductive Response
  | acknowledged
  | stage (cancelRequested : Bool)
  | claim (deployment : Option Deployment)
  | created (deployment : Deployment)
  | project (project : Project)
  | bound (binding : HostBinding)
deriving DecidableEq

abbrev Answer := Except AppError Response

inductive Handler
  | arrived (call : Request)
  /-- With the candidates a claim has left. -/
  | commit (action : Action) (others : List Deployment)
  | stageRead (node deployment : Uuid) (body : Stage.StageRequest)
  | stageFlag (owned : Stage.OwnedDeployment) (body : Stage.StageRequest)
  | stageAcknowledge (deployment : Uuid)
  | stageSlot (owned : Stage.OwnedDeployment) (body : Stage.StageRequest)
  | stageRefresh (owned : Stage.OwnedDeployment) (body : Stage.StageRequest) (value : Int)
  | cancelRead (project : Option Uuid) (deployment actor : Uuid)
  | cancelFlag (deployment : Deployment)
  | releaseMark (team deployment : Uuid) (answer : Answer)
  | releaseSlot (team : Uuid) (answer : Answer)
  | claimRead (node : Node) (capacity : Nat)
  | claimNext (node : Uuid) (candidates : List Deployment)
  | claimLimit (node : Uuid) (candidate : Deployment) (others : List Deployment)
  | claimAcquire (node : Uuid) (candidate : Deployment) (others : List Deployment) (max : Int)
  | claimTimeout (node : Uuid) (candidate : Deployment) (others : List Deployment)
  | claimRelease (node team : Uuid) (others : List Deployment)
  | activateRead (project deployment : Uuid) (reason : ReleaseReason) (actor : Uuid)
  | activatePolicy (deployment : Deployment) (reason : ReleaseReason) (actor : Uuid)
  | retryRead (project : Project) (deployment actor : Uuid)
  | createHost (project : Project) (environment : Environment) (selectedNode : Option Uuid)
      (region : Option String) (actor : Uuid)
  | bindSource (project : Project) (team : Team) (host : String) (environment : HostBindingEnvironment)
      (source : Option Uuid) (region : Option String)
  | bindExisting (project : Project) (team : Team) (host region : String) (environment : HostBindingEnvironment)
      (source : Option HostSource)
  | bindFree (request : Hosts.BindHostRequest)
  | assignSource (project : Project)
  | assignFree (project : Project) (team : Team) (source : HostSource) (attempt : Nat)
  /-- With the attempt, where the host is being assigned to a new project. -/
  | bindCommit (request : Hosts.BindHostRequest) (attempt : Option Nat)
deriving DecidableEq

def Handler.action : Handler → Option Action
  | .commit action _ => some action
  | .bindCommit request _ => some (.createBinding request)
  | _ => none

inductive Progress
  | resume (handler : Handler)
  | respond (answer : Answer)
deriving DecidableEq

def Progress.handler : Progress → Option Handler
  | .resume handler => some handler
  | .respond _ => none

def failed (error : AppError) : Progress := .respond (.error error)

def proceed (action : Action) : Progress := .resume (.commit action [])

def ofAnswer {α : Type} (answer : Except AppError α) (next : α → Progress) : Progress :=
  match answer with
  | .ok value => next value
  | .error error => failed error

/-- A read of the database, of which a failure is reported as an infrastructure error. -/
def read (input : Input) (next : Progress) : Progress :=
  if input.databaseFails then failed .infrastructure else next

def permitted (input : Input) (next : Progress) : Progress :=
  match input.refusal with
  | some error => failed error
  | none => next

/-- Runs a transaction; nothing is committed when the database fails or the transaction is refused. -/
def transact (input : Input) (action : Action) (db : Database) : Except AppError (Reply × Database) :=
  if input.databaseFails then .error .infrastructure else action.run input.instant db

/-- `node_auth_middleware`, with the token taken as the node it belongs to. -/
def authenticate (db : Database) (nodeId : Uuid) : Except AppError Node :=
  match (db.nodes.find nodeId).filter fun node => node.deletedAt.isNone with
  | none => .error (.unauthorized "invalid node token")
  | some node => if node.status = .disabled then .error (.forbidden "node is disabled") else .ok node

def callNode (node : Node) : NodeCall → Progress
  | .stage deployment body => .resume (.stageRead node.id deployment body)
  | .claim capacity => .resume (.claimRead node capacity)
  | .reportServe deployment sent => proceed (.reportServe node.id node.serveEnabled deployment sent)

def callProject (project : Project) (team : Team) : ProjectCall → Progress
  | .cancel deployment actor => .resume (.cancelRead (some project.id) deployment actor)
  | .activate deployment reason actor => .resume (.activateRead project.id deployment reason actor)
  | .unpublish deployment actor => proceed (.unpublish project.id team.id deployment actor)
  | .create environment selectedNode region actor =>
    ofAnswer (Projects.ensureDeployable project) fun _ =>
      .resume (.createHost project environment selectedNode region actor)
  | .retry deployment actor => .resume (.retryRead project deployment actor)
  | .delete actor => proceed (.deleteProject project.id actor)
  | .restore actor => proceed (.restoreProject project.id actor)
  | .bindHost host environment source region =>
    match Validator.normalizeHost host with
    | .error error => failed (.validation error.message)
    | .ok host => .resume (.bindSource project team host environment source region)
  | .deleteHost binding => proceed (.deleteHost project.id binding)

def creatableRuntime (runtime : ProjectRuntime) : Bool := runtime = .static ∨ runtime = .ssr

def begin (db : Database) : Request → Progress
  | .node node call => ofAnswer (authenticate db node) fun node => callNode node call
  | .project project call =>
    ofAnswer (Projects.access db project call.scope) fun (project,team) => callProject project team call
  | .rollback project deployment actor =>
    if wasActive db deployment then .resume (.arrived (.project project (.activate deployment .rollback actor)))
    else failed (.conflict "only previously active deployments can be rollback targets")
  | .cancelStream deployment actor => .resume (.cancelRead none deployment actor)
  | .createProject team slug runtime actor =>
    match Projects.teamById db team, Validator.normalizeSlug slug with
    | none,_ => failed (.notFound "team not found")
    | some _,.error error => failed (.validation error.message)
    | some team,.ok slug =>
      if creatableRuntime runtime then proceed (.createProject ⟨team.id,slug,runtime⟩ actor)
      else failed (.validation "runtime is not supported; first-stage projects are static or ssr")
  | .createSource params =>
    match Validator.normalizeHost params.baseDomain with
    | .error error => failed (.validation ("base_domain: " ++ error.message))
    | .ok baseDomain => proceed (.createSource { params with baseDomain })
  | .direct action => proceed action

/-! After a transaction. -/

/-- The status of a new binding: a provider answers for a source, any other waits for its checks. -/
def bindingOutcome (input : Input) (request : Hosts.BindHostRequest) (binding : HostBinding) : Action :=
  match request.source with
  | some _ => .updateBindingStatus binding.id input.provisioned
      (if input.provisioned = .failed ∨ input.provisioned = .pending then input.providerMessage else none)
  | none => .updateBindingStatus binding.id
      (Hosts.customBindingStatus binding.reviewStatus binding.ownershipStatus) none

def afterCommit (others : List Deployment) : Action → Reply → Progress
  | .report owned _ _,.buildEnded true =>
    .resume (.releaseMark owned.row.teamId owned.row.id (.ok (.stage false)))
  | .report _ _ _,_ | .progress _ _,_ => .respond (.ok (.stage false))
  | .cancel deployment _,_ =>
    if Stage.cancellationReleasesBuildSlot deployment.buildStatus then .resume (.cancelFlag deployment)
    else .respond (.ok .acknowledged)
  | .claim _ candidate,.claim .claimed => .respond (.ok (.claim (some candidate)))
  | .claim _ candidate,.claim .nodeGone => .resume (.releaseSlot candidate.teamId (.ok (.claim none)))
  | .claim node candidate,_ => .resume (.claimRelease node candidate.teamId others)
  | .create _ _ _,.created deployment =>
    if (runtimeFailure deployment.runtimeKind).isSome then proceed (.failUnimplemented deployment)
    else .respond (.ok (.created deployment))
  | .createProject _ _,.project project => .resume (.assignSource project)
  | _,_ => .respond (.ok .acknowledged)

def afterFailure (error : AppError) : Action → Progress
  | .claim _ candidate => .resume (.releaseSlot candidate.teamId (.error error))
  | _ => failed error

/-- A host that is taken is tried again with another suffix; any other failure ends the assignment. -/
def retryAssignment (request : Hosts.BindHostRequest) (attempt : Nat) (error : AppError) : Progress :=
  match error,request.source with
  | .conflict _,some source =>
    if attempt < 2 then .resume (.assignFree request.project request.team source (attempt + 1))
    else .respond (.ok (.project request.project))
  | _,_ => .respond (.ok (.project request.project))

def refused (request : Hosts.BindHostRequest) (attempt : Option Nat) (error : AppError) : Progress :=
  match attempt with
  | none => failed error
  | some attempt => retryAssignment request attempt error

def afterBind (input : Input) (request : Hosts.BindHostRequest) (attempt : Option Nat) :
    Except AppError (Reply × Database) → Progress
  | .ok (.bound binding,_) => proceed (bindingOutcome input request binding)
  | .ok (_,_) => .respond (.ok .acknowledged)
  | .error error => refused request attempt error

def committed (db : Database) : Except AppError (Reply × Database) → Database
  | .ok (_,after) => after
  | .error _ => db

def commitProgress (action : Action) (others : List Deployment) : Except AppError (Reply × Database) → Progress
  | .ok (reply,_) => afterCommit others action reply
  | .error error => afterFailure error action

/-! The steps that read. -/

def stageRead (db : Database) (node deploymentId : Uuid) (body : Stage.StageRequest) : Progress :=
  ofAnswer (Stage.buildOwnedDeployment db node deploymentId) fun owned =>
    .resume (.stageFlag owned body)

def stageAction (owned : Stage.OwnedDeployment) (body : Stage.StageRequest) : Action :=
  match body.status with
  | none => .progress owned.row body.stage
  | some status => .report owned status body

def stageFlag (input : Input) (cache : Cache) (owned : Stage.OwnedDeployment) (body : Stage.StageRequest) : Progress :=
  let cancelFlagged := !input.cacheFails && (cache (.cancelFlag owned.row.id)).isSome
  if Stage.cancellationWasRequested owned.row.buildStatus cancelFlagged then
    if body.status = some .canceled then .resume (.stageAcknowledge owned.row.id)
    else .respond (.ok (.stage true))
  else .resume (.stageSlot owned body)

/-- `refresh_build_slot` reads the counter first and writes it back afterwards. -/
def stageSlot (input : Input) (cache : Cache) (owned : Stage.OwnedDeployment) (body : Stage.StageRequest) : Progress :=
  match if input.cacheFails then none else cache (.slot owned.row.teamId) with
  | some value => .resume (.stageRefresh owned body value)
  | none => proceed (stageAction owned body)

def cancelRead (db : Database) (project : Option Uuid) (deploymentId actor : Uuid) : Progress :=
  match (getById db deploymentId).filter fun deployment => project.all (deployment.projectId = ·) with
  | none => failed (.notFound "deployment not found")
  | some deployment => proceed (.cancel deployment actor)

def claimRead (db : Database) (node : Node) (capacity : Nat) : Progress :=
  if ¬node.buildEnabled then failed (.forbidden "node does not have build capability")
  else if capacity = 0 ∨ ¬Claim.canClaimNewBuild node.status then .respond (.ok (.claim none))
  else .resume (.claimNext node.id (Claim.candidates db))

def claimNext (db : Database) (node : Uuid) : List Deployment → Progress
  | [] => .respond (.ok (.claim none))
  | candidate :: others =>
    ofAnswer (Claim.teamFor db candidate.teamId) fun _ => .resume (.claimLimit node candidate others)

def activateRead (db : Database) (project deploymentId : Uuid) (reason : ReleaseReason) (actor : Uuid) : Progress :=
  ofAnswer (Projects.loadDeployment db project deploymentId) fun deployment =>
    .resume (.activatePolicy deployment reason actor)

def activatePolicy (db : Database) (deployment : Deployment) (reason : ReleaseReason) (actor : Uuid) : Progress :=
  ofAnswer (Activation.chooseAction db deployment) fun action =>
    proceed (.activate action deployment reason actor)

def retryRead (db : Database) (project : Project) (deploymentId actor : Uuid) : Progress :=
  ofAnswer (Projects.loadDeployment db project.id deploymentId) fun deployment =>
    if deployment.buildStatus = .failed ∨ deployment.buildStatus = .canceled then
      ofAnswer (Projects.ensureDeployable project) fun _ =>
        .resume (.createHost project deployment.environment none (some deployment.region) actor)
    else failed (.conflict "only failed or canceled deployments can be retried")

/-- The preview host comes from the sources of the moment, or is left out when they cannot be read. -/
def createHost (input : Input) (db : Database) (project : Project) (environment : Environment)
    (selectedNode : Option Uuid) (region : Option String) (actor : Uuid) : Progress :=
  let previewHost := if input.databaseFails then none else Hosts.previewHostForProject db project input.instant.uuid
  proceed (.create ⟨project,environment,some actor,previewHost⟩ selectedNode region)

def bindSource (db : Database) (project : Project) (team : Team) (host : String)
    (environment : HostBindingEnvironment) (source : Option Uuid) (region : Option String) : Progress :=
  match source with
  | none => .resume (.bindExisting project team host (region.getD "default") environment none)
  | some sourceId =>
    match Hosts.getSourceById db sourceId with
    | none => failed (.notFound "host source not found")
    | some source =>
      if region.getD source.region ≠ source.region then
        failed (.validation ("region must match the host source region (" ++ source.region ++ ")"))
      else if ¬("." ++ source.baseDomain).toList <:+ host.toList then
        failed (.validation ("host must be a subdomain of " ++ source.baseDomain ++ " for this host source"))
      else .resume (.bindExisting project team host source.region environment (some source))

def bindExisting (input : Input) (db : Database) (project : Project) (team : Team) (host region : String)
    (environment : HostBindingEnvironment) (source : Option HostSource) : Progress :=
  .resume (.bindFree
    { project, team, source, host, region
      kind := if source.isSome then .platform else .custom
      environment
      isPrimary := Hosts.listBindingsForProject db project.id = []
      reviewStatus := if source.isSome then .notRequired else input.domainReview })

def bindFree (db : Database) (request : Hosts.BindHostRequest) (attempt : Option Nat) : Progress :=
  if (Hosts.findBindingByHost db request.host).isSome then refused request attempt (Hosts.BindHostRequest.conflict request.host)
  else .resume (.bindCommit request attempt)

def assignSource (db : Database) (project : Project) : Progress :=
  match Projects.teamById db project.teamId,Hosts.selectAutoAssignSource (Hosts.listSources db) with
  | some team,.source source => .resume (.assignFree project team source 0)
  | _,_ => .respond (.ok (.project project))

def assignmentRequest (input : Input) (project : Project) (team : Team) (source : HostSource) (attempt : Nat) :
    Hosts.BindHostRequest where
  project := project
  team := team
  source := some source
  host := Hosts.platformHostCandidate project.slug source.baseDomain attempt input.instant.choice
  region := source.region
  kind := .platform
  environment := .production
  isPrimary := true
  reviewStatus := .notRequired

def assignFree (input : Input) (db : Database) (project : Project) (team : Team) (source : HostSource)
    (attempt : Nat) : Progress :=
  let request := assignmentRequest input project team source attempt
  if input.databaseFails ∨ input.refusal.isSome then .respond (.ok (.project project))
  else bindFree db request (some attempt)

def advance (input : Input) (world : World) : Handler → World × Progress
  | .arrived call => (world,read input (permitted input (begin world.db call)))
  | .commit action others =>
    let result := transact input action world.db
    ({ world with db := committed world.db result },commitProgress action others result)
  | .stageRead node deployment body => (world,read input (stageRead world.db node deployment body))
  | .stageFlag owned body => (world,stageFlag input world.cache owned body)
  | .stageAcknowledge deployment =>
    (if input.cacheFails then world else { world with cache := world.cache.set (.cancelFlag deployment) none },
      .respond (.ok (.stage true)))
  | .stageSlot owned body => (world,stageSlot input world.cache owned body)
  | .stageRefresh owned body value =>
    (if input.cacheFails then world else { world with cache := world.cache.updateIfPresent (.slot owned.row.teamId) value },
      proceed (stageAction owned body))
  | .cancelRead project deployment actor => (world,read input (cancelRead world.db project deployment actor))
  | .cancelFlag deployment =>
    (if input.cacheFails then world else { world with cache := world.cache.set (.cancelFlag deployment.id) (some 1) },
      .resume (.releaseMark deployment.teamId deployment.id (.ok .acknowledged)))
  | .releaseMark team deployment answer =>
    if input.cacheFails ∨ ¬world.cache.ownsRelease deployment then (world,.respond answer)
    else ({ world with cache := world.cache.markReleased deployment },.resume (.releaseSlot team answer))
  | .releaseSlot team answer =>
    (if input.cacheFails then world else { world with cache := world.cache.releaseSlot team },.respond answer)
  | .claimRead node capacity => (world,read input (claimRead world.db node capacity))
  | .claimNext node candidates => (world,read input (claimNext world.db node candidates))
  | .claimLimit node candidate others =>
    (world,read input (.resume (.claimAcquire node candidate others (Claim.slotLimit world.db candidate.teamId))))
  | .claimAcquire node candidate others max =>
    if input.cacheFails then (world,failed .infrastructure)
    else if world.cache.mayAcquire candidate.teamId max then
      ({ world with cache := world.cache.acquireSlot candidate.teamId },.resume (.claimTimeout node candidate others))
    else (world,.resume (.claimNext node others))
  | .claimTimeout node candidate others =>
    (world,.resume (if input.databaseFails then .releaseSlot candidate.teamId (.error .infrastructure)
      else .commit (.claim node candidate) others))
  | .claimRelease node team others =>
    (if input.cacheFails then world else { world with cache := world.cache.releaseSlot team },.resume (.claimNext node others))
  | .activateRead project deployment reason actor =>
    (world,read input (activateRead world.db project deployment reason actor))
  | .activatePolicy deployment reason actor => (world,read input (activatePolicy world.db deployment reason actor))
  | .retryRead project deployment actor => (world,read input (retryRead world.db project deployment actor))
  | .createHost project environment selectedNode region actor =>
    (world,permitted input (createHost input world.db project environment selectedNode region actor))
  | .bindSource project team host environment source region =>
    (world,read input (permitted input (bindSource world.db project team host environment source region)))
  | .bindExisting project team host region environment source =>
    (world,read input (permitted input (bindExisting input world.db project team host region environment source)))
  | .bindFree request => (world,read input (permitted input (bindFree world.db request none)))
  | .assignSource project =>
    (world,if input.databaseFails ∨ input.refusal.isSome then .respond (.ok (.project project))
      else assignSource world.db project)
  | .assignFree project team source attempt => (world,assignFree input world.db project team source attempt)
  | .bindCommit request attempt =>
    let result := transact input (.createBinding request) world.db
    ({ world with db := committed world.db result },afterBind input request attempt result)

/-- The control plane: any number of requests, each step of each at any time. -/
def machine : Machine World Handler Request Input where
  enter := .arrived
  advance input world handler := ((ControlPlane.advance input world handler).1,(ControlPlane.advance input world handler).2.handler)

end GrassWorker.ControlPlane
