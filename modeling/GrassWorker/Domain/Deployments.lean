import GrassWorker.Entity
import GrassWorker.Foundations.Transaction
import Mathlib.Data.List.Sort

/-! The deployment state machine: build, serve and release transitions, each
validated against the row it is given and written to the row the database holds. -/
namespace GrassWorker.Deployments
open Transaction

def canTransitionBuild : BuildStatus → BuildStatus → Bool
  | .pending, .claimed | .pending, .canceled | .pending, .failed => true
  | .claimed, .queued | .claimed, .building | .claimed, .failed | .claimed, .canceled => true
  | .queued, .building | .queued, .failed | .queued, .canceled => true
  | .building, .ready | .building, .failed | .building, .canceled => true
  | _, _ => false

def canTransitionRelease : ReleaseStatus → ReleaseStatus → Bool
  | .draft, .pendingReview | .draft, .active => true
  | .pendingReview, .approved | .pendingReview, .rejected => true
  | .rejected, .pendingReview => true
  | .approved, .active => true
  | .active, .approved | .active, .draft => true
  | _, _ => false

def canTransitionServe : ServeStatus → ServeStatus → Bool
  | .pending, .syncing | .failed, .syncing | .ready, .syncing => true
  | .syncing, .ready | .syncing, .failed => true
  | .pending, .retired | .syncing, .retired | .failed, .retired | .ready, .retired => true
  | .retired, .pending => true
  | _, _ => false

inductive StateError
  | invalidBuildTransition (source target : String)
  | invalidReleaseTransition (source target : String)
  | invalidServeTransition (source target : String)
  | buildNotReady
  | serveNotReady
  | database (error : DbErr)
deriving DecidableEq, Repr

/-- The error's `Display` text. -/
def StateError.message : StateError → String
  | .invalidBuildTransition source target =>
    "invalid build status transition from " ++ source ++ " to " ++ target
  | .invalidReleaseTransition source target =>
    "invalid release status transition from " ++ source ++ " to " ++ target
  | .invalidServeTransition source target =>
    "invalid serve status transition from " ++ source ++ " to " ++ target
  | .buildNotReady => "only ready deployments can enter the release flow"
  | .serveNotReady => "only deployments with a ready Serve artifact can enter the release flow"
  | .database _ => "database error"

def buildStatusValue : BuildStatus → String
  | .pending => "pending"
  | .claimed => "claimed"
  | .queued => "queued"
  | .building => "building"
  | .ready => "ready"
  | .failed => "failed"
  | .canceled => "canceled"

def releaseStatusValue : ReleaseStatus → String
  | .draft => "draft"
  | .pendingReview => "pending_review"
  | .approved => "approved"
  | .rejected => "rejected"
  | .active => "active"

def environmentValue : Environment → String
  | .production => "production"
  | .preview => "preview"

def serveStatusValue : ServeStatus → String
  | .pending => "pending"
  | .syncing => "syncing"
  | .ready => "ready"
  | .failed => "failed"
  | .retired => "retired"

def releaseReasonValue : ReleaseReason → String
  | .auto => "auto"
  | .promote => "promote"
  | .rollback => "rollback"

def validateReleaseReadiness (source target : ReleaseStatus) (buildStatus : BuildStatus)
    (serveStatus : ServeStatus) : Except StateError Unit :=
  if source = .active ∧ (target = .approved ∨ target = .draft) then .ok ()
  else if buildStatus ≠ .ready then .error .buildNotReady
  else if source = .draft ∧ target = .pendingReview then .ok ()
  else if serveStatus = .retired ∧ source = .pendingReview ∧ (target = .approved ∨ target = .rejected) then .ok ()
  else if serveStatus ≠ .ready then .error .serveNotReady
  else .ok ()

structure ServeResources where
  cpuMillicores : Nat
  memoryMb : Nat
  diskMb : Nat
deriving DecidableEq, Repr

def runtimeServeResources : ProjectRuntime → ServeResources
  | .ssr => ⟨200,256,512⟩
  | _ => ⟨50,64,256⟩

/-! Queries. -/

def getById (db : Database) (deploymentId : Uuid) : Option Deployment :=
  (db.deployments.find deploymentId).filter fun row => row.deletedAt.isNone

/-- The same row as `getById`; the lock it takes is held to the end of the transaction. -/
def getByIdForUpdate (db : Database) (deploymentId : Uuid) : Option Deployment := getById db deploymentId

theorem getByIdForUpdate_eq_some {db : Database} {id : Uuid} {row : Deployment} :
    getByIdForUpdate db id = some row ↔ db.deployments.find id = some row ∧ row.deletedAt = none := by
  simp [getByIdForUpdate,getById,Option.filter_eq_some_iff]

def findActive (db : Database) (projectId : Uuid) (environment : Environment) : Option Deployment :=
  db.deployments.rows.find? fun row => row.projectId = projectId ∧ row.environment = environment ∧
    row.releaseStatus = .active ∧ row.deletedAt.isNone

def findByPreviewHost (db : Database) (host : String) : Option Deployment :=
  db.deployments.rows.find? fun row => row.previewHost = some host ∧ row.deletedAt.isNone

def wasServeReady (db : Database) (deploymentId : Uuid) : Bool :=
  db.events.any fun event => event.deploymentId = deploymentId ∧ event.kind = .serve ∧
    event.metadata.lookup "status" = some (.string "ready")

def wasActive (db : Database) (deploymentId : Uuid) : Bool :=
  db.releases.any fun entry => entry.deploymentId = deploymentId

/-- The first pending review in descending order of `requested_at`. -/
def latestPendingReview (db : Database) (deploymentId : Uuid) : Option DeploymentReview :=
  ((db.reviews.rows.filter fun review => review.deploymentId = deploymentId ∧ review.status = .pending).insertionSort
    fun first second => second.requestedAt ≤ first.requestedAt).head?

/-! Writes. -/

section Writes
variable {ε : Type}

def appendEvent (deploymentId : Uuid) (kind : EventKind) (message : String)
    (metadata : List (String × Scalar)) : Transaction Database ε Unit :=
  modify fun db => { db with events := db.events ++ [⟨deploymentId,kind,message,metadata⟩] }

/-- `UPDATE deployments SET .. WHERE id = .. RETURNING *`: the change is made to the
current row, whatever snapshot the caller holds. -/
def updateDeployment (id : Uuid) (change : Deployment → Deployment)
    (keeps : ∀ row, (change row).id = row.id) : Transaction Database DbErr Deployment :=
  write (fun db => do
    let row ← db.deployments.find id
    let deployments ← db.deployments.update id change keeps
    return (change row,{ db with deployments })) ⟨⟩

structure BuildTransition where
  target : BuildStatus
  stage : Option String := none
  failureCode : Option String := none
  failureMessage : Option String := none
  buildNodeId : Option Uuid := none
deriving DecidableEq

structure ServeTransition where
  target : ServeStatus
  failureCode : Option String := none
  failureMessage : Option String := none
deriving DecidableEq

/-- The columns `transition_serve` sets. -/
def setServe (now : Timestamp) (transition : ServeTransition) (row : Deployment) : Deployment :=
  let row := { row with serveStatus := transition.target }
  match transition.target with
  | .syncing => { row with
      serveStartedAt := some now, serveFinishedAt := none
      serveFailureCode := none, serveFailureMessage := none }
  | .ready => { row with
      serveFinishedAt := some now, serveFailureCode := none, serveFailureMessage := none }
  | .failed => { row with
      serveFinishedAt := some now, serveFailureCode := transition.failureCode
      serveFailureMessage := transition.failureMessage }
  | .pending | .retired => row

/-- The columns `transition_build` sets. -/
def setBuild (now : Timestamp) (transition : BuildTransition) (row : Deployment) : Deployment :=
  let row := { row with
    buildStatus := transition.target, buildStage := transition.stage.or row.buildStage }
  match transition.target with
  | .claimed => { row with
      claimedAt := some now, buildNodeId := transition.buildNodeId.or row.buildNodeId }
  | .building => { row with buildStartedAt := some now }
  | .ready | .failed | .canceled => { row with
      buildFinishedAt := some now, failureCode := transition.failureCode
      failureMessage := transition.failureMessage }
  | .pending | .queued => row

def setRelease (target : ReleaseStatus) (row : Deployment) : Deployment :=
  { row with releaseStatus := target }

def setStage (stage : String) (row : Deployment) : Deployment := { row with buildStage := some stage }

section Columns
variable (now : Timestamp) (row : Deployment)

@[simp] theorem setServe_identity (transition : ServeTransition) :
    (setServe now transition row).identity = row.identity := by
  obtain ⟨target,code,message⟩ := transition
  cases target <;> rfl

@[simp] theorem setServe_lifecycle (transition : ServeTransition) :
    (setServe now transition row).lifecycle = { row.lifecycle with serve := transition.target } := by
  obtain ⟨target,code,message⟩ := transition
  cases target <;> rfl

@[simp] theorem setBuild_identity (transition : BuildTransition) :
    (setBuild now transition row).identity = row.identity := by
  obtain ⟨target,stage,code,message,node⟩ := transition
  cases target <;> rfl

theorem setBuild_lifecycle {transition : BuildTransition} (reported : transition.target ≠ .claimed) :
    (setBuild now transition row).lifecycle = { row.lifecycle with build := transition.target } := by
  obtain ⟨target,stage,code,message,node⟩ := transition
  cases target with
  | claimed => exact absurd rfl reported
  | _ => rfl

@[simp] theorem setRelease_lifecycle (target : ReleaseStatus) :
    (setRelease target row).lifecycle = { row.lifecycle with release := target } := rfl

theorem setServe_entries (transition : ServeTransition) : (setServe now transition row).entries = row.entries := by
  obtain ⟨target,code,message⟩ := transition
  cases target <;> rfl

theorem setBuild_entries (transition : BuildTransition) : (setBuild now transition row).entries = row.entries := by
  obtain ⟨target,stage,code,message,node⟩ := transition
  cases target <;> rfl

theorem setServe_id (transition : ServeTransition) : (setServe now transition row).id = row.id :=
  congrArg Identity.id (setServe_identity now row transition)

theorem setBuild_id (transition : BuildTransition) : (setBuild now transition row).id = row.id :=
  congrArg Identity.id (setBuild_identity now row transition)

end Columns

def transitionServe (now : Timestamp) (deployment : Deployment) (transition : ServeTransition) :
    Transaction Database StateError Deployment := do
  require (canTransitionServe deployment.serveStatus transition.target)
    (.invalidServeTransition (serveStatusValue deployment.serveStatus) (serveStatusValue transition.target))
  let updated ← mapError .database (updateDeployment deployment.id (setServe now transition) fun row => setServe_id now row transition)
  appendEvent deployment.id .serve ("serve status changed to " ++ serveStatusValue transition.target)
    [("status",.string (serveStatusValue transition.target)),
      ("failure_code",.ofString transition.failureCode),
      ("failure_message",.ofString transition.failureMessage)]
  return updated

def transitionBuild (now : Timestamp) (deployment : Deployment) (transition : BuildTransition) :
    Transaction Database StateError Deployment := do
  require (canTransitionBuild deployment.buildStatus transition.target)
    (.invalidBuildTransition (buildStatusValue deployment.buildStatus) (buildStatusValue transition.target))
  let updated ← mapError .database (updateDeployment deployment.id (setBuild now transition) fun row => setBuild_id now row transition)
  appendEvent deployment.id .build ("build status changed to " ++ buildStatusValue transition.target)
    [("status",.string (buildStatusValue transition.target)),
      ("stage",.ofString transition.stage),
      ("failure_code",.ofString transition.failureCode),
      ("failure_message",.ofString transition.failureMessage)]
  return updated

def updateStage (deployment : Deployment) (stage : String) : Transaction Database DbErr Deployment := do
  let updated ← updateDeployment deployment.id (setStage stage) fun _ => rfl
  appendEvent deployment.id .build ("stage changed to " ++ stage) [("stage",.string stage)]
  return updated

def transitionRelease (deployment : Deployment) (target : ReleaseStatus)
    (metadata : List (String × Scalar)) : Transaction Database StateError Deployment := do
  require (canTransitionRelease deployment.releaseStatus target)
    (.invalidReleaseTransition (releaseStatusValue deployment.releaseStatus) (releaseStatusValue target))
  ofExcept (validateReleaseReadiness deployment.releaseStatus target deployment.buildStatus deployment.serveStatus)
  let updated ← mapError .database (updateDeployment deployment.id (setRelease target) fun _ => rfl)
  appendEvent deployment.id .release ("release status changed to " ++ releaseStatusValue target) metadata
  return updated

/-- The active deployment of the target's environment other than the target. -/
def previousActive (db : Database) (target : Deployment) : Option Deployment :=
  db.deployments.rows.find? fun row => row.projectId = target.projectId ∧
    row.environment = target.environment ∧ row.releaseStatus = .active ∧ row.id ≠ target.id ∧
    row.deletedAt.isNone

def demote (target : Deployment) : Option Deployment → Transaction Database StateError (Option Uuid)
  | some previous => do
    let demoted ← transitionRelease previous .approved [("demoted_by",.uuid target.id)]
    return some demoted.id
  | none => return none

/-- Demotes the current active deployment, promotes the target and records the release. -/
def activate (now : Timestamp) (target : Deployment) (reason : ReleaseReason)
    (actorUserId : Option Uuid) : Transaction Database StateError Deployment := do
  ofExcept (validateReleaseReadiness target.releaseStatus .active target.buildStatus target.serveStatus)
  let previous ← query (previousActive · target)
  let previousId ← demote target previous
  let activated ← transitionRelease target .active
    [("reason",.string (releaseReasonValue reason)),("previous_deployment_id",.ofUuid previousId)]
  modify fun db => { db with releases := db.releases ++
    [⟨target.projectId,activated.id,target.environment,reason,actorUserId,previousId,now⟩] }
  return activated

def createReview (instant : Instant) (deploymentId : Uuid) : Transaction Database DbErr DeploymentReview :=
  write (fun db => do
    let review : DeploymentReview := ⟨instant.uuid,deploymentId,none,.pending,none,instant.now,none⟩
    let reviews ← db.reviews.insert review
    return (review,{ db with reviews })) ⟨⟩

def requestReview (instant : Instant) (deployment : Deployment) (requestedBy : Option Uuid) :
    Transaction Database StateError (Deployment × DeploymentReview) := do
  let deployment ← transitionRelease deployment .pendingReview [("requested_by",.ofUuid requestedBy)]
  let review ← mapError .database (createReview instant deployment.id)
  appendEvent deployment.id .review "review requested" [("review_id",.uuid review.id)]
  return (deployment,review)

def setReview (now : Timestamp) (reviewerUserId : Uuid) (approved : Bool) (reason : Option String)
    (review : DeploymentReview) : DeploymentReview :=
  { review with
    reviewerUserId := some reviewerUserId
    status := if approved then .approved else .rejected
    reason := reason
    reviewedAt := some now }

def resolveReview (now : Timestamp) (review : DeploymentReview) (reviewerUserId : Uuid) (approved : Bool)
    (reason : Option String) : Transaction Database DbErr DeploymentReview :=
  write (fun db => do
    let row ← db.reviews.find review.id
    let reviews ← db.reviews.update review.id (setReview now reviewerUserId approved reason) fun _ => rfl
    return (setReview now reviewerUserId approved reason row,{ db with reviews })) ⟨⟩

end Writes

/-! Review policy. -/

inductive ReviewMode
  | manual | auto
deriving DecidableEq, Repr

inductive ReadyReleaseAction
  | activate | requestReview | none
deriving DecidableEq, Repr

def readyReleaseAction (mode : ReviewMode) (status : ReleaseStatus) : ReadyReleaseAction :=
  if status ≠ .draft then .none
  else match mode with
    | .manual => .requestReview
    | .auto => .none

def serveReadyReleaseAction : ReviewMode → ReleaseStatus → ReadyReleaseAction
  | .auto, .draft => .activate
  | _, _ => .none

structure ReviewPolicy where
  production : ReviewMode := .manual
  preview : ReviewMode := .auto
deriving DecidableEq, Repr

def ReviewPolicy.modeFor (policy : ReviewPolicy) : Environment → ReviewMode
  | .production => policy.production
  | .preview => policy.preview

def parseMode (value : Option String) (default : ReviewMode) : ReviewMode :=
  if value = some "auto" then .auto
  else if value = some "manual" then .manual
  else default

def applyReviewPolicyOverride (defaults : ReviewPolicy) (policy : Option PolicyDocument) : ReviewPolicy :=
  { production := parseMode (policy.bind PolicyDocument.production) defaults.production
    preview := parseMode (policy.bind PolicyDocument.preview) defaults.preview }

def reviewPolicy (db : Database) : ReviewPolicy := applyReviewPolicyOverride {} db.releaseReviewPolicy

/-- Team group override, then the platform setting, then the default; `none` when the team row is missing. -/
def reviewPolicyForTeam (db : Database) (teamId : Uuid) : Option ReviewPolicy :=
  (db.teams.find teamId).map fun team =>
    match team.groupId with
    | none => reviewPolicy db
    | some groupId =>
      applyReviewPolicyOverride (reviewPolicy db)
        (((db.teamGroups.find groupId).filter fun group => group.deletedAt.isNone).bind TeamGroup.reviewPolicy)

def runtimeFailure : ProjectRuntime → Option (String × String)
  | .static | .ssr => none
  | .hybrid => some ("runtime_not_implemented","Hybrid runtime is not implemented yet")
  | .serverless => some ("runtime_not_implemented","Serverless runtime is not implemented yet")
  | .edge => some ("runtime_not_implemented","Edge runtime is not implemented yet")

/-! What the writes do. -/

def OnlyDeployments (db after : Database) : Prop :=
  after = { db with deployments := after.deployments, events := after.events }

theorem OnlyDeployments.refl (db : Database) : OnlyDeployments db db := rfl

theorem OnlyDeployments.trans {db middle after : Database} (first : OnlyDeployments db middle)
    (second : OnlyDeployments middle after) : OnlyDeployments db after := by
  unfold OnlyDeployments at *
  rw [second,first]

/-- Nothing but the deployments, their events and the records of releases and reviews differs. -/
def OnlyReleases (db after : Database) : Prop :=
  after = { db with
    deployments := after.deployments, events := after.events, releases := after.releases
    reviews := after.reviews, audit := after.audit }

theorem OnlyReleases.trans {db middle after : Database} (first : OnlyReleases db middle)
    (second : OnlyReleases middle after) : OnlyReleases db after := by
  unfold OnlyReleases at *
  rw [second,first]

theorem OnlyDeployments.onlyReleases {db after : Database} (only : OnlyDeployments db after) :
    OnlyReleases db after := by
  unfold OnlyDeployments OnlyReleases at *
  rw [only]

section Untouched
variable {db after : Database}

theorem OnlyDeployments.releases (only : OnlyDeployments db after) : after.releases = db.releases := by rw [only]

theorem OnlyDeployments.reviews (only : OnlyDeployments db after) : after.reviews = db.reviews := by rw [only]

theorem OnlyDeployments.audit (only : OnlyDeployments db after) : after.audit = db.audit := by rw [only]

end Untouched

/-- `change` was written to the row with this id, and to nothing else. -/
structure Wrote (id : Uuid) (change : Deployment → Deployment) (db : Database) (updated : Deployment)
    (after : Database) : Prop where
  current : (db.deployments.find id).map change = some updated
  find : ∀ k, after.deployments.find k =
    if k = id then (db.deployments.find k).map change else db.deployments.find k
  rest : OnlyDeployments db after

theorem Wrote.row {id : Uuid} {change : Deployment → Deployment} {db after : Database} {updated : Deployment}
    (wrote : Wrote id change db updated after) :
    ∃ row, db.deployments.find id = some row ∧ change row = updated ∧
      after.deployments.find id = some updated := by
  obtain ⟨row,found,same⟩ := Option.map_eq_some_iff.mp wrote.current
  refine ⟨row,found,same,?_⟩
  rw [wrote.find,if_pos rfl,wrote.current]

theorem Wrote.key {id : Uuid} {change : Deployment → Deployment} {db after : Database} {updated : Deployment}
    (wrote : Wrote id change db updated after) (keeps : ∀ row, (change row).id = row.id) : updated.id = id := by
  obtain ⟨row,found,same,_⟩ := wrote.row
  rw [← same,keeps]
  exact Table.find_key found

/-- How the deployments changed: none is lost or added, and `becomes` says what each turned into. -/
abbrev Rows (becomes : Deployment → Deployment → Prop) (db after : Database) : Prop :=
  Table.Evolves becomes (fun _ => False) db.deployments after.deployments

theorem rows_refl {becomes : Deployment → Deployment → Prop} (reflexive : ∀ row, becomes row row)
    (db : Database) : Rows becomes db db :=
  Table.evolves_refl reflexive db.deployments

theorem Rows.andThen {change : Deployment → Deployment} {becomes : Deployment → Deployment → Prop}
    {db middle after : Database} (first : Rows (fun row next => next = change row) db middle)
    (second : Rows becomes middle after) : Rows (fun row next => becomes (change row) next) db after := by
  refine (first.comp second).mono ?_ ?_
  · intro row last _ steps
    obtain ⟨next,rfl,step⟩ := steps
    exact step
  · intro row fresh
    obtain ⟨next,impossible,_⟩ := fresh
    exact impossible

theorem Wrote.evolves {id : Uuid} {change : Deployment → Deployment} {db after : Database}
    {updated : Deployment} (wrote : Wrote id change db updated after) :
    Rows (fun row next => next = if row.id = id then change row else row) db after where
  kept k row found := by
    have same : row.id = k := Table.find_key found
    refine ⟨if row.id = id then change row else row,?_,rfl⟩
    rw [wrote.find,same,found]
    by_cases chosen : k = id <;> simp [chosen]
  added k next missing found := by
    rw [wrote.find,missing] at found
    by_cases chosen : k = id <;> simp [chosen] at found

theorem Wrote.trans {id : Uuid} {first second : Deployment → Deployment} {db middle after : Database}
    {updated last : Deployment} (one : Wrote id first db updated middle) (two : Wrote id second middle last after) :
    Wrote id (fun row => second (first row)) db last after where
  current := by
    have current := two.current
    rw [one.find,if_pos rfl,Option.map_map] at current
    exact current
  find k := by
    rw [two.find,one.find]
    by_cases chosen : k = id
    · simp only [chosen,if_true,Option.map_map]
      rfl
    · simp only [chosen,if_false]
  rest := one.rest.trans two.rest

section Specifications
variable {db : Database} {id : Uuid} {change : Deployment → Deployment}
  {keeps : ∀ row, (change row).id = row.id}

theorem updateDeployment_ensures : Ensures (updateDeployment id change keeps) db (Wrote id change db) := by
  unfold updateDeployment
  rw [ensures_write]
  intro updated after ok
  obtain ⟨row,found,ok⟩ := Option.bind_eq_some_iff.mp ok
  obtain ⟨deployments,written,ok⟩ := Option.bind_eq_some_iff.mp ok
  cases ok
  exact ⟨by rw [found]; rfl,Table.find_update written,rfl⟩

theorem updateDeployment_succeeds_of_written {row : Deployment}
    {deployments : Table Deployment (·.id) Deployment.entries} (found : db.deployments.find id = some row)
    (written : db.deployments.update id change keeps = some deployments) :
    Succeeds (updateDeployment id change keeps) db (Wrote id change db) := by
  unfold updateDeployment
  rw [succeeds_write]
  refine ⟨change row,{ db with deployments },?_,?_⟩
  · simp only [found,written,Option.bind_eq_bind,Option.bind_some,pure]
  · exact ⟨by rw [found]; rfl,Table.find_update written,rfl⟩

theorem updateDeployment_succeeds {row : Deployment} (found : db.deployments.find id = some row)
    (fewer : (change row).entries.Sublist row.entries) :
    Succeeds (updateDeployment id change keeps) db (Wrote id change db) := by
  have each : ∀ other ∈ db.deployments.rows, other.id = id →
      (change other).entries.Sublist other.entries := by
    intro other member same
    obtain rfl : other = row :=
      db.deployments.same_of_key member (Table.find_mem found) (same.trans (Table.find_key found).symm)
    exact fewer
  obtain ⟨deployments,written⟩ : ∃ deployments, db.deployments.update id change keeps = some deployments :=
    Table.updateWhere_of_sublist each
  exact updateDeployment_succeeds_of_written found written

@[simp] theorem ensures_appendEvent {ε : Type} (kind : EventKind) (message : String)
    (metadata : List (String × Scalar)) (post : Unit → Database → Prop) :
    Ensures (appendEvent id kind message metadata : Transaction Database ε Unit) db post ↔
      post () { db with events := db.events ++ [⟨id,kind,message,metadata⟩] } := by
  unfold appendEvent
  exact ensures_modify db _ post

@[simp] theorem succeeds_appendEvent {ε : Type} (kind : EventKind) (message : String)
    (metadata : List (String × Scalar)) (post : Unit → Database → Prop) :
    Succeeds (appendEvent id kind message metadata : Transaction Database ε Unit) db post ↔
      post () { db with events := db.events ++ [⟨id,kind,message,metadata⟩] } := by
  unfold appendEvent
  exact succeeds_modify db _ post

theorem Wrote.appendEvent {after : Database} {updated : Deployment} (wrote : Wrote id change db updated after)
    (event : DeploymentEvent) :
    Wrote id change db updated { after with events := after.events ++ [event] } where
  current := wrote.current
  find := wrote.find
  rest := by
    have rest := wrote.rest
    unfold OnlyDeployments at *
    rw [rest]

variable {now : Timestamp} {passed : Deployment}

theorem transitionServe_ensures {transition : ServeTransition} :
    Ensures (transitionServe now passed transition) db fun updated after =>
      canTransitionServe passed.serveStatus transition.target ∧
        Wrote passed.id (setServe now transition) db updated after := by
  unfold transitionServe
  simp only [ensures_bind,ensures_require,ensures_mapError,ensures_appendEvent,ensures_pure]
  intro allowed
  refine updateDeployment_ensures.mono ?_
  intro updated after wrote
  exact ⟨allowed,wrote.appendEvent _⟩

theorem transitionServe_succeeds {transition : ServeTransition} {row : Deployment}
    (found : db.deployments.find passed.id = some row)
    (allowed : canTransitionServe passed.serveStatus transition.target) :
    Succeeds (transitionServe now passed transition) db (Wrote passed.id (setServe now transition) db) := by
  unfold transitionServe
  simp only [succeeds_bind,succeeds_require,succeeds_mapError,succeeds_appendEvent,succeeds_pure]
  refine ⟨allowed,(updateDeployment_succeeds found (by rw [setServe_entries])).mono ?_⟩
  intro updated after wrote
  exact wrote.appendEvent _

theorem transitionBuild_ensures {transition : BuildTransition} :
    Ensures (transitionBuild now passed transition) db fun updated after =>
      canTransitionBuild passed.buildStatus transition.target ∧
        Wrote passed.id (setBuild now transition) db updated after := by
  unfold transitionBuild
  simp only [ensures_bind,ensures_require,ensures_mapError,ensures_appendEvent,ensures_pure]
  intro allowed
  refine updateDeployment_ensures.mono ?_
  intro updated after wrote
  exact ⟨allowed,wrote.appendEvent _⟩

theorem transitionBuild_succeeds {transition : BuildTransition} {row : Deployment}
    (found : db.deployments.find passed.id = some row)
    (allowed : canTransitionBuild passed.buildStatus transition.target) :
    Succeeds (transitionBuild now passed transition) db (Wrote passed.id (setBuild now transition) db) := by
  unfold transitionBuild
  simp only [succeeds_bind,succeeds_require,succeeds_mapError,succeeds_appendEvent,succeeds_pure]
  refine ⟨allowed,(updateDeployment_succeeds found (by rw [setBuild_entries])).mono ?_⟩
  intro updated after wrote
  exact wrote.appendEvent _

theorem updateStage_ensures {stage : String} :
    Ensures (updateStage passed stage) db (Wrote passed.id (setStage stage) db) := by
  unfold updateStage
  simp only [ensures_bind,ensures_appendEvent,ensures_pure]
  refine updateDeployment_ensures.mono ?_
  intro updated after wrote
  exact wrote.appendEvent _

/-- What `transition_release` checks of the row it is given. -/
structure MayRelease (passed : Deployment) (target : ReleaseStatus) : Prop where
  edge : canTransitionRelease passed.releaseStatus target
  readiness : validateReleaseReadiness passed.releaseStatus target passed.buildStatus passed.serveStatus = .ok ()

theorem transitionRelease_ensures {target : ReleaseStatus} {metadata : List (String × Scalar)} :
    Ensures (transitionRelease passed target metadata) db fun updated after =>
      MayRelease passed target ∧ Wrote passed.id (setRelease target) db updated after := by
  unfold transitionRelease
  simp only [ensures_bind,ensures_require,ensures_ofExcept,ensures_mapError,ensures_appendEvent,ensures_pure]
  intro edge _ readiness
  refine updateDeployment_ensures.mono ?_
  intro updated after wrote
  exact ⟨⟨edge,readiness⟩,wrote.appendEvent _⟩

theorem transitionRelease_succeeds {target : ReleaseStatus} {metadata : List (String × Scalar)}
    (allowed : MayRelease passed target)
    (writes : Succeeds (updateDeployment passed.id (setRelease target) fun _ => rfl) db
      (Wrote passed.id (setRelease target) db)) :
    Succeeds (transitionRelease passed target metadata) db (Wrote passed.id (setRelease target) db) := by
  unfold transitionRelease
  simp only [succeeds_bind,succeeds_require,succeeds_ofExcept,succeeds_mapError,succeeds_appendEvent,succeeds_pure]
  refine ⟨allowed.edge,(),allowed.readiness,writes.mono ?_⟩
  intro updated after wrote
  exact wrote.appendEvent _

theorem previousActive_spec {target previous : Deployment} (found : previousActive db target = some previous) :
    previous ∈ db.deployments.rows ∧ previous.projectId = target.projectId ∧
      previous.environment = target.environment ∧ previous.releaseStatus = .active ∧
      previous.id ≠ target.id ∧ previous.deletedAt = none := by
  have member := List.mem_of_find?_eq_some found
  have selected := List.find?_some found
  simpa [member] using selected

/-- There is no other active deployment than the one `activate` demotes. -/
theorem previousActive_unique {target row : Deployment} (member : row ∈ db.deployments.rows)
    (project : row.projectId = target.projectId) (environment : row.environment = target.environment)
    (active : row.releaseStatus = .active) (different : row.id ≠ target.id) (live : row.deletedAt = none) :
    previousActive db target = some row := by
  cases found : previousActive db target with
  | none =>
    have refused := List.find?_eq_none.mp found row member
    simp [project,environment,active,different,live] at refused
  | some previous =>
    obtain ⟨inside,sameProject,sameEnvironment,wasActive,_,alive⟩ := previousActive_spec found
    rw [active_unique inside member alive live wasActive active (sameProject.trans project.symm)
      (sameEnvironment.trans environment.symm)]

/-- The effect of `activate`: the target is Active, the previous active deployment of its
environment is Approved, and the release row names it. -/
structure Activated (now : Timestamp) (target : Deployment) (reason : ReleaseReason) (actorUserId : Option Uuid)
    (db : Database) (activated : Deployment) (after : Database) : Prop where
  may : MayRelease target .active
  row : ∃ row, db.deployments.find target.id = some row ∧ setRelease .active row = activated
  find : ∀ k, after.deployments.find k =
    if k = target.id then (db.deployments.find k).map (setRelease .active)
    else if some k = (previousActive db target).map Deployment.id then
      (db.deployments.find k).map (setRelease .approved)
    else db.deployments.find k
  releases : after.releases = db.releases ++ [⟨target.projectId,target.id,target.environment,reason,actorUserId,
    (previousActive db target).map Deployment.id,now⟩]
  reviews : after.reviews = db.reviews
  audit : after.audit = db.audit
  rest : OnlyReleases db after

theorem Activated.key {target activated : Deployment} {reason : ReleaseReason} {actorUserId : Option Uuid}
    {after : Database} (done : Activated now target reason actorUserId db activated after) :
    activated.id = target.id := by
  obtain ⟨row,found,same⟩ := done.row
  have origin : row.id = target.id := Table.find_key found
  rw [← same]
  exact origin

def activatedRow (target : Uuid) (previous : Option Uuid) (row : Deployment) : Deployment :=
  if row.id = target then setRelease .active row
  else if some row.id = previous then setRelease .approved row
  else row

theorem Activated.evolves {target activated : Deployment} {reason : ReleaseReason} {actorUserId : Option Uuid}
    {after : Database} (done : Activated now target reason actorUserId db activated after) :
    Rows (fun row next => next = activatedRow target.id ((previousActive db target).map Deployment.id) row)
      db after where
  kept k row found := by
    have same : row.id = k := Table.find_key found
    refine ⟨_,?_,rfl⟩
    rw [done.find,found]
    unfold activatedRow
    rw [same]
    split
    · rfl
    · split <;> rfl
  added k next missing found := by
    rw [done.find,missing] at found
    split at found
    · cases found
    · split at found <;> cases found

/-- The demotion of `activate`, a transition of its own. -/
private theorem demote_ensures {target : Deployment} :
    Ensures (demote target (previousActive db target)) db fun previousId after =>
      previousId = (previousActive db target).map Deployment.id ∧ OnlyDeployments db after ∧
        ∀ k, after.deployments.find k = if some k = (previousActive db target).map Deployment.id then
          (db.deployments.find k).map (setRelease .approved) else db.deployments.find k := by
  cases found : previousActive db target with
  | none =>
    simp only [demote,ensures_pure,Option.map_none]
    exact ⟨trivial,OnlyDeployments.refl db,fun k => by simp⟩
  | some previous =>
    simp only [demote,ensures_bind,ensures_pure]
    refine transitionRelease_ensures.mono ?_
    rintro demoted middle ⟨_,wrote⟩
    have named : demoted.id = previous.id := wrote.key fun _ => rfl
    refine ⟨congrArg some named,wrote.rest,?_⟩
    intro k
    rw [wrote.find]
    simp only [Option.map_some,Option.some.injEq]

theorem activate_ensures {target : Deployment} {reason : ReleaseReason} {actorUserId : Option Uuid} :
    Ensures (activate now target reason actorUserId) db (Activated now target reason actorUserId db) := by
  unfold activate
  simp only [ensures_bind,ensures_ofExcept,ensures_query,ensures_modify,ensures_pure]
  intro _ _
  refine demote_ensures.mono ?_
  rintro previousId middle ⟨named,only,demoted⟩
  refine transitionRelease_ensures.mono ?_
  rintro activated after ⟨may,wrote⟩
  have apart : some target.id ≠ (previousActive db target).map Deployment.id := by
    intro same
    obtain ⟨previous,found,equal⟩ := Option.map_eq_some_iff.mp same.symm
    exact (previousActive_spec found).2.2.2.2.1 equal
  obtain ⟨row,found,same,_⟩ := wrote.row
  have key : activated.id = target.id := wrote.key fun _ => rfl
  have only := only.trans wrote.rest
  refine ⟨may,?_,?_,?_,only.reviews,only.audit,?_⟩
  · rw [demoted,if_neg apart] at found
    exact ⟨row,found,same⟩
  · intro k
    change after.deployments.find k = _
    rw [wrote.find,demoted]
    by_cases chosen : k = target.id
    · subst chosen
      rw [if_pos rfl,if_pos rfl,if_neg apart]
    · rw [if_neg chosen,if_neg chosen]
  · change after.releases ++ _ = _
    rw [only.releases,key,named]
  · have rest := only.onlyReleases
    unfold OnlyReleases at *
    rw [rest]

theorem setRelease_entries_sublist {target : ReleaseStatus} (inactive : target ≠ .active) (row : Deployment) :
    (setRelease target row).entries.Sublist row.entries :=
  Identity.entries_sublist row.identity _ _ (fun active => absurd (of_decide_eq_true active) inactive) id

theorem mem_setRelease_entries {target : ReleaseStatus} {row : Deployment} {entry : DeploymentEntry}
    (member : entry ∈ (setRelease target row).entries) :
    entry = .active row.projectId row.environment ∨ entry ∈ row.entries := by
  obtain ⟨live,⟨_,same⟩ | pending | host⟩ := (Identity.mem_entries _ _ _).mp member
  · exact .inl same
  · exact .inr ((Identity.mem_entries _ _ _).mpr ⟨live,.inr (.inl pending)⟩)
  · exact .inr ((Identity.mem_entries _ _ _).mpr ⟨live,.inr (.inr host)⟩)

private theorem demote_succeeds {target : Deployment} :
    Succeeds (demote target (previousActive db target)) db fun _ _ => True := by
  cases found : previousActive db target with
  | none => simp only [demote,succeeds_pure]
  | some previous =>
    obtain ⟨member,_,_,active,_,_⟩ := previousActive_spec found
    simp only [demote,succeeds_bind,succeeds_pure]
    have may : MayRelease previous .approved := by
      constructor
      · rw [active]; rfl
      · rw [active]; simp [validateReleaseReadiness]
    have present : db.deployments.find previous.id = some previous := Table.find_of_mem member
    have writes : Succeeds (updateDeployment previous.id (setRelease .approved) fun _ => rfl) db
        (Wrote previous.id (setRelease .approved) db) :=
      updateDeployment_succeeds present (setRelease_entries_sublist (by decide) previous)
    exact (transitionRelease_succeeds may writes).mono fun _ _ _ => trivial

/-- The single-active index never refuses an activation: whoever holds the entry is demoted first. -/
theorem activate_succeeds {target : Deployment} {reason : ReleaseReason} {actorUserId : Option Uuid}
    (found : db.deployments.find target.id = some target) (live : target.deletedAt = none)
    (may : MayRelease target .active) :
    Succeeds (activate now target reason actorUserId) db (Activated now target reason actorUserId db) := by
  have total : Succeeds (activate now target reason actorUserId) db fun _ _ => True := by
    unfold activate
    simp only [succeeds_bind,succeeds_ofExcept,succeeds_query,succeeds_modify,succeeds_pure]
    refine ⟨(),may.readiness,(demote_succeeds.and_ensures demote_ensures).mono ?_⟩
    rintro previousId middle ⟨_,_,only,demoted⟩
    have apart : some target.id ≠ (previousActive db target).map Deployment.id := by
      intro same
      obtain ⟨previous,present,equal⟩ := Option.map_eq_some_iff.mp same.symm
      exact (previousActive_spec present).2.2.2.2.1 equal
    have present : middle.deployments.find target.id = some target := by
      rw [demoted,if_neg apart,found]
    have free : ∀ row ∈ middle.deployments.rows, row.id = target.id →
        ∀ other ∈ middle.deployments.rows, other.id ≠ target.id →
          List.Disjoint (setRelease .active row).entries other.entries := by
      intro row member same other inside different entry held shared
      obtain rfl : row = target :=
        middle.deployments.same_of_key member (Table.find_mem present) same
      rcases mem_setRelease_entries held with taken | old
      · rw [taken] at shared
        obtain ⟨alive,active,project,environment⟩ := (Identity.active_mem_entries _ _ _).mp shared
        have active := of_decide_eq_true active
        have origin := demoted other.id
        rw [show middle.deployments.find other.id = some other from Table.find_of_mem inside] at origin
        split at origin
        · obtain ⟨before,_,equal⟩ := Option.map_eq_some_iff.mp origin.symm
          rw [← equal] at active
          cases active
        · rename_i kept
          rw [previousActive_unique (Table.find_mem origin.symm) project environment active different alive] at kept
          exact kept rfl
      · exact different (congrArg Deployment.id (middle.deployments.same_of_entry inside member shared old))
    have once : ∀ row ∈ middle.deployments.rows, row.id = target.id → (setRelease .active row).entries.Nodup :=
      fun row _ _ => Identity.nodup_entries _ _ _
    obtain ⟨deployments,written⟩ : ∃ deployments,
        middle.deployments.update target.id (setRelease .active) (fun _ => rfl) = some deployments :=
      Table.update_of_free once free
    have writes := updateDeployment_succeeds_of_written present written
    exact (transitionRelease_succeeds may writes).mono fun _ _ _ => trivial
  exact (total.and_ensures activate_ensures).mono fun _ _ both => both.2

/-- A review can be requested whenever the transition is allowed and the new identifier is new. -/
theorem requestReview_succeeds {instant : Instant} {requestedBy : Option Uuid} {row : Deployment}
    (found : db.deployments.find passed.id = some row) (allowed : MayRelease passed .pendingReview)
    (fresh : db.reviews.find instant.uuid = none) :
    Succeeds (requestReview instant passed requestedBy) db fun _ _ => True := by
  unfold requestReview createReview
  simp only [succeeds_bind,succeeds_mapError,succeeds_write,succeeds_appendEvent,succeeds_pure]
  have writes : Succeeds (updateDeployment passed.id (setRelease .pendingReview) fun _ => rfl) db
      (Wrote passed.id (setRelease .pendingReview) db) :=
    updateDeployment_succeeds found (setRelease_entries_sublist (by decide) row)
  refine (transitionRelease_succeeds allowed writes).mono ?_
  intro reviewed after wrote
  let review : DeploymentReview := ⟨instant.uuid,reviewed.id,none,.pending,none,instant.now,none⟩
  obtain ⟨reviews,inserted⟩ := Table.insert_of_fresh after.reviews review
    (by rw [wrote.rest.reviews]; exact fresh) rfl
  exact ⟨review,{ after with reviews },by rw [inserted]; rfl,trivial⟩

end Specifications

end GrassWorker.Deployments
