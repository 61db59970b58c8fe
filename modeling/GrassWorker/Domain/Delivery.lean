import GrassWorker.Domain.Scheduler

/-! Delivery of releases: which deployments keep a Serve assignment, the removal
of a publication, and releases that wait for their deployment to be synchronized. -/
namespace GrassWorker.Delivery
open Transaction Deployments Scheduler

inductive DeliveryError
  | database (error : DbErr)
  | schedule (error : ScheduleError)
  | state (error : StateError)
  | releaseAlreadyPending
  | invalidResources
  | invalidUnsuccessfulBuildTransition
  | other (message : String)
deriving DecidableEq, Repr

def DeliveryError.message : DeliveryError → String
  | .database _ => "database error"
  | .schedule error => error.message
  | .state error => error.message
  | .releaseAlreadyPending => "another release operation is already waiting for Serve synchronization"
  | .invalidResources => "deployment has invalid Serve resource data"
  | .invalidUnsuccessfulBuildTransition =>
    "delivery reconciliation requires a failed or canceled build transition"
  | .other message => message

inductive ReleaseRequestAction
  | activate | queueSync
deriving DecidableEq, Repr

inductive ReleaseRequestOutcome
  | activated (deployment : Deployment)
  | syncQueued (deployment : Deployment)

inductive PublicationRemovalKind
  | teamUser | platformAdmin
deriving DecidableEq, Repr

def publicationRemovalTarget : PublicationRemovalKind → ReleaseStatus
  | .teamUser => .approved
  | .platformAdmin => .draft

def publicationRemovalIsComplete (releaseStatus : ReleaseStatus) (serveStatus : ServeStatus)
    (kind : PublicationRemovalKind) : Bool :=
  releaseStatus = publicationRemovalTarget kind ∧ serveStatus = .retired

structure DeliveryCandidate where
  id : Uuid
  environment : Environment
  buildStatus : BuildStatus
  serveStatus : ServeStatus
  releaseStatus : ReleaseStatus
  pendingRelease : Bool
  createdAt : Timestamp
deriving DecidableEq

def inProgress : BuildStatus → Bool
  | .pending | .claimed | .queued | .building => true
  | .ready | .failed | .canceled => false

/-- The order of `(created_at, id)`. -/
def DeliveryCandidate.before (first second : DeliveryCandidate) : Prop :=
  first.createdAt < second.createdAt ∨ first.createdAt = second.createdAt ∧ first.id ≤ second.id

instance : DecidableRel DeliveryCandidate.before :=
  fun _ _ => inferInstanceAs (Decidable (_ ∨ _))

def keepsAssignment (candidate : DeliveryCandidate) : Bool :=
  inProgress candidate.buildStatus || candidate.pendingRelease ||
    (candidate.environment = .production && candidate.releaseStatus = .active)

def readyBuilds (candidates : List DeliveryCandidate) : List DeliveryCandidate :=
  (candidates.filter fun candidate => candidate.buildStatus = .ready &&
    (candidate.serveStatus ≠ .retired || candidate.pendingRelease)).insertionSort DeliveryCandidate.before

/-- The deployments that keep a Serve assignment. The newest ready build is
delivered first; its previous ready deployment stays until the new one is ready. -/
def desiredDeliveryIds (candidates : List DeliveryCandidate) : List Uuid :=
  (candidates.filter keepsAssignment).map DeliveryCandidate.id ++
    match (readyBuilds candidates).reverse with
    | [] => []
    | newest :: earlier =>
      newest.id :: if newest.serveStatus = .ready then []
        else ((earlier.find? fun candidate => candidate.serveStatus = .ready).map DeliveryCandidate.id).toList

/-- The last maximal element, as `max_by_key` returns it. -/
def newest : List DeliveryCandidate → Option DeliveryCandidate
  | [] => none
  | candidate :: rest =>
    match newest rest with
    | none => some candidate
    | some best => if candidate.before best then some best else some candidate

def effectivePreviewId (candidates : List DeliveryCandidate) : Option Uuid :=
  ((newest (candidates.filter fun candidate => candidate.buildStatus = .ready)).filter
    fun candidate => candidate.serveStatus = .ready).map DeliveryCandidate.id

def releaseRequestAction (serveStatus : ServeStatus) (hasAssignment : Bool) : ReleaseRequestAction :=
  if hasAssignment ∧ serveStatus = .ready then .activate else .queueSync

def releaseAuditAction : ReleaseReason → Bool → String
  | .promote, true => "deployment.promotion_queued"
  | .promote, false => "deployment.promoted"
  | .rollback, true => "deployment.rollback_queued"
  | .rollback, false => "deployment.rolled_back"
  | .auto, _ => "deployment.auto_activated"

def serveResources (item : Deployment) : Except DeliveryError ServeResources :=
  if item.serveCpuMillicores < 0 ∨ item.serveMemoryMb < 0 ∨ item.serveDiskMb < 0 then .error .invalidResources
  else .ok ⟨item.serveCpuMillicores.toNat,item.serveMemoryMb.toNat,item.serveDiskMb.toNat⟩

def candidateFromModel (item : Deployment) : DeliveryCandidate where
  id := item.id
  environment := item.environment
  buildStatus := item.buildStatus
  serveStatus := item.serveStatus
  releaseStatus := item.releaseStatus
  pendingRelease := item.pendingReleaseReason.isSome
  createdAt := item.createdAt

def environmentRows (db : Database) (projectId : Uuid) (environment : Environment) : List Deployment :=
  db.deployments.rows.filter fun row =>
    row.projectId = projectId ∧ row.environment = environment ∧ row.deletedAt.isNone

/-- The newest ready build with a preview host, kept when it is being served. -/
def effectivePreview (db : Database) (projectId : Uuid) (environment : Environment) : Option Deployment :=
  (((environmentRows db projectId environment).filter fun row =>
    row.buildStatus = .ready && row.previewHost.isSome).insertionSort
      fun first second => (candidateFromModel second).before (candidateFromModel first)).head?.filter
    fun row => row.serveStatus = .ready

section Operations
variable (instant : Instant)

def audit (event : AuditEvent) : Transaction Database DeliveryError Unit :=
  modify fun db => { db with audit := db.audit ++ [event] }

def write {α : Type} (transaction : Transaction Database DbErr α) : Transaction Database DeliveryError α :=
  mapError .database transaction

def transition {α : Type} (transaction : Transaction Database StateError α) : Transaction Database DeliveryError α :=
  mapError .state transaction

def lockedRow (id : Uuid) : Transaction Database DeliveryError Deployment := do
  orElse (← query (getByIdForUpdate · id)) (.other "deployment disappeared")

def retire (item : Deployment) : Transaction Database DeliveryError Deployment :=
  if item.serveStatus = .retired then pure item
  else transition (transitionServe instant.now item { target := .retired })

def unassign (row : Deployment) : Deployment := { row with serveNodeId := none }

def clearPendingRelease (row : Deployment) : Deployment := { row with
  pendingReleaseReason := none, pendingReleaseActorUserId := none
  pendingReleaseAuditVisibility := none, pendingReleaseRequestedAt := none }

/-- One round of `reconcile_environment`'s loop. -/
def reconcileItem (desired : List Uuid) (item : Deployment) : Transaction Database DeliveryError Unit :=
  if inProgress item.buildStatus ∨ item.id ∈ desired then pure ()
  else if item.serveNodeId.isNone ∧ item.serveStatus = .retired then pure ()
  else do
    let retired ← retire instant item
    let _ ← write (updateDeployment retired.id unassign fun _ => rfl)
    return ()

def reconcileEnvironment (projectId : Uuid) (environment : Environment) :
    Transaction Database DeliveryError Unit := do
  let items ← query (environmentRows · projectId environment)
  forM items (reconcileItem instant (desiredDeliveryIds (items.map candidateFromModel)))

def removePublication (target : Deployment) (kind : PublicationRemovalKind) :
    Transaction Database DeliveryError Deployment := do
  let target ← lockedRow target.id
  if publicationRemovalIsComplete target.releaseStatus target.serveStatus kind then return target
  else do
    let target ← transition (transitionRelease target (publicationRemovalTarget kind)
      [("publication_removed_by",.string (match kind with
        | .teamUser => "team_user"
        | .platformAdmin => "platform_admin"))])
    let target ← retire instant target
    let removed ← write (updateDeployment target.id (fun row => clearPendingRelease (unassign row)) fun _ => rfl)
    reconcileEnvironment instant target.projectId target.environment
    return removed

def transitionUnsuccessfulBuild (target : Deployment) (change : BuildTransition) :
    Transaction Database DeliveryError Deployment := do
  require (change.target = .failed ∨ change.target = .canceled) .invalidUnsuccessfulBuildTransition
  let target ← lockedRow target.id
  let _ ← transition (transitionBuild instant.now target change)
  reconcileEnvironment instant target.projectId target.environment
  orElse (← query fun db => db.deployments.find target.id) (.other "deployment disappeared")

def pendingRelease (db : Database) (target : Deployment) : Option Deployment :=
  db.deployments.rows.find? fun row => row.projectId = target.projectId ∧
    row.environment = target.environment ∧ row.pendingReleaseReason.isSome ∧ row.deletedAt.isNone

def place (target : Deployment) : Transaction Database DeliveryError (Option Placement) :=
  if target.serveNodeId.isNone ∨ target.serveStatus = .retired then do
    let requested ← ofExcept (serveResources target)
    let db ← get
    let placement ← mapError .schedule
      (ofExcept (placeDeploymentInRegion instant.now instant.choice requested none (some target.region) db))
    return some placement
  else return none

def queueRelease (placement : Option Placement) (reason : ReleaseReason) (actorUserId : Uuid)
    (visibility : AuditEventVisibility) (row : Deployment) : Deployment :=
  let row := match placement with
    | some placement => { row with
        serveNodeId := some placement.nodeId, overcommitted := placement.overcommitted
        serveStatus := .pending, serveStartedAt := none, serveFinishedAt := none
        serveFailureCode := none, serveFailureMessage := none }
    | none => row
  { row with
    pendingReleaseReason := some reason, pendingReleaseActorUserId := some actorUserId
    pendingReleaseAuditVisibility := some visibility, pendingReleaseRequestedAt := some instant.now }

@[simp] theorem queueRelease_identity (placement : Option Placement) (reason : ReleaseReason)
    (actorUserId : Uuid) (visibility : AuditEventVisibility) (row : Deployment) :
    (queueRelease instant placement reason actorUserId visibility row).identity = row.identity := by
  cases placement <;> rfl

def requestRelease (target : Deployment) (reason : ReleaseReason) (actorUserId : Uuid)
    (visibility : AuditEventVisibility) : Transaction Database DeliveryError ReleaseRequestOutcome := do
  let target ← lockedRow target.id
  require ((pendingRelease (← get) target).isNone) .releaseAlreadyPending
  match releaseRequestAction target.serveStatus target.serveNodeId.isSome with
  | .activate => do
    let activated ← transition (activate instant.now target reason (some actorUserId))
    reconcileEnvironment instant activated.projectId activated.environment
    return .activated activated
  | .queueSync => do
    let placement ← place instant target
    let queued ← write (updateDeployment target.id (queueRelease instant placement reason actorUserId visibility)
      fun row => congrArg Identity.id (queueRelease_identity instant placement reason actorUserId visibility row))
    appendEvent target.id .release "release waiting for Serve synchronization"
      [("reason",.string (releaseReasonValue reason)),("serve_node_id",.ofUuid queued.serveNodeId)]
    reconcileEnvironment instant target.projectId target.environment
    return .syncQueued queued

def completePendingRelease (target : Deployment) :
    Transaction Database DeliveryError (Option Deployment) := do
  match target.pendingReleaseReason with
  | none => return none
  | some reason =>
    if target.serveStatus ≠ .ready then return none
    else do
      let activated ← transition (activate instant.now target reason target.pendingReleaseActorUserId)
      let activated ← write (updateDeployment activated.id clearPendingRelease fun _ => rfl)
      reconcileEnvironment instant activated.projectId activated.environment
      audit {
        actorUserId := target.pendingReleaseActorUserId
        teamId := some activated.teamId
        action := releaseAuditAction reason false
        targetId := some activated.id
        visibility := target.pendingReleaseAuditVisibility.getD .platform }
      return some activated

end Operations

/-! Reconciliation. -/

theorem keepsAssignment_eq_false {candidate : DeliveryCandidate} : keepsAssignment candidate = false ↔
    inProgress candidate.buildStatus = false ∧ candidate.pendingRelease = false ∧
      ¬(candidate.environment = .production ∧ candidate.releaseStatus = .active) := by
  simp [keepsAssignment,and_assoc]

theorem mem_desired_of_keepsAssignment {candidates : List DeliveryCandidate} {candidate : DeliveryCandidate}
    (member : candidate ∈ candidates) (kept : keepsAssignment candidate) :
    candidate.id ∈ desiredDeliveryIds candidates :=
  List.mem_append_left _ (List.mem_map_of_mem (List.mem_filter.mpr ⟨member,kept⟩))

structure Retirable (row : Deployment) : Prop where
  idle : inProgress row.buildStatus = false
  unawaited : row.pendingReleaseReason = none
  unpublished : ¬(row.environment = .production ∧ row.releaseStatus = .active)

def retired (row : Deployment) : Deployment := { row with serveStatus := .retired, serveNodeId := none }

def Settled (row next : Deployment) : Prop := next = row ∨ Retirable row ∧ next = retired row

theorem retirable_of_undesired {items : List Deployment} {item : Deployment} (member : item ∈ items)
    (idle : ¬(inProgress item.buildStatus ∨ item.id ∈ desiredDeliveryIds (items.map candidateFromModel))) :
    Retirable item := by
  have dropped : keepsAssignment (candidateFromModel item) = false := by
    cases kept : keepsAssignment (candidateFromModel item) with
    | false => rfl
    | true =>
      have desired := mem_desired_of_keepsAssignment (List.mem_map_of_mem member) kept
      exact absurd (.inr desired) idle
  obtain ⟨running,awaited,published⟩ := keepsAssignment_eq_false.mp dropped
  exact ⟨running,by simpa [candidateFromModel] using awaited,published⟩

section Specifications
variable {instant : Instant} {db : Database}

theorem retired_idem (row : Deployment) : retired (retired row) = retired row := rfl

def swept (desired : List Uuid) (item : Deployment) : Deployment :=
  if inProgress item.buildStatus ∨ item.id ∈ desired then item else retired item

section Sweep
variable (desired : List Uuid) (item : Deployment)

@[simp] theorem swept_identity : (swept desired item).identity = item.identity := by
  unfold swept
  split <;> rfl

@[simp] theorem swept_releaseStatus : (swept desired item).releaseStatus = item.releaseStatus := by
  unfold swept
  split <;> rfl

@[simp] theorem swept_pendingReleaseReason : (swept desired item).pendingReleaseReason = item.pendingReleaseReason := by
  unfold swept
  split <;> rfl

variable {desired item}

theorem swept_of_unretired (kept : (swept desired item).serveStatus ≠ .retired) :
    swept desired item = item ∧ (inProgress item.buildStatus ∨ item.id ∈ desired) := by
  unfold swept at kept ⊢
  split
  · rename_i wanted
    exact ⟨rfl,wanted⟩
  · rename_i undesired
    rw [if_neg undesired] at kept
    exact absurd rfl kept

end Sweep

private theorem reconcileItem_ensures {desired : List Uuid} {item : Deployment} {state : Database}
    (found : state.deployments.find item.id = some item) :
    Ensures (reconcileItem instant desired item) state fun _ after => OnlyDeployments state after ∧
      ∀ k, after.deployments.find k = if k = item.id then some (swept desired item) else state.deployments.find k := by
  have untouched (same : swept desired item = item) : ∀ k, state.deployments.find k =
      if k = item.id then some (swept desired item) else state.deployments.find k := by
    intro k
    split
    · rename_i chosen
      rw [chosen,same,found]
    · rfl
  unfold reconcileItem
  split
  · rename_i wanted
    rw [ensures_pure]
    exact ⟨OnlyDeployments.refl state,untouched (if_pos wanted)⟩
  rename_i undesired
  have dropped : swept desired item = retired item := if_neg undesired
  split
  · rename_i settled
    have already : retired item = item := by
      unfold retired
      rw [← settled.2,← Option.isNone_iff_eq_none.mp settled.1]
    rw [ensures_pure]
    exact ⟨OnlyDeployments.refl state,untouched (dropped.trans already)⟩
  unfold retire
  simp only [ensures_bind,ensures_pure]
  split
  · rename_i already
    simp only [write,ensures_pure,ensures_mapError]
    refine updateDeployment_ensures.mono ?_
    intro updated after wrote
    refine ⟨wrote.rest,fun k => ?_⟩
    rw [wrote.find]
    split
    · rename_i same
      rw [same,found,dropped,Option.map_some,unassign,retired,← already]
    · rfl
  · simp only [transition,write,ensures_mapError]
    refine transitionServe_ensures.mono ?_
    rintro updated middle ⟨_,first⟩
    rw [first.key fun row => setServe_id _ row _]
    refine updateDeployment_ensures.mono ?_
    intro last after second
    have wrote := first.trans second
    refine ⟨wrote.rest,fun k => ?_⟩
    rw [wrote.find]
    split
    · rename_i same
      rw [same,found,dropped]
      rfl
    · rfl

private theorem reconcileItems_ensures {desired : List Uuid} (items : List Deployment) {state : Database}
    (distinct : (items.map Deployment.id).Nodup) (found : ∀ item ∈ items, state.deployments.find item.id = some item) :
    Ensures (forM items (reconcileItem instant desired)) state fun _ after => OnlyDeployments state after ∧
      ∀ k, after.deployments.find k = match items.find? fun item => item.id = k with
        | some item => some (swept desired item)
        | none => state.deployments.find k := by
  induction items generalizing state with
  | nil =>
    rw [List.forM_nil,ensures_pure]
    exact ⟨OnlyDeployments.refl state,fun _ => rfl⟩
  | cons item rest ih =>
    obtain ⟨fresh,apart⟩ := List.nodup_cons.mp distinct
    rw [List.forM_cons,ensures_bind]
    refine (reconcileItem_ensures (found item List.mem_cons_self)).mono ?_
    intro _ middle ⟨only,round⟩
    have kept : ∀ other ∈ rest, middle.deployments.find other.id = some other := by
      intro other member
      have different : other.id ≠ item.id := fun same => fresh (same ▸ List.mem_map_of_mem member)
      rw [round,if_neg different,found other (List.mem_cons_of_mem item member)]
    refine (ih apart kept).mono ?_
    intro _ after ⟨later,rounds⟩
    refine ⟨only.trans later,fun k => ?_⟩
    rw [rounds,round]
    by_cases chosen : item.id = k
    · have absent : rest.find? (fun other => other.id = k) = none := by
        rw [List.find?_eq_none]
        intro other member same
        exact fresh (chosen.trans (of_decide_eq_true same).symm ▸ List.mem_map_of_mem member)
      have here : (item :: rest).find? (fun other => other.id = k) = some item := List.find?_cons_of_pos (decide_eq_true chosen)
      rw [absent,here]
      exact if_pos chosen.symm
    · rw [List.find?_cons_of_neg (by simpa using chosen),if_neg (Ne.symm chosen)]

def desired (db : Database) (projectId : Uuid) (environment : Environment) : List Uuid :=
  desiredDeliveryIds ((environmentRows db projectId environment).map candidateFromModel)

structure Swept (projectId : Uuid) (environment : Environment) (db after : Database) : Prop where
  find : ∀ k, after.deployments.find k = (db.deployments.find k).map fun row =>
    if row ∈ environmentRows db projectId environment then swept (desired db projectId environment) row else row
  rest : OnlyDeployments db after

theorem mem_environmentRows {projectId : Uuid} {environment : Environment} {row : Deployment} :
    row ∈ environmentRows db projectId environment ↔ row ∈ db.deployments.rows ∧ row.projectId = projectId ∧
      row.environment = environment ∧ row.deletedAt = none := by
  simp [environmentRows]

theorem environmentRows_found {projectId : Uuid} {environment : Environment} {row : Deployment}
    (member : row ∈ environmentRows db projectId environment) : db.deployments.find row.id = some row :=
  Table.find_of_mem (List.mem_of_mem_filter member)

theorem environmentRows_distinct (projectId : Uuid) (environment : Environment) :
    ((environmentRows db projectId environment).map Deployment.id).Nodup :=
  db.deployments.distinct.sublist (List.filter_sublist.map Deployment.id)

theorem reconcileEnvironment_swept {projectId : Uuid} {environment : Environment} :
    Ensures (reconcileEnvironment instant projectId environment) db fun _ after => Swept projectId environment db after := by
  unfold reconcileEnvironment
  simp only [ensures_bind,ensures_query]
  have rounds := @reconcileItems_ensures instant (desired db projectId environment) (environmentRows db projectId environment)
    db (environmentRows_distinct projectId environment) fun item => environmentRows_found
  refine rounds.mono ?_
  rintro _ after ⟨only,find⟩
  refine ⟨fun k => ?_,only⟩
  rw [find]
  cases chosen : (environmentRows db projectId environment).find? fun item => item.id = k with
  | some item =>
    have member := List.mem_of_find?_eq_some chosen
    have selected := List.find?_some chosen
    have key : item.id = k := of_decide_eq_true selected
    rw [← key,environmentRows_found member,Option.map_some,if_pos member]
  | none =>
    cases present : db.deployments.find k with
    | none => rfl
    | some row =>
      have outside : row ∉ environmentRows db projectId environment := by
        intro member
        exact List.find?_eq_none.mp chosen row member (decide_eq_true (Table.find_key present))
      rw [Option.map_some,if_neg outside]

structure Reconciled (db after : Database) : Prop where
  rows : Rows Settled db after
  rest : OnlyDeployments db after

theorem Swept.rows {projectId : Uuid} {environment : Environment} {after : Database}
    (sweep : Swept projectId environment db after) :
    Rows (fun row next => next = if row ∈ environmentRows db projectId environment then
      swept (desired db projectId environment) row else row) db after where
  kept k row found := ⟨_,by rw [sweep.find,found,Option.map_some],rfl⟩
  added k next missing found := by
    rw [sweep.find,missing] at found
    cases found

theorem Swept.reconciled {projectId : Uuid} {environment : Environment} {after : Database}
    (sweep : Swept projectId environment db after) : Reconciled db after := by
  refine ⟨sweep.rows.mono ?_ fun _ impossible => impossible,sweep.rest⟩
  intro row next _ same
  subst same
  split
  · rename_i member
    unfold swept
    split
    · exact .inl rfl
    · rename_i undesired
      exact .inr ⟨retirable_of_undesired member undesired,rfl⟩
  · exact .inl rfl

theorem reconcileEnvironment_ensures {projectId : Uuid} {environment : Environment} :
    Ensures (reconcileEnvironment instant projectId environment) db fun _ after => Reconciled db after :=
  reconcileEnvironment_swept.mono fun _ _ sweep => sweep.reconciled

private theorem unassign_entries (row : Deployment) : (unassign row).entries = row.entries := rfl

private theorem reconcileItem_succeeds {desired : List Uuid} {item row : Deployment} {state : Database}
    (found : state.deployments.find item.id = some row) :
    Succeeds (reconcileItem instant desired item) state fun _ _ => True := by
  unfold reconcileItem
  split
  · simp only [succeeds_pure]
  split
  · simp only [succeeds_pure]
  unfold retire
  simp only [succeeds_bind,succeeds_pure]
  split
  · simp only [write,succeeds_pure,succeeds_mapError]
    have writes : Succeeds (updateDeployment item.id unassign fun _ => rfl) state (Wrote item.id unassign state) :=
      updateDeployment_succeeds found (by rw [unassign_entries])
    exact writes.mono fun _ _ _ => trivial
  · rename_i serving
    simp only [transition,write,succeeds_mapError]
    have allowed : canTransitionServe item.serveStatus .retired := by
      cases serve : item.serveStatus <;> first | rfl | exact absurd serve serving
    refine (transitionServe_succeeds found allowed).mono ?_
    intro updated middle wrote
    obtain ⟨old,present,same,now⟩ := wrote.row
    rw [wrote.key fun row => setServe_id _ row _]
    have writes : Succeeds (updateDeployment item.id unassign fun _ => rfl) middle (Wrote item.id unassign middle) :=
      updateDeployment_succeeds now (by rw [unassign_entries])
    exact writes.mono fun _ _ _ => trivial

private theorem reconcileItems_succeeds {desired : List Uuid} (items : List Deployment) {state : Database}
    (distinct : (items.map Deployment.id).Nodup) (found : ∀ item ∈ items, state.deployments.find item.id = some item) :
    Succeeds (forM items (reconcileItem instant desired)) state fun _ _ => True := by
  induction items generalizing state with
  | nil =>
    rw [List.forM_nil,succeeds_pure]
    trivial
  | cons item rest ih =>
    obtain ⟨fresh,apart⟩ := List.nodup_cons.mp distinct
    have here := found item List.mem_cons_self
    rw [List.forM_cons,succeeds_bind]
    refine ((reconcileItem_succeeds here).and_ensures (reconcileItem_ensures here)).mono ?_
    intro _ middle ⟨_,_,round⟩
    refine ih apart ?_
    intro other member
    have different : other.id ≠ item.id := fun same => fresh (same ▸ List.mem_map_of_mem member)
    rw [round,if_neg different,found other (List.mem_cons_of_mem item member)]

theorem reconcileEnvironment_succeeds {projectId : Uuid} {environment : Environment} :
    Succeeds (reconcileEnvironment instant projectId environment) db fun _ after => Reconciled db after := by
  have total : Succeeds (reconcileEnvironment instant projectId environment) db fun _ _ => True := by
    unfold reconcileEnvironment
    simp only [succeeds_bind,succeeds_query]
    exact reconcileItems_succeeds _ (environmentRows_distinct projectId environment) fun item => environmentRows_found
  exact (total.and_ensures reconcileEnvironment_ensures).mono fun _ _ both => both.2

/-! What each operation committed. -/

@[simp] theorem ensures_lockedRow (id : Uuid) (post : Deployment → Database → Prop) :
    Ensures (lockedRow id) db post ↔ ∀ row, getByIdForUpdate db id = some row → post row db := by
  simp only [lockedRow,ensures_bind,ensures_query,ensures_orElse]

@[simp] theorem succeeds_lockedRow (id : Uuid) (post : Deployment → Database → Prop) :
    Succeeds (lockedRow id) db post ↔ ∃ row, getByIdForUpdate db id = some row ∧ post row db := by
  simp only [lockedRow,succeeds_bind,succeeds_query,succeeds_orElse]

theorem locked_id {id : Uuid} {row : Deployment} (locked : getByIdForUpdate db id = some row) : row.id = id :=
  Table.find_key (getByIdForUpdate_eq_some.mp locked).1

theorem retire_ensures {item : Deployment} (current : db.deployments.find item.id = some item) :
    Ensures (retire instant item) db fun updated after =>
      Wrote item.id (fun row => { row with serveStatus := .retired }) db updated after := by
  unfold retire
  split
  · rename_i already
    rw [ensures_pure]
    refine ⟨?_,?_,OnlyDeployments.refl db⟩
    · rw [current,Option.map_some,← already]
    · intro k
      by_cases chosen : k = item.id
      · rw [if_pos chosen,chosen,current,Option.map_some,← already]
      · rw [if_neg chosen]
  · simp only [transition,ensures_mapError]
    exact transitionServe_ensures.mono fun _ _ both => both.2

structure UnsuccessfulBuild (instant : Instant) (id : Uuid) (change : BuildTransition) (db : Database)
    (updated : Deployment) (after : Database) : Prop where
  terminal : change.target = .failed ∨ change.target = .canceled
  edge : ∃ row, getByIdForUpdate db id = some row ∧ canTransitionBuild row.buildStatus change.target
  rows : Rows (fun row next => Settled (if row.id = id then setBuild instant.now change row else row) next) db after
  rest : OnlyDeployments db after
  updated : after.deployments.find id = some updated

theorem transitionUnsuccessfulBuild_ensures {target : Deployment} {change : BuildTransition} :
    Ensures (transitionUnsuccessfulBuild instant target change) db
      (UnsuccessfulBuild instant target.id change db) := by
  unfold transitionUnsuccessfulBuild
  simp only [ensures_bind,ensures_require,ensures_lockedRow,transition,ensures_mapError,ensures_query,ensures_orElse]
  intro terminal row locked
  refine transitionBuild_ensures.mono ?_
  rintro changed middle ⟨edge,wrote⟩
  rw [locked_id locked] at wrote ⊢
  refine reconcileEnvironment_ensures.mono ?_
  intro _ after so updated found
  exact ⟨terminal,⟨row,locked,edge⟩,wrote.evolves.andThen so.rows,wrote.rest.trans so.rest,found⟩

theorem transitionUnsuccessfulBuild_succeeds {target row : Deployment} {change : BuildTransition}
    (terminal : change.target = .failed ∨ change.target = .canceled)
    (current : getByIdForUpdate db target.id = some row) (edge : canTransitionBuild row.buildStatus change.target) :
    Succeeds (transitionUnsuccessfulBuild instant target change) db fun _ _ => True := by
  unfold transitionUnsuccessfulBuild
  simp only [succeeds_bind,succeeds_require,succeeds_lockedRow,transition,succeeds_mapError,succeeds_query,
    succeeds_orElse]
  have key := locked_id current
  have found : db.deployments.find row.id = some row := by
    rw [key]
    exact (getByIdForUpdate_eq_some.mp current).1
  refine ⟨terminal,row,current,(transitionBuild_succeeds found edge).mono ?_⟩
  intro changed middle wrote
  obtain ⟨_,_,_,stored⟩ := wrote.row
  refine reconcileEnvironment_succeeds.mono ?_
  intro _ after settled
  obtain ⟨next,reached,_⟩ := settled.rows.kept row.id changed stored
  rw [key] at reached
  exact ⟨next,by rw [key]; exact reached,trivial⟩

def removedRow (kind : PublicationRemovalKind) (row : Deployment) : Deployment :=
  clearPendingRelease (retired (setRelease (publicationRemovalTarget kind) row))

structure Removed (id : Uuid) (kind : PublicationRemovalKind) (db after : Database) : Prop where
  may : ∃ row, getByIdForUpdate db id = some row ∧ MayRelease row (publicationRemovalTarget kind)
  rows : Rows (fun row next => Settled (if row.id = id then removedRow kind row else row) next) db after
  rest : OnlyDeployments db after

theorem removePublication_ensures {target : Deployment} {kind : PublicationRemovalKind} :
    Ensures (removePublication instant target kind) db fun removed after =>
      (∃ row, getByIdForUpdate db target.id = some row ∧ removed = row ∧ after = db ∧
        publicationRemovalIsComplete row.releaseStatus row.serveStatus kind) ∨
      Removed target.id kind db after ∧ removed.id = target.id := by
  unfold removePublication
  simp only [ensures_bind,ensures_lockedRow]
  intro row locked
  split
  · rename_i complete
    rw [ensures_pure]
    exact .inl ⟨row,locked,rfl,rfl,complete⟩
  simp only [ensures_bind,transition,write,ensures_mapError,ensures_pure]
  have key := locked_id locked
  refine transitionRelease_ensures.mono ?_
  rintro demoted middle ⟨may,first⟩
  rw [key] at first
  obtain ⟨current,present,same,stored⟩ := first.row
  obtain rfl : current = row := Option.some.inj (present.symm.trans (getByIdForUpdate_eq_some.mp locked).1)
  have demotedKey : demoted.id = target.id := first.key fun _ => rfl
  refine (retire_ensures (by rw [demotedKey]; exact stored)).mono ?_
  intro served later second
  rw [demotedKey] at second
  rw [second.key fun _ => rfl]
  refine updateDeployment_ensures.mono ?_
  intro removed last third
  refine reconcileEnvironment_ensures.mono ?_
  intro _ after so
  have wrote := (first.trans second).trans third
  have removedKey : removed.id = target.id := third.key fun _ => rfl
  exact .inr ⟨⟨⟨current,locked,may⟩,wrote.evolves.andThen so.rows,wrote.rest.trans so.rest⟩,removedKey⟩

structure ReleasedNow (instant : Instant) (id : Uuid) (reason : ReleaseReason) (actorUserId : Uuid)
    (db : Database) (locked activated : Deployment) (middle after : Database) : Prop where
  current : getByIdForUpdate db id = some locked
  free : pendingRelease db locked = none
  activation : Activated instant.now locked reason (some actorUserId) db activated middle
  settled : Reconciled middle after

structure ReleaseQueued (instant : Instant) (id : Uuid) (reason : ReleaseReason) (actorUserId : Uuid)
    (visibility : AuditEventVisibility) (db : Database) (locked queued : Deployment)
    (placement : Option Placement) (after : Database) : Prop where
  current : getByIdForUpdate db id = some locked
  free : pendingRelease db locked = none
  waiting : releaseRequestAction locked.serveStatus locked.serveNodeId.isSome = .queueSync
  placed : placement = none → locked.serveNodeId.isSome ∧ locked.serveStatus ≠ .retired
  rows : Rows (fun row next => Settled
    (if row.id = id then queueRelease instant placement reason actorUserId visibility row else row) next) db after
  rest : OnlyDeployments db after

theorem place_ensures {target : Deployment} :
    Ensures (place instant target) db fun placement after =>
      after = db ∧ (placement = none → target.serveNodeId.isSome ∧ target.serveStatus ≠ .retired) := by
  unfold place
  split
  · simp only [ensures_bind,ensures_ofExcept,ensures_get,ensures_mapError,ensures_pure]
    intro _ _ placement _
    exact ⟨trivial,fun impossible => absurd impossible (by simp)⟩
  · rename_i assigned
    rw [ensures_pure]
    exact ⟨rfl,fun _ => by simpa [not_or,← Option.isSome_iff_ne_none] using assigned⟩

theorem requestRelease_ensures {target : Deployment} {reason : ReleaseReason} {actorUserId : Uuid}
    {visibility : AuditEventVisibility} :
    Ensures (requestRelease instant target reason actorUserId visibility) db fun outcome after =>
      match outcome with
      | .activated activated => ∃ locked middle,
        ReleasedNow instant target.id reason actorUserId db locked activated middle after ∧ activated.id = target.id
      | .syncQueued queued => ∃ locked placement,
        ReleaseQueued instant target.id reason actorUserId visibility db locked queued placement after ∧
          queued.id = target.id := by
  unfold requestRelease
  simp only [ensures_bind,ensures_lockedRow,ensures_get,ensures_require]
  intro locked found free
  have free : pendingRelease db locked = none := by simpa using free
  have key := locked_id found
  cases action : releaseRequestAction locked.serveStatus locked.serveNodeId.isSome with
  | activate =>
    simp only [ensures_bind,transition,ensures_mapError,ensures_pure]
    refine activate_ensures.mono ?_
    intro activated middle activation
    refine reconcileEnvironment_ensures.mono ?_
    intro _ after settled
    exact ⟨locked,middle,⟨found,free,activation,settled⟩,activation.key.trans key⟩
  | queueSync =>
    simp only [ensures_bind,ensures_appendEvent,ensures_pure]
    refine place_ensures.mono ?_
    rintro placement middle ⟨same,placed⟩
    subst same
    unfold write
    rw [ensures_mapError,key]
    refine updateDeployment_ensures.mono ?_
    intro queued after wrote
    have wrote := wrote.appendEvent ⟨target.id,.release,"release waiting for Serve synchronization",
      [("reason",.string (releaseReasonValue reason)),("serve_node_id",.ofUuid queued.serveNodeId)]⟩
    refine reconcileEnvironment_ensures.mono ?_
    intro _ last settled
    refine ⟨locked,placement,?_,wrote.key fun row =>
      congrArg Identity.id (queueRelease_identity instant placement reason actorUserId visibility row)⟩
    exact ⟨found,free,action,placed,wrote.evolves.andThen settled.rows,wrote.rest.trans settled.rest⟩

structure Completed (instant : Instant) (target : Deployment) (reason : ReleaseReason) (db after : Database) : Prop where
  may : MayRelease target .active
  rows : Rows (fun row next => Settled
    (if row.id = target.id then clearPendingRelease (setRelease .active row)
      else activatedRow target.id ((previousActive db target).map Deployment.id) row) next) db after
  releases : after.releases = db.releases ++ [⟨target.projectId,target.id,target.environment,reason,
    target.pendingReleaseActorUserId,(previousActive db target).map Deployment.id,instant.now⟩]
  reviews : after.reviews = db.reviews
  audit : ∃ event, after.audit = db.audit ++ [event] ∧ event.action = releaseAuditAction reason false
  rest : OnlyReleases db after

private theorem Completed.of_parts {target activated cleared : Deployment} {reason : ReleaseReason}
    {middle later after : Database} {event : AuditEvent}
    (activation : Activated instant.now target reason target.pendingReleaseActorUserId db activated middle)
    (wrote : Wrote target.id clearPendingRelease middle cleared later) (settled : Reconciled later after)
    (named : event.action = releaseAuditAction reason false) :
    Completed instant target reason db { after with audit := after.audit ++ [event] } := by
  have kept := wrote.rest.trans settled.rest
  have rows := activation.evolves.andThen (wrote.evolves.andThen settled.rows)
  refine ⟨activation.may,?_,?_,?_,⟨event,?_,named⟩,?_⟩
  · refine rows.mono ?_ fun _ impossible => impossible
    intro row next _ step
    by_cases chosen : row.id = target.id
    · simpa [activatedRow,chosen,setRelease] using step
    · have other : (activatedRow target.id ((previousActive db target).map Deployment.id) row).id = row.id := by
        unfold activatedRow setRelease
        split
        · rfl
        · split <;> rfl
      rw [if_neg (by rw [other]; exact chosen)] at step
      rw [if_neg chosen]
      exact step
  · change after.releases = _
    rw [kept.releases,activation.releases]
  · change after.reviews = _
    rw [kept.reviews,activation.reviews]
  · change after.audit ++ _ = _
    rw [kept.audit,activation.audit]
  · have rest := activation.rest.trans kept.onlyReleases
    unfold OnlyReleases at *
    rw [rest]

theorem completePendingRelease_ensures {target : Deployment} :
    Ensures (completePendingRelease instant target) db fun _ after =>
      after = db ∧ (target.pendingReleaseReason = none ∨ target.serveStatus ≠ .ready) ∨
      ∃ reason, target.pendingReleaseReason = some reason ∧ Completed instant target reason db after := by
  unfold completePendingRelease
  cases pending : target.pendingReleaseReason with
  | none =>
    rw [ensures_pure]
    exact .inl ⟨rfl,.inl rfl⟩
  | some reason =>
    simp only
    split
    · rename_i unready
      rw [ensures_pure]
      exact .inl ⟨rfl,.inr unready⟩
    simp only [ensures_bind,transition,write,audit,ensures_mapError,ensures_modify,ensures_pure]
    refine activate_ensures.mono ?_
    intro activated middle activation
    rw [activation.key]
    refine updateDeployment_ensures.mono ?_
    intro cleared later wrote
    refine reconcileEnvironment_ensures.mono ?_
    intro _ after settled
    exact .inr ⟨reason,rfl,Completed.of_parts activation wrote settled rfl⟩

private theorem clearPendingRelease_entries (row : Deployment) :
    (clearPendingRelease row).entries.Sublist row.entries :=
  Identity.entries_sublist row.identity _ _ id (by simp [clearPendingRelease])

theorem completePendingRelease_succeeds {target : Deployment} {reason : ReleaseReason}
    (current : getByIdForUpdate db target.id = some target) (pending : target.pendingReleaseReason = some reason)
    (ready : target.serveStatus = .ready) (may : MayRelease target .active) :
    Succeeds (completePendingRelease instant target) db fun _ after => Completed instant target reason db after := by
  obtain ⟨found,live⟩ := getByIdForUpdate_eq_some.mp current
  have total : Succeeds (completePendingRelease instant target) db fun _ _ => True := by
    unfold completePendingRelease
    rw [pending]
    simp only [ready,ne_eq,not_true_eq_false,if_false]
    simp only [succeeds_bind,transition,write,audit,succeeds_mapError,succeeds_modify,succeeds_pure]
    refine (activate_succeeds found live may).mono ?_
    intro activated middle activation
    obtain ⟨row,present,same⟩ := activation.row
    have stored : middle.deployments.find target.id = some activated := by
      rw [activation.find,if_pos rfl,present,Option.map_some,same]
    rw [activation.key]
    refine (updateDeployment_succeeds stored (clearPendingRelease_entries activated)).mono ?_
    intro cleared later _
    exact reconcileEnvironment_succeeds.mono fun _ _ _ => trivial
  refine (total.and_ensures completePendingRelease_ensures).mono ?_
  rintro _ after ⟨_,outcome⟩
  rcases outcome with ⟨_,absent | unready⟩ | ⟨other,same,done⟩
  · rw [pending] at absent
    cases absent
  · exact absurd ready unready
  · obtain rfl : reason = other := Option.some.inj (pending.symm.trans same)
    exact done

end Specifications

end GrassWorker.Delivery
