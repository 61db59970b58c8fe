import GrassWorker.ControlPlane.BuildStatus

/-! Releases that wait for their deployment to be synchronized: what a waiting
deployment looks like in every state, and that its node's reports end the wait. -/
namespace GrassWorker.ControlPlane
open Interleaving Runs Transaction Deployments Delivery Handling ServeReports

def releasable (release : ReleaseStatus) : Bool := release = .draft ∨ release = .approved

structure Awaitable (lifecycle : Lifecycle) : Prop where
  built : lifecycle.build = .ready
  assigned : lifecycle.node.isSome
  kept : lifecycle.serve ≠ .retired
  unready : lifecycle.serve ≠ .ready
  may : releasable lifecycle.release

def Queued (lifecycle : Lifecycle) : Prop := lifecycle.pending.isSome → Awaitable lifecycle

/-- A transaction that would leave a waiting deployment without a way to its release. -/
def strands (mode : Option ReviewMode) (lifecycle : Lifecycle) : Action → Bool
  | .report owned status _ => lifecycle.pending.isSome &&
    match status with
    | .queued | .building => canTransitionBuild owned.row.buildStatus status.target
    | .ready => lifecycle.release = .draft && mode = some .manual
    | .failed | .canceled => false
  | .activate .requestReview _ _ _ => lifecycle.pending.isSome && canTransitionRelease lifecycle.release .pendingReview
  | .activate .release _ _ _ => releaseRequestAction lifecycle.serve lifecycle.node.isSome = .queueSync &&
    !(lifecycle.build = .ready && releasable lifecycle.release)
  | _ => false

/-- What `request_release` checks of a row before it writes: no other release waits in its
environment, and a node can be found for it if it is queued. -/
def grants (instant : Instant) (db : Database) (row : Deployment) : Bool :=
  (pendingRelease db row).isNone &&
    (releaseRequestAction row.serveStatus row.serveNodeId.isSome = .activate || (place instant row db).isOk)

def Action.grants (instant : Instant) (db : Database) (row : Deployment) : Action → Bool
  | .activate .release _ _ _ => ControlPlane.grants instant db row
  | _ => true

def blocks (instant : Instant) (db : Database) (action : Action) : Bool :=
  targets db action fun row =>
    strands (modeOf db row.identity) row.lifecycle action && action.grants instant db row

section Steps
variable {mode : Option ReviewMode} {lifecycle next : Lifecycle} {action : Action} {reply : Reply}

theorem Queued.of_none (free : lifecycle.pending = none) : Queued lifecycle := by
  intro waiting
  rw [free] at waiting
  cases waiting

theorem Queued.free (queued : Queued lifecycle) (unfit : ¬Awaitable lifecycle) : lifecycle.pending = none := by
  by_contra waiting
  exact unfit (queued (Option.isSome_iff_ne_none.mpr waiting))

theorem Queued.free_of_edge {target : BuildStatus} (queued : Queued lifecycle)
    (edge : canTransitionBuild lifecycle.build target) : lifecycle.pending = none := by
  refine queued.free fun awaitable => ?_
  rw [awaitable.built] at edge
  cases target <;> cases edge

theorem Queued.free_of_release (queued : Queued lifecycle) (stuck : releasable lifecycle.release = false) :
    lifecycle.pending = none := by
  refine queued.free fun awaitable => ?_
  have may := awaitable.may
  rw [stuck] at may
  cases may

theorem Requested.waits {base : Lifecycle} (requested : Requested base next)
    (fit : releaseRequestAction base.serve base.node.isSome = .queueSync →
      base.build = .ready ∧ releasable base.release) : Queued next := by
  cases requested with
  | now free ready served edge => exact .of_none free
  | queued free waiting unready assigned =>
    obtain ⟨built,may⟩ := fit waiting
    exact fun _ => ⟨built,rfl,assigned,unready,may⟩

theorem Step.queued (step : Step mode lifecycle action reply next) (was : Queued lifecycle)
    (closed : strands mode lifecycle action = false) : Queued next := by
  cases step with
  | @advanced owned status body early edge =>
    refine .of_none (?_ : lifecycle.pending = none)
    rcases early with rfl | rfl <;> simpa [strands,edge] using closed
  | ended terminal edge => exact .of_none (was.free_of_edge edge)
  | @finished owned body release edge reviewed =>
    by_cases free : lifecycle.pending = none
    · exact .of_none free
    have waiting : lifecycle.pending.isSome := Option.isSome_iff_ne_none.mpr free
    obtain ⟨built,assigned,kept,unready,may⟩ := was waiting
    rcases reviewed with rfl | ⟨manual,draft,rfl⟩
    · exact fun _ => ⟨rfl,assigned,kept,unready,may⟩
    · simp [strands,waiting,manual,draft] at closed
  | canceled edge => exact .of_none (was.free_of_edge edge)
  | claimed waiting => exact .of_none (was.free fun awaitable => by rw [awaitable.built] at waiting; cases waiting)
  | reviewRequested built edge =>
    refine .of_none (?_ : lifecycle.pending = none)
    simpa [strands,edge] using closed
  | released requested =>
    refine requested.waits fun waiting => ?_
    simpa [strands,waiting] using closed
  | @synchronized node enabled deployment sent assigned built edge free =>
    intro waiting
    obtain ⟨_,_,kept,unready,may⟩ := was waiting
    refine ⟨built,by rw [assigned]; rfl,?_,?_,may⟩
    · intro retired
      cases status : sent.status <;> rw [status] at retired <;> cases retired
    · intro ready
      have ended : sent.status = .ready := by
        cases status : sent.status <;> rw [status] at ready <;> first | rfl | cases ready
      rw [show lifecycle.pending = none from free ended] at waiting
      cases waiting
  | completed => exact .of_none rfl
  | autoActivated assigned built edge free auto draft => exact .of_none free
  | approved edge built requested => exact requested.waits fun _ => ⟨built,rfl⟩
  | rejected edge =>
    refine .of_none (was.free_of_release ?_)
    cases release : lifecycle.release <;> rw [release] at edge <;> first | rfl | cases edge
  | republished built may requested =>
    refine requested.waits fun _ => ⟨built,?_⟩
    rcases may with approved | ⟨_,draft⟩
    · rw [approved]
      rfl
    · rw [draft]
      rfl
  | republishedRejected built auto rejected requested => exact requested.waits fun _ => ⟨built,rfl⟩
  | resubmitted built served manual edge =>
    refine .of_none (was.free fun awaitable => ?_)
    exact served.elim awaitable.unready awaitable.kept
  | withdrawn | unpublished => exact .of_none rfl
  | failed unimplemented edge => exact .of_none (was.free_of_edge edge)
  | _ => exact was

end Steps

section Commits
variable {input : Input} {world : World} {handler : Handler} {action : Action} {reply : Reply}
  {demoted : Option Uuid} {after : Database}

theorem activate_grants {instant : Instant} {db : Database} {deployment : Deployment} {reason : ReleaseReason}
    {actor : Uuid} : Ensures ((Action.activate .release deployment reason actor).run instant) db fun _ _ =>
      ∃ row, getByIdForUpdate db deployment.id = some row ∧ grants instant db row := by
  simp only [Action.run,ensures_acknowledge,Activation.activate,ensures_bind,ensures_ofDelivery,
    ensures_createAuditEvent,ensures_pure]
  unfold requestRelease
  rw [ensures_bind,ensures_lockedRow]
  intro locked current
  simp only [ensures_bind,ensures_get,ensures_require]
  intro free
  cases chosen : releaseRequestAction locked.serveStatus locked.serveNodeId.isSome with
  | activate =>
    refine ensures_of_holds _ ⟨locked,current,?_⟩
    simp [grants,free,chosen]
  | queueSync =>
    rw [ensures_bind]
    intro placement middle placed
    refine ensures_of_holds _ ⟨locked,current,?_⟩
    simp [grants,free,placed,Except.isOk,Except.toBool]

theorem Commit.grants {row : Deployment} (commit : Commit input world.db handler action reply after)
    (found : world.db.deployments.find row.id = some row) (aimed : action.target = some row.id) :
    action.grants input.instant world.db row := by
  cases action with
  | activate chosen deployment reason actor =>
    cases chosen with
    | requestReview => rfl
    | release =>
      obtain ⟨locked,current,granted⟩ := activate_grants _ _ commit.runs
      have same : deployment.id = row.id := Option.some.inj aimed
      rw [same] at current
      obtain rfl : row = locked := Option.some.inj (found.symm.trans (getByIdForUpdate_eq_some.mp current).1)
      exact granted
  | _ => rfl

theorem queued_effect (avoids : Avoids (blocks input.instant) input world handler)
    (commit : Commit input world.db handler action reply after)
    (effect : Effect input.instant action reply demoted world.db after)
    (queued : ∀ row ∈ world.db.deployments.rows, Queued row.lifecycle) :
    ∀ row ∈ after.deployments.rows, Queued row.lifecycle := by
  have permitted := avoids.commit commit
  refine effect.rows_invariant ?_ ?_ ?_ ?_ queued
  · rintro row ⟨params,selectedNode,region,placement,_,rfl,_⟩
    exact .of_none rfl
  · intro row mid found aimed was step
    refine step.queued was ?_
    have permitted := targets_false permitted found aimed
    rwa [commit.grants found aimed,Bool.and_true] at permitted
  · intro lifecycle active was
    exact .of_none (was.free_of_release (by rw [active]; rfl))
  · intro lifecycle _ free _
    exact .of_none free

end Commits

/-! The reports of the node. -/

structure Finished (id : Uuid) (after : Database) : Prop where
  row : ∃ next, after.deployments.find id = some next ∧ next.releaseStatus = .active ∧
    next.pendingReleaseReason = none ∧ next.pendingReleaseActorUserId = none ∧
    next.pendingReleaseAuditVisibility = none ∧ next.pendingReleaseRequestedAt = none

def syncing : Report := { status := .syncing }

def ready : Report := { status := .ready }

section Reports
variable {instant : Instant} {db : Database} {row : Deployment} {node : Uuid}

theorem reportStatus_succeeds {sent : Report} {post : Unit → Database → Prop}
    (current : getByIdForUpdate db row.id = some row) (assigned : row.serveNodeId = some node)
    (valid : validateStatusReport sent = .ok ()) (reports : Succeeds (reportAssigned instant node row sent) db post) :
    Succeeds (reportStatus instant node true row.id sent) db post := by
  unfold reportStatus
  simp only [succeeds_bind,succeeds_require,succeeds_mapError,succeeds_ofExcept,succeeds_lockedDeployment,
    succeeds_query]
  refine ⟨trivial,(),valid,row,current,?_⟩
  cases shadowMigration db node row.id with
  | none => exact reports
  | some migration =>
    simp only [assigned,ne_eq,not_true_eq_false,if_false]
    exact reports

theorem syncing_succeeds (current : getByIdForUpdate db row.id = some row) (assigned : row.serveNodeId = some node)
    (built : row.buildStatus = .ready) (edge : canTransitionServe row.serveStatus .syncing) :
    Succeeds (reportStatus instant node true row.id syncing) db fun _ after =>
      after.deployments.find row.id = some (setServe instant.now { target := .syncing } row) := by
  refine reportStatus_succeeds current assigned rfl ?_
  unfold reportAssigned
  simp only [succeeds_bind,succeeds_require,succeeds_ofState]
  have found := (getByIdForUpdate_eq_some.mp current).1
  refine ⟨assigned,built,(transitionServe_succeeds found edge).mono ?_⟩
  intro updated after wrote
  obtain ⟨origin,present,same,stored⟩ := wrote.row
  obtain rfl : row = origin := Option.some.inj (found.symm.trans present)
  rw [if_neg (by decide),succeeds_pure,stored,← same]
  rfl

theorem mayRelease_of_releasable (built : row.buildStatus = .ready) (served : row.serveStatus = .ready)
    (may : releasable row.releaseStatus) : MayRelease row .active := by
  have may : row.releaseStatus = .draft ∨ row.releaseStatus = .approved := of_decide_eq_true may
  constructor
  · rcases may with same | same <;> rw [same] <;> rfl
  · rw [built,served]
    rcases may with same | same <;> rw [same] <;> rfl

theorem ready_succeeds (row : Deployment) (current : getByIdForUpdate db row.id = some row) (assigned : row.serveNodeId = some node)
    (waiting : row.pendingReleaseReason.isSome) (built : row.buildStatus = .ready)
    (may : releasable row.releaseStatus) (synchronizing : row.serveStatus = .syncing) :
    Succeeds (reportStatus instant node true row.id ready) db fun _ after => Finished row.id after := by
  refine reportStatus_succeeds current assigned rfl ?_
  unfold reportAssigned
  simp only [succeeds_bind,succeeds_require,succeeds_ofState]
  obtain ⟨found,live⟩ := getByIdForUpdate_eq_some.mp current
  refine ⟨assigned,built,(transitionServe_succeeds found (by rw [synchronizing]; rfl)).mono ?_⟩
  intro served middle wrote
  obtain ⟨origin,present,same,stored⟩ := wrote.row
  obtain rfl : row = origin := Option.some.inj (found.symm.trans present)
  obtain ⟨reason,pending⟩ := Option.isSome_iff_exists.mp waiting
  have key : served.id = row.id := wrote.key fun row => setServe_id _ row _
  have awaited : served.pendingReleaseReason = some reason := by
    rw [← same]
    exact pending
  have now : getByIdForUpdate middle served.id = some served := by
    rw [key]
    refine getByIdForUpdate_eq_some.mpr ⟨stored,?_⟩
    rw [← same]
    exact live
  have permitted : MayRelease served .active := by
    rw [← same]
    exact mayRelease_of_releasable built rfl may
  have served' : served.serveStatus = .ready := by
    rw [← same]
    rfl
  simp only [ready,if_true,Activation.completeServeReady,awaited,Option.isSome_some,succeeds_bind,succeeds_ofDelivery,
    succeeds_ofReconcile]
  refine (completePendingRelease_succeeds now awaited served' permitted).mono ?_
  intro _ later done
  refine (reconcileEnvironment_succeeds).mono ?_
  intro _ after settled
  obtain ⟨next,reached,step⟩ := done.rows.kept row.id served stored
  obtain ⟨last,final,rest⟩ := settled.rows.kept row.id next reached
  rw [if_pos rfl] at step
  refine ⟨last,final,?_⟩
  rcases rest with rfl | ⟨_,rfl⟩ <;> rcases step with rfl | ⟨_,rfl⟩ <;> exact ⟨rfl,rfl,rfl,rfl,rfl⟩

end Reports

/-- A deployment with a pending release is built, assigned and not retired, and it becomes
Active when its node reports Syncing, unless it has done so already, and then Ready. -/
structure CanFinish (db : Database) (row : Deployment) : Prop where
  built : row.buildStatus = .ready
  assigned : row.serveNodeId.isSome
  kept : row.serveStatus ≠ .retired
  may : row.releaseStatus = .draft ∨ row.releaseStatus = .approved
  synchronizes : row.serveStatus ≠ .syncing → ∀ node instant, row.serveNodeId = some node →
    Succeeds (reportStatus instant node true row.id syncing) db fun _ synchronized =>
      ∀ later, Succeeds (reportStatus later node true row.id ready) synchronized fun _ after => Finished row.id after
  finishes : row.serveStatus = .syncing → ∀ node instant, row.serveNodeId = some node →
    Succeeds (reportStatus instant node true row.id ready) db fun _ after => Finished row.id after

theorem canFinish_of_queued {db : Database} {row : Deployment} (member : row ∈ db.deployments.rows)
    (live : row.deletedAt = none) (waiting : row.pendingReleaseReason.isSome) (queued : Queued row.lifecycle) :
    CanFinish db row := by
  obtain ⟨built,assigned,kept,unready,may⟩ := queued waiting
  have current : getByIdForUpdate db row.id = some row :=
    getByIdForUpdate_eq_some.mpr ⟨Table.find_of_mem member,live⟩
  refine ⟨built,assigned,kept,of_decide_eq_true may,?_,?_⟩
  · intro unsynced node instant held
    have edge : canTransitionServe row.serveStatus .syncing := by
      have kept : row.serveStatus ≠ .retired := kept
      cases serve : row.serveStatus with
      | syncing => exact absurd serve unsynced
      | retired => exact absurd serve kept
      | _ => rfl
    refine (syncing_succeeds current held built edge).mono ?_
    intro _ synced found later
    have now : getByIdForUpdate synced row.id = some (setServe instant.now { target := .syncing } row) :=
      getByIdForUpdate_eq_some.mpr ⟨found,live⟩
    exact ready_succeeds (setServe instant.now { target := .syncing } row) now held waiting built may rfl
  · intro synchronizing node instant held
    exact ready_succeeds row current held waiting built may synchronizing

abbrev AllQueued : State → Prop :=
  Tracked (fun db => ∀ row ∈ db.deployments.rows, Queued row.lifecycle) fun _ _ => True

abbrev AvoidsBlocks (input : Input) : World → Handler → Prop := Avoids (blocks input.instant) input

theorem allQueued_step (state : State) (event : Happening) (queued : AllQueued state)
    (meets : Acting AvoidsBlocks state event) : AllQueued (machine.step state event) := by
  refine tracked_step (fun _ _ _ _ => trivial) ?_ state event queued meets
  intro input world handler action reply demoted after avoids commit effect was _
  exact ⟨queued_effect avoids commit effect was,fun _ _ => trivial⟩

def ReleasesFinish (world : World) (events : List Happening) : Prop :=
  Throughout machine.step (fun state => ∀ row ∈ state.shared.db.deployments.rows, row.deletedAt = none →
    row.pendingReleaseReason.isSome → CanFinish state.shared.db row) (idle world) events

theorem releases_finish_of_avoided (world : World) (events : List Happening)
    (start : ∀ row ∈ world.db.deployments.rows, Queued row.lifecycle)
    (avoids : Along machine.step (Acting AvoidsBlocks) (idle world) events) : ReleasesFinish world events := by
  have initial : AllQueued (idle world) := ⟨start,fun _ member => by cases member⟩
  refine throughout_of_invariant allQueued_step ?_ (idle world) events initial avoids
  intro state queued row member live waiting
  exact canFinish_of_queued member live waiting (queued.state row member)

section Examples
open Sample

def retiredDraft : World :=
  reviewed "auto" (holding { deployment with buildStatus := .ready, serveStatus := .retired, serveNodeId := none })

def promoted : List Happening := .arrive (.project 3 (.activate 1 .promote 9)) :: steps 0 4

/-- The policy becomes Manual while it waits, and the Ready report of its build is sent once more. -/
def reviewedWhileWaiting : List Happening := promoted ++
  .arrive (.direct ⟨.setReviewPolicy (some ⟨some "manual",some "manual"⟩),rfl⟩) :: steps 0 2 ++
  .arrive (.node 7 (.stage 1 { status := some .ready })) :: steps 0 5

theorem reviewed_release_never_finishes : ¬ReleasesFinish retiredDraft reviewedWhileWaiting := by
  intro finish
  have stuck : ((run machine.step (idle retiredDraft) reviewedWhileWaiting).shared.db.deployments.find 1).map
      (fun row => (row.deletedAt,row.pendingReleaseReason.isSome,row.releaseStatus)) =
        some (none,true,.pendingReview) := by decide +kernel
  obtain ⟨row,found,same⟩ := Option.map_eq_some_iff.mp stuck
  have waiting : row.pendingReleaseReason.isSome = true := congrArg (·.2.1) same
  have review : row.releaseStatus = .pendingReview := congrArg (·.2.2) same
  have canFinish := finish.last row (Table.find_mem found) (congrArg Prod.fst same) waiting
  rcases canFinish.may with draft | approved
  · rw [review] at draft
    cases draft
  · rw [review] at approved
    cases approved

/-- The node's reports follow at once. -/
theorem releases_finish_promoted :
    ReleasesFinish retiredDraft (promoted ++ .arrive (.node 7 (.reportServe 1 syncing)) :: steps 0 2 ++
      .arrive (.node 7 (.reportServe 1 ready)) :: steps 0 2) := by
  refine releases_finish_of_avoided _ _ ?_ (by decide)
  intro row member
  obtain rfl := List.mem_singleton.mp member
  exact .of_none rfl

end Examples

end GrassWorker.ControlPlane
