import GrassWorker.ControlPlane.Runs
import GrassWorker.Features.Assignments

/-! Deployments of deleted projects: which of them nothing selects, and what has to be avoided
while a project is deleted for that to last. -/
namespace GrassWorker.ControlPlane
open Interleaving Runs Transaction Deployments Delivery Scheduler Assignments

def projectDeleted (db : Database) (projectId : Uuid) : Bool :=
  (db.projects.find projectId).any fun project => project.deletedAt.isSome

def endedBadly (build : BuildStatus) : Bool := build = .failed ∨ build = .canceled

/-- No consumer selects a deployment like this: its build has failed or been canceled, or it does
not wait for a build and is on no node. -/
def rests (db : Database) (id : Uuid) (lifecycle : Lifecycle) : Bool :=
  endedBadly lifecycle.build || lifecycle.build ≠ .pending && lifecycle.node = none && !shadowed db id

/-- A transaction after which some deployment of a deleted project does not rest. -/
def disturbs (db : Database) : Action → Bool
  | .deleteProject project _ => db.deployments.rows.any fun row =>
    row.projectId = project && !rests db row.id row.lifecycle
  | .create params _ _ => projectDeleted db params.project.id
  | .activate .release deployment reason actor =>
    targets db (.activate .release deployment reason actor) fun row =>
      projectDeleted db row.projectId && !endedBadly row.buildStatus
  | .decide deployment true reviewer reason => targets db (.decide deployment true reviewer reason) fun row =>
    projectDeleted db row.projectId && !endedBadly row.buildStatus
  | .republish deployment actor reason => targets db (.republish deployment actor reason) fun row =>
    projectDeleted db row.projectId && !endedBadly row.buildStatus
  | .report owned status body => (status = .queued || status = .building) &&
    targets db (.report owned status body) fun row =>
      projectDeleted db row.projectId && (row.serveNodeId.isSome || shadowed db row.id)
  | _ => false

structure Unused (db : Database) (id : Uuid) : Prop where
  unlisted : ∀ candidate ∈ Claim.candidates db, candidate.id ≠ id
  unclaimed : ∀ instant node candidate after, candidate.id = id →
    Claim.claim instant node candidate db ≠ .ok (.claimed,after)
  unrouted : ∀ requestingNode list, Routes.routes db requestingNode = .ok list → ∀ route ∈ list, route.deploymentId ≠ id
  unassigned : ∀ node list, assignments db node = .ok list → ∀ assignment ∈ list, assignment.deploymentId ≠ id
  uncharged : ∀ node, ∀ row ∈ usedBy db node ++ shadowOf db node, row.id ≠ id

def DeletedUnused (db : Database) : Prop :=
  ∀ row ∈ db.deployments.rows, projectDeleted db row.projectId → Unused db row.id

def DeletedRest (db : Database) : Prop :=
  ∀ row ∈ db.deployments.rows, projectDeleted db row.projectId → rests db row.id row.lifecycle

instance (db : Database) : Decidable (DeletedRest db) := inferInstanceAs (Decidable (∀ row ∈ _, _))

section Consumers
variable {db : Database} {row : Deployment}

theorem rests_cases {id : Uuid} {lifecycle : Lifecycle} (rest : rests db id lifecycle) :
    endedBadly lifecycle.build ∨ lifecycle.build ≠ .pending ∧ lifecycle.node = none ∧ shadowed db id = false := by
  simpa [rests,and_assoc] using rest

theorem claimed_pending {instant : Instant} {node : Uuid} {candidate : Deployment} {after : Database}
    (found : db.deployments.find candidate.id = some row)
    (claimed : Claim.claim instant node candidate db = .ok (.claimed,after)) : row.buildStatus = .pending := by
  have ran : (Action.claim node candidate).run instant db = .ok (.claim .claimed,after) := by
    simp only [Action.run,bind_apply,claimed]
    rfl
  obtain ⟨demoted,effect⟩ := commits instant (.claim node candidate) db _ _ ran
  have key : row.id = candidate.id := Table.find_key found
  rw [← key] at found
  obtain ⟨next,mid,_,_,step,_⟩ := effect.target_row found (by simp [Action.target,key])
  cases step with
  | claimed waiting => exact waiting
  | unclaimed lost => exact absurd rfl lost

theorem ready_ends_well {build : BuildStatus} (ready : build = .ready) : endedBadly build = false := by
  subst ready
  rfl

theorem unused_of_rests (member : row ∈ db.deployments.rows) (rest : rests db row.id row.lifecycle) : Unused db row.id := by
  have own {other : Deployment} (inside : other ∈ db.deployments.rows) (same : other.id = row.id) : other = row :=
    db.deployments.same_of_key inside member same
  have waits : row.buildStatus ≠ .pending := by
    intro pending
    rcases rests_cases rest with bad | ⟨built,_⟩
    · rw [show row.lifecycle.build = .pending from pending] at bad
      cases bad
    · exact built pending
  have placed (good : endedBadly row.buildStatus = false) : row.serveNodeId = none ∧ shadowed db row.id = false := by
    rcases rests_cases rest with bad | ⟨_,node,free⟩
    · rw [show row.lifecycle.build = row.buildStatus from rfl,good] at bad
      cases bad
    · exact ⟨node,free⟩
  constructor
  · intro candidate listed same
    obtain ⟨inside,claimable⟩ := candidates_mem listed
    obtain rfl := own inside same
    simp only [Claim.claimable,decide_eq_true_eq] at claimable
    exact waits claimable.1
  · intro instant node candidate after same claimed
    exact waits (claimed_pending (same ▸ Table.find_of_mem member) claimed)
  · intro requestingNode list snapshot route listed same
    have entry : route.entry ∈ list.map Routes.ServeRoute.entry := List.mem_map_of_mem listed
    obtain ⟨other,inside,key,routed⟩ := (Routes.mem_entries_routes snapshot).mp entry
    obtain rfl := own inside (key.symm.trans same)
    obtain ⟨eligible,assigned⟩ : Routes.routable other ∧ (Routes.assignedNode db other).isSome := by
      rcases routed with ⟨shown,_⟩ | ⟨_,_,shown,_⟩ <;> exact ⟨shown.eligible,shown.assigned⟩
    simp only [Routes.routable,decide_eq_true_eq] at eligible
    rw [Routes.assignedNode,(placed (ready_ends_well eligible.1)).1] at assigned
    cases assigned
  · intro node list answered assignment listed same
    obtain ⟨other,inside,key,ready,place⟩ := assignments_spec answered listed
    obtain rfl := own inside (key.symm.trans same)
    obtain ⟨off,free⟩ := placed (ready_ends_well ready)
    rw [off,free] at place
    rcases place with impossible | impossible <;> cases impossible
  · intro node other listed same
    rcases List.mem_append.mp listed with here | coming
    · obtain ⟨inside,facts⟩ := List.mem_filter.mp here
      obtain rfl := own inside same
      simp only [occupies,decide_eq_true_eq] at facts
      have good : endedBadly other.buildStatus = false := by simp [endedBadly,facts.2.2.1,facts.2.2.2.1]
      rw [(placed good).1] at facts
      cases facts.1
    · obtain ⟨migration,moving,selected⟩ := List.mem_filterMap.mp coming
      split at selected
      · rename_i target
        obtain ⟨found,facts⟩ := Option.filter_eq_some_iff.mp selected
        obtain rfl := own (Table.find_mem found) same
        simp only [occupies,decide_eq_true_eq] at facts
        have good : endedBadly other.buildStatus = false := by simp [endedBadly,facts.2.2.1,facts.2.2.2.1]
        have shadow : shadowed db other.id := by
          refine List.any_eq_true.mpr ⟨migration,moving,?_⟩
          have active : ServeReports.isShadow migration.status := by
            cases status : migration.status <;> first | rfl | exact absurd status target.2
          simp [Table.find_key found,active]
        rw [(placed good).2] at shadow
        cases shadow
      · cases selected

end Consumers

/-! What a transaction leaves. -/

section Committed
variable {instant : Instant} {action : Action} {reply : Reply} {demoted : Option Uuid} {db after : Database}

theorem createProject_inserts {params : Hosts.CreateProjectParams} {actor : Uuid} :
    Ensures ((Action.createProject params actor).run instant) db fun _ after =>
      ∃ row : Project, db.projects.insert row = some after.projects ∧ row.deletedAt = none := by
  simp only [Action.run,Hosts.createProject,ensures_bind,ensures_write,ensures_createAuditEvent,ensures_pure]
  intro project after written
  obtain ⟨projects,inserted,written⟩ := Option.bind_eq_some_iff.mp written
  cases written
  exact ⟨_,inserted,rfl⟩

theorem projectDeleted_iff {projectId : Uuid} : projectDeleted db projectId ↔
    ∃ project, db.projects.find projectId = some project ∧ project.deletedAt.isSome := by
  unfold projectDeleted
  cases db.projects.find projectId <;> simp

theorem restoreProject_deleted {project actor : Uuid} :
    Ensures ((Action.restoreProject project actor).run instant) db fun _ _ => projectDeleted db project := by
  simp only [Action.run,ensures_acknowledge,Projects.restoreProject,ensures_bind,ensures_query,ensures_orElse,
    ensures_require]
  intro row found deleted
  exact fun _ _ _ _ _ _ => projectDeleted_iff.mpr ⟨row,found,deleted⟩

theorem projectDeleted_after (effect : Effect instant action reply demoted db after)
    (ran : action.run instant db = .ok (reply,after)) {projectId : Uuid} (deleted : projectDeleted after projectId) :
    projectDeleted db projectId ∨ ∃ actor, action = .deleteProject projectId actor := by
  obtain ⟨next,found,gone⟩ := projectDeleted_iff.mp deleted
  rcases effect.records.projects.origin found with ⟨row,present,_,same | ⟨actor,own⟩ | ⟨actor,own⟩⟩ | ⟨_,params,actor,rfl,_⟩
  · exact .inl (projectDeleted_iff.mpr ⟨row,present,same ▸ gone⟩)
  · rw [Table.find_key present] at own
    exact .inr ⟨actor,own⟩
  · rw [Table.find_key present] at own
    subst own
    exact .inl (restoreProject_deleted reply after ran)
  · obtain ⟨row,inserted,live⟩ := createProject_inserts reply after ran
    rw [Table.find_insert inserted] at found
    split at found
    · cases found
      rw [live] at gone
      cases gone
    · exact .inl (projectDeleted_iff.mpr ⟨next,found,gone⟩)

theorem shadowed_after (effect : Effect instant action reply demoted db after) {id : Uuid}
    (free : shadowed db id = false) : shadowed after id = false := by
  rw [shadowed,List.any_eq_false] at free ⊢
  intro next member coming
  obtain ⟨moving,active⟩ : next.deploymentId = id ∧ ServeReports.isShadow next.status := by simpa using coming
  rcases effect.records.migrations.origin (Table.find_of_mem member) with ⟨row,found,same,was⟩ | ⟨_,impossible⟩
  · exact free row (Table.find_mem found) (by simp [← same,moving,was active])
  · exact impossible

theorem rests_after (effect : Effect instant action reply demoted db after) {id : Uuid} {lifecycle : Lifecycle}
    (rest : rests db id lifecycle) : rests after id lifecycle := by
  rcases rests_cases rest with bad | ⟨waits,off,free⟩
  · simp [rests,bad]
  · simp [rests,waits,off,shadowed_after effect free]

section Lifecycles
variable {id : Uuid} {lifecycle next : Lifecycle}

/-- Queueing a release puts a deployment on a node, which is nothing to one whose build has ended badly. -/
theorem rests_requested {release : ReleaseStatus} (requested : Requested { lifecycle with release } next)
    (bad : endedBadly lifecycle.build) : rests db id next := by
  cases requested with
  | now _ built =>
    rw [ready_ends_well (show lifecycle.build = .ready from built)] at bad
    cases bad
  | queued => simp [rests,bad]

theorem rests_removed {kind : PublicationRemovalKind} (rest : rests db id lifecycle) :
    rests db id (removedLifecycle kind lifecycle) := by
  rcases rests_cases rest with bad | ⟨waits,_,free⟩
  · simp [rests,removedLifecycle,bad]
  · simp [rests,removedLifecycle,waits,free]

theorem unassigned_of_rests (rest : rests db id lifecycle) (built : lifecycle.build = .ready) : lifecycle.node = none := by
  rcases rests_cases rest with bad | ⟨_,off,_⟩
  · rw [ready_ends_well built] at bad
    cases bad
  · exact off

end Lifecycles

/-- A step of a transaction that does not disturb it keeps a deployment of a deleted project at rest. -/
theorem rests_step {row : Deployment} {mid : Lifecycle} {mode : Option ReviewMode}
    (found : db.deployments.find row.id = some row) (deleted : projectDeleted db row.projectId)
    (aimed : action.target = some row.id) (quiet : disturbs db action = false)
    (rest : rests db row.id row.lifecycle) (step : Step mode row.lifecycle action reply mid) : rests db row.id mid := by
  have released {other : Action} (same : other.target = some row.id) (passes : targets db other (fun row =>
      projectDeleted db row.projectId && !endedBadly row.buildStatus) = false) : endedBadly row.lifecycle.build := by
    have test := targets_false passes found same
    have bad : endedBadly row.buildStatus := by simpa [deleted] using test
    exact bad
  have off (built : row.lifecycle.build = .ready) {node : Uuid} (assigned : row.lifecycle.node = some node) : False := by
    rw [unassigned_of_rests rest built] at assigned
    cases assigned
  cases step with
  | staged | unclaimed | reviewRequested | migrating | rejected | resubmitted | alreadyWithdrawn | alreadyUnpublished |
    implemented => exact rest
  | @advanced owned status body early edge =>
    have passes : targets db (.report owned status body) (fun row =>
        projectDeleted db row.projectId && (row.serveNodeId.isSome || shadowed db row.id)) = false := by
      rcases early with rfl | rfl <;> simpa [disturbs] using quiet
    have test := targets_false passes found aimed
    obtain ⟨node,free⟩ : row.serveNodeId = none ∧ shadowed db row.id = false := by simpa [deleted] using test
    have running : status.target ≠ .pending := by rcases early with rfl | rfl <;> decide
    simp [rests,running,Deployment.lifecycle,node,free]
  | @ended owned status body terminal edge =>
    rcases terminal with rfl | rfl <;> simp [rests,endedBadly,Stage.ReportedStatus.target]
  | finished edge reviewed =>
    rcases rests_cases rest with bad | ⟨_,node,free⟩
    · have unready : row.lifecycle.build ≠ .ready := by
        intro ready
        rw [ready_ends_well ready] at bad
        cases bad
      have impossible := edge unready
      rcases of_decide_eq_true bad with failed | canceled
      · rw [failed] at impossible
        cases impossible
      · rw [canceled] at impossible
        cases impossible
    · simp [rests,node,free]
  | canceled | failed => simp [rests,endedBadly]
  | claimed waiting =>
    rcases rests_cases rest with bad | ⟨waits,_⟩
    · rw [waiting] at bad
      cases bad
    · exact absurd waiting waits
  | released requested => exact rests_requested requested (released aimed quiet)
  | synchronized assigned built => exact (off built assigned).elim
  | completed assigned built => exact (off built assigned).elim
  | autoActivated assigned built => exact (off built assigned).elim
  | approved edge built requested => exact rests_requested requested (released aimed quiet)
  | republished built may requested => exact rests_requested requested (released aimed quiet)
  | republishedRejected built auto rejected requested => exact rests_requested requested (released aimed quiet)
  | withdrawn edge | unpublished edge => exact rests_removed rest

theorem DeletedRest.commit (effect : Effect instant action reply demoted db after)
    (ran : action.run instant db = .ok (reply,after)) (quiet : disturbs db action = false) (sound : DeletedRest db) :
    DeletedRest after := by
  have was (row : Deployment) (member : row ∈ db.deployments.rows) (deleted : projectDeleted after row.projectId) :
      rests db row.id row.lifecycle := by
    rcases projectDeleted_after effect ran deleted with before | ⟨actor,rfl⟩
    · exact sound row member before
    · simp only [disturbs,List.any_eq_false,Bool.and_eq_true,decide_eq_true_eq,Bool.not_eq_true',not_and,
        Bool.not_eq_false] at quiet
      exact quiet row member rfl
  let good (identity : Identity) (lifecycle : Lifecycle) : Prop :=
    projectDeleted after identity.project → rests after identity.id lifecycle
  refine @Effect.rows_transfer (fun identity lifecycle =>
    projectDeleted after identity.project → rests db identity.id lifecycle) good _ _ _ _ _ _ effect ?_ ?_ ?_ ?_ ?_ was
  · intro row born deleted
    obtain ⟨params,selectedNode,region,placement,rfl,rfl,_⟩ := born
    rcases projectDeleted_after effect ran deleted with before | ⟨_,impossible⟩
    · rw [disturbs] at quiet
      exact absurd before (by rw [show (Projects.newDeployment instant params placement).identity.project =
        params.project.id from rfl,quiet]; decide)
    · cases impossible
  · intro row mid found aimed kept step deleted
    have before : projectDeleted db row.projectId := by
      rcases projectDeleted_after effect ran deleted with before | ⟨_,rfl⟩
      · exact before
      · cases aimed
    exact rests_after effect (rests_step found before aimed quiet (kept deleted) step)
  · intro row _ _ kept deleted
    exact rests_after effect (kept deleted)
  · intro row _ kept deleted
    exact kept deleted
  · intro identity lifecycle _ _ kept deleted
    rcases rests_cases (kept deleted) with bad | ⟨waits,_,free⟩
    · simp [rests,bad]
    · simp [rests,waits,free]

end Committed

/-! Runs. -/

abbrev Undisturbed (state : State) (event : Happening) : Prop := Acting (Spares disturbs) state event

theorem DeletedRest.step (state : State) (event : Happening) (sound : DeletedRest state.shared.db)
    (meets : Undisturbed state event) : DeletedRest (machine.step state event).shared.db := by
  refine step_property sound ?_ meets
  intro input handler action reply after _ spares commit
  obtain ⟨demoted,effect⟩ := commit.effect
  exact sound.commit effect commit.runs (spares.commit commit)

theorem DeletedRest.unused {db : Database} (sound : DeletedRest db) : DeletedUnused db :=
  fun row member deleted => unused_of_rests member (sound row member deleted)

/-- Nothing selects a deployment of a deleted project, if projects are deleted only when their deployments
are at rest and no transaction disturbs one afterwards. -/
theorem deleted_unused_of_undisturbed (world : World) (events : List Happening) (start : DeletedRest world.db)
    (undisturbed : Along machine.step Undisturbed (idle world) events) :
    Throughout machine.step (fun state => DeletedUnused state.shared.db) (idle world) events :=
  throughout_of_invariant (fun state event => DeletedRest.step state event) (fun _ sound => sound.unused)
    (idle world) events start undisturbed

section Examples
open Sample

def deletes (project : Uuid) : List Happening := serially (.project project (.delete 9)) 0 2

def deletedWaiting : List Happening := createsProject "shop" 3 ++ creates 3 1 ++ deletes 3

def deletedServing : List Happening := createsSource "example" ++ publishes "shop" 3 1 ++ deletes 3

def afterwards (events : List Happening) : State := run machine.step (idle opened) events

theorem deleted_project_is_still_used :
    ((afterwards deletedWaiting).inflight = [] ∧ projectDeleted (afterwards deletedWaiting).shared.db 3 ∧
      (usedBy (afterwards deletedWaiting).shared.db 7).map Deployment.id = [1] ∧
      ((afterwards (deletedWaiting ++ claims)).shared.db.deployments.find 1).map (·.buildStatus) = some .claimed) ∧
    ((afterwards deletedServing).inflight = [] ∧ projectDeleted (afterwards deletedServing).shared.db 3 ∧
      (usedBy (afterwards deletedServing).shared.db 7).map Deployment.id = [1] ∧
      (Routes.routes (afterwards deletedServing).shared.db node).map (fun list => list.map Routes.ServeRoute.entry) =
        .ok [("shop-00000001.example",.teamOrPlatformAdmin,1)]) ∧
    ¬DeletedUnused (afterwards deletedWaiting).shared.db := by
  refine ⟨by decide,by decide +kernel,?_⟩
  intro unused
  have waiting : ∃ row ∈ (afterwards deletedWaiting).shared.db.deployments.rows, row.projectId = 3 ∧
      row ∈ Claim.candidates (afterwards deletedWaiting).shared.db := by decide
  obtain ⟨row,member,project,listed⟩ := waiting
  have deleted : projectDeleted (afterwards deletedWaiting).shared.db row.projectId := by
    rw [project]
    decide
  exact (unused row member deleted).unlisted row listed rfl

/-- The deployment is canceled before its project is deleted. -/
theorem deleted_unused_canceled_first :
    Throughout machine.step (fun state => DeletedUnused state.shared.db) (idle opened)
      (createsProject "shop" 3 ++ creates 3 1 ++ serially (.project 3 (.cancel 1 9)) 0 6 ++ deletes 3) :=
  deleted_unused_of_undisturbed _ _ (by decide) (by decide +kernel)

end Examples

end GrassWorker.ControlPlane
