import GrassWorker.ControlPlane.BuildStatus

/-! Active and pending releases over whole runs: what is Active, what the release
rows say, and whether a release that waits for its node can still be completed. -/
namespace GrassWorker.ControlPlane
open Interleaving Runs Transaction Deployments Delivery

/-! Active deployments. -/

structure SingleActive (db : Database) : Prop where
  active : ∀ first ∈ db.deployments.rows, ∀ second ∈ db.deployments.rows, first.deletedAt = none →
    second.deletedAt = none → first.releaseStatus = .active → second.releaseStatus = .active →
    first.projectId = second.projectId → first.environment = second.environment → first = second
  pending : ∀ first ∈ db.deployments.rows, ∀ second ∈ db.deployments.rows, first.deletedAt = none →
    second.deletedAt = none → first.pendingReleaseReason.isSome → second.pendingReleaseReason.isSome →
    first.projectId = second.projectId → first.environment = second.environment → first = second
  built : ∀ row ∈ db.deployments.rows, row.releaseStatus = .active → row.buildStatus = .ready

def ActiveBuilt (lifecycle : Lifecycle) : Prop := lifecycle.release = .active → lifecycle.build = .ready

/-- A Queued or Building report that its handler accepted, on a deployment that is Active. -/
def reopensActive (db : Database) : Action → Bool
  | .report owned status _ =>
    (status = .queued || status = .building) && canTransitionBuild owned.row.buildStatus status.target &&
      (db.deployments.find owned.row.id).any fun row => row.releaseStatus = .active
  | _ => false

/-- The release rows a transaction appends name the deployment that stopped being Active, and no other. -/
def NamesPrevious (db after : Database) : Prop :=
  ∃ entries, after.releases = db.releases ++ entries ∧ ∀ entry ∈ entries, ∀ id,
    entry.previousDeploymentId = some id ↔
      ∃ row next, db.deployments.find id = some row ∧ after.deployments.find id = some next ∧
        row.releaseStatus = .active ∧ next.releaseStatus ≠ .active

section Active
variable {mode : Option ReviewMode} {lifecycle next : Lifecycle} {action : Action} {reply : Reply}

theorem Settles.release (settles : Settles lifecycle next) : next.release = lifecycle.release := by
  rcases settles with rfl | ⟨_,_,rfl⟩ <;> rfl

theorem Requested.activeBuilt {base : Lifecycle} (requested : Requested base next) (built : ActiveBuilt base) :
    ActiveBuilt next := by
  cases requested with
  | now free ready served edge => exact fun _ => ready
  | queued free waiting unready assigned => exact built

theorem Step.activeBuilt (step : Step mode lifecycle action reply next) (built : ActiveBuilt lifecycle)
    (closed : Unchecked lifecycle.build action next.build → lifecycle.release ≠ .active) : ActiveBuilt next := by
  have unedged {target : BuildStatus} (edge : canTransitionBuild lifecycle.build target) :
      lifecycle.release ≠ .active := by
    intro active
    rw [built active] at edge
    cases target <;> cases edge
  cases step with
  | advanced early edge => exact fun active => absurd active (closed (.report early edge))
  | ended terminal edge => exact fun active => absurd active (unedged edge)
  | finished edge reviewed => exact fun _ => rfl
  | canceled edge => exact fun active => absurd active (unedged edge)
  | claimed waiting =>
    intro active
    rw [built active] at waiting
    cases waiting
  | released requested => exact requested.activeBuilt built
  | completed assigned ready edge pending may => exact fun _ => ready
  | autoActivated assigned ready edge free auto draft => exact fun _ => ready
  | approved edge ready requested => exact requested.activeBuilt fun _ => ready
  | republished ready may requested => exact requested.activeBuilt built
  | republishedRejected ready auto rejected requested => exact requested.activeBuilt fun _ => ready
  | failed unimplemented edge => exact fun active => absurd active (unedged edge)
  | reviewRequested | rejected | resubmitted =>
    intro active
    cases active
  | withdrawn | unpublished =>
    intro active
    cases active
  | _ => exact built

end Active

section Commits
variable {input : Input} {world : World} {handler : Handler} {action : Action} {reply : Reply}
  {demoted : Option Uuid} {after : Database}

theorem activeBuilt_effect (avoids : Avoids reopensActive input world handler)
    (commit : Commit input world.db handler action reply after)
    (effect : Effect input.instant action reply demoted world.db after)
    (built : ∀ row ∈ world.db.deployments.rows, ActiveBuilt row.lifecycle) :
    ∀ row ∈ after.deployments.rows, ActiveBuilt row.lifecycle := by
  have permitted := avoids.commit commit
  refine effect.rows_invariant ?_ ?_ ?_ ?_ built
  · rintro row ⟨params,selectedNode,region,placement,_,rfl,_⟩ active
    cases active
  · intro row mid found aimed was step
    refine step.activeBuilt was ?_
    intro unchecked
    generalize mid.build = target at unchecked
    cases unchecked with
    | @report owned status body early edge =>
      have same : owned.row.id = row.id := Option.some.inj aimed
      intro active
      have active : row.releaseStatus = .active := active
      simp [reopensActive,edge,same,found,active] at permitted
      exact early.elim permitted.1 permitted.2
  · intro lifecycle _ _ active
    cases active
  · intro lifecycle _ _ was
    exact was

theorem names_previous (effect : Effect input.instant action reply demoted world.db after) :
    NamesPrevious world.db after := by
  cases effect.recorded with
  | none same kept => exact ⟨[],by rw [same,List.append_nil],fun _ member => by cases member⟩
  | one entry appended previous target activated =>
    refine ⟨[entry],appended,fun item member id => ?_⟩
    obtain rfl : entry = item := (List.mem_singleton.mp member).symm
    rw [previous]
    constructor
    · intro named
      obtain ⟨other,row,found,active⟩ := effect.demotes id named
      obtain ⟨next,reached,_,mid,changes,settles⟩ := effect.rows.kept id row found
      refine ⟨row,next,found,reached,active,?_⟩
      have key : row.id = id := Table.find_key found
      unfold Changes at changes
      rw [key,if_neg other,if_pos named] at changes
      have released : next.releaseStatus = .approved := by
        have same : next.releaseStatus = mid.release := settles.release
        rw [same,changes]
      rw [released]
      decide
    · rintro ⟨row,next,found,reached,active,inactive⟩
      obtain ⟨last,final,_,mid,changes,settles⟩ := effect.rows.kept id row found
      rw [reached] at final
      cases final
      have key : row.id = id := Table.find_key found
      have same : next.releaseStatus = mid.release := settles.release
      unfold Changes at changes
      rw [key] at changes
      split at changes
      · rename_i aimed
        obtain ⟨now,present,active⟩ := activated
        have chosen : entry.deploymentId = id := Option.some.inj (target.symm.trans aimed)
        rw [chosen,reached] at present
        cases present
        exact absurd active inactive
      · split at changes
        · rename_i named
          exact named
        · rw [changes] at same
          exact absurd (same.trans active) inactive

end Commits

abbrev AllBuilt : State → Prop :=
  Tracked (fun db => ∀ row ∈ db.deployments.rows, ActiveBuilt row.lifecycle) fun _ _ => True

theorem allBuilt_step (state : State) (event : Happening) (built : AllBuilt state)
    (meets : Acting (Avoids reopensActive) state event) : AllBuilt (machine.step state event) := by
  refine tracked_step (fun _ _ _ _ => trivial) ?_ state event built meets
  intro input world handler action reply demoted after avoids commit effect was _
  exact ⟨activeBuilt_effect avoids commit effect was,fun _ _ => trivial⟩

theorem AllBuilt.singleActive {state : State} (built : AllBuilt state) : SingleActive state.shared.db where
  active _ left _ right liveFirst liveSecond activeFirst activeSecond project environment :=
    active_unique left right liveFirst liveSecond activeFirst activeSecond project environment
  pending _ left _ right liveFirst liveSecond pendingFirst pendingSecond project environment :=
    pendingRelease_unique left right liveFirst liveSecond pendingFirst pendingSecond project environment
  built := built.state

theorem names_previous_step (state : State) (event : Happening) :
    NamesPrevious state.shared.db (machine.step state event).shared.db := by
  have always : Acting (fun _ _ _ => True) state event := by
    cases event with
    | arrive call => trivial
    | resume index input => exact fun _ _ => trivial
  refine step_property ⟨[],by rw [List.append_nil],fun _ member => by cases member⟩ ?_ always
  intro input handler action reply after _ _ commit
  obtain ⟨demoted,effect⟩ := commit.effect
  exact names_previous effect

/-- One Active deployment and one pending release per environment, Active ones built, and
release rows that name what they replaced. -/
def ReleasesSound (world : World) (events : List Happening) : Prop :=
  Throughout machine.step (fun state => SingleActive state.shared.db) (idle world) events ∧
    Along machine.step (fun state event => NamesPrevious state.shared.db (machine.step state event).shared.db)
      (idle world) events

theorem releases_sound_of_avoided (world : World) (events : List Happening)
    (start : ∀ row ∈ world.db.deployments.rows, row.releaseStatus = .active → row.buildStatus = .ready)
    (avoids : Along machine.step (Acting (Avoids reopensActive)) (idle world) events) : ReleasesSound world events := by
  have initial : AllBuilt (idle world) := ⟨start,fun _ member => by cases member⟩
  refine ⟨throughout_of_invariant allBuilt_step (fun _ => AllBuilt.singleActive) (idle world) events initial avoids,?_⟩
  exact along_imp (fun state event _ => names_previous_step state event) (idle world) events avoids

section Examples
open Sample

def automatic : World := reviewed "auto" (holding { deployment with buildStatus := .claimed })

/-- A Building report is read, sent and committed again, and followed by the rest of the
build and of the synchronization; then its first copy is committed. -/
def reportedAgain : List Happening :=
  .arrive (.node 7 (.stage 1 { status := some .building })) :: steps 0 4 ++
    .arrive (.node 7 (.stage 1 { status := some .building })) :: steps 1 5 ++
    .arrive (.node 7 (.stage 1 { status := some .ready })) :: steps 1 7 ++
    .arrive (.node 7 (.reportServe 1 { status := .syncing })) :: steps 1 2 ++
    .arrive (.node 7 (.reportServe 1 { status := .ready })) :: steps 1 2 ++ steps 0 1

theorem late_report_unbuilds_active : ¬ReleasesSound automatic reportedAgain := by
  intro sound
  have reopened : ((run machine.step (idle automatic) reportedAgain).shared.db.deployments.find 1).map
      (fun row => (row.buildStatus,row.releaseStatus)) = some (.building,.active) := by decide +kernel
  obtain ⟨row,found,status⟩ := Option.map_eq_some_iff.mp reopened
  have ready := sound.1.last.built row (Table.find_mem found) (congrArg Prod.snd status)
  have building : row.buildStatus = .building := congrArg Prod.fst status
  rw [ready] at building
  cases building

/-- Each report once, in order. -/
theorem releases_sound_reported_once :
    ReleasesSound automatic (.arrive (.node 7 (.stage 1 { status := some .building })) :: steps 0 5 ++
      .arrive (.node 7 (.stage 1 { status := some .ready })) :: steps 0 7 ++
      .arrive (.node 7 (.reportServe 1 { status := .syncing })) :: steps 0 2 ++
      .arrive (.node 7 (.reportServe 1 { status := .ready })) :: steps 0 2) :=
  releases_sound_of_avoided _ _ (by decide) (by decide)

end Examples

end GrassWorker.ControlPlane
