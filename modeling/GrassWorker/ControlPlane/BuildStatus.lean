import GrassWorker.ControlPlane.Runs

/-! The build lifecycle over whole runs. A Queued or Building report validates its
edge against the row it read before its transaction; every other change of a build
status validates the locked row. -/
namespace GrassWorker.ControlPlane
open Interleaving Runs Transaction Deployments

def buildRank : BuildStatus → Nat
  | .pending => 0
  | .claimed => 1
  | .queued => 2
  | .building => 3
  | .ready | .failed | .canceled => 4

theorem buildRank_lt {source target : BuildStatus} (edge : canTransitionBuild source target) :
    buildRank source < buildRank target := by
  cases source <;> cases target <;> first | decide | cases edge

theorem terminal_of_edge {source target : BuildStatus} (edge : canTransitionBuild source target) :
    ¬Stage.isTerminal source := by
  cases source <;> cases target <;> first | decide | cases edge

/-- A report prepared from an older status may be applied to any status up to the reported one. -/
theorem edge_of_rank {read source : BuildStatus} {status : Stage.ReportedStatus}
    (early : status = .queued ∨ status = .building) (edge : canTransitionBuild read status.target)
    (older : buildRank read ≤ buildRank source) (behind : buildRank source ≤ buildRank status.target) :
    status.target = source ∨ canTransitionBuild source status.target := by
  rcases early with rfl | rfl <;> cases read <;> cases edge
  all_goals cases source <;> simp [buildRank,Stage.ReportedStatus.target,canTransitionBuild] at *

/-- A Queued or Building report, the only transaction that does not check the row it writes. -/
inductive Unchecked (source : BuildStatus) : Action → BuildStatus → Prop
  | report {owned status body} (early : status = .queued ∨ status = .building)
      (edge : canTransitionBuild owned.row.buildStatus status.target) :
      Unchecked source (.report owned status body) status.target

theorem Requested.build {base next : Lifecycle} (requested : Requested base next) : next.build = base.build := by
  cases requested <;> rfl

theorem Settles.build {lifecycle next : Lifecycle} (settles : Settles lifecycle next) : next.build = lifecycle.build := by
  rcases settles with rfl | ⟨_,_,rfl⟩ <;> rfl

section Steps
variable {mode : Option ReviewMode} {lifecycle next : Lifecycle} {action : Action} {reply : Reply}
  {demoted : Option Uuid} {id : Uuid}

theorem Step.build (step : Step mode lifecycle action reply next) : next.build = lifecycle.build ∨
    canTransitionBuild lifecycle.build next.build ∨ Unchecked lifecycle.build action next.build := by
  cases step with
  | advanced early edge => exact .inr (.inr (.report early edge))
  | ended terminal edge => exact .inr (.inl edge)
  | finished edge reviewed =>
    by_cases built : lifecycle.build = .ready
    · exact .inl built.symm
    · exact .inr (.inl (edge built))
  | canceled edge => exact .inr (.inl edge)
  | claimed waiting =>
    right
    left
    rw [waiting]
    rfl
  | failed unimplemented edge => exact .inr (.inl edge)
  | released requested => exact .inl requested.build
  | approved edge built requested => exact .inl requested.build
  | republished built may requested => exact .inl requested.build
  | republishedRejected built auto rejected requested => exact .inl requested.build
  | _ => exact .inl rfl

theorem Changes.build (changes : Changes action reply demoted mode id lifecycle next) :
    next.build = lifecycle.build ∨ action.target = some id ∧
      (canTransitionBuild lifecycle.build next.build ∨ Unchecked lifecycle.build action next.build) := by
  unfold Changes at changes
  split at changes
  · rename_i aimed
    rcases changes.build with same | moved
    · exact .inl same
    · exact .inr ⟨aimed,moved⟩
  · split at changes
    · rw [changes]
      exact .inl rfl
    · rw [changes]
      exact .inl rfl

end Steps

/-- A row that was read has become one that is no earlier in its build, by some measure of progress. -/
structure Behind (progress : BuildStatus → Nat) (db : Database) (row : Deployment) : Prop where
  follows : ∃ now, db.deployments.find row.id = some now ∧ now.identity = row.identity ∧
    progress row.buildStatus ≤ progress now.buildStatus

def Advances (progress : BuildStatus → Nat) (db after : Database) : Prop :=
  ∀ id row, db.deployments.find id = some row → ∃ next, after.deployments.find id = some next ∧
    next.identity = row.identity ∧ progress row.buildStatus ≤ progress next.buildStatus

theorem behind_of_mem {progress : BuildStatus → Nat} {db : Database} {row : Deployment}
    (member : row ∈ db.deployments.rows) : Behind progress db row :=
  ⟨row,Table.find_of_mem member,rfl,le_refl _⟩

theorem Behind.kept {progress : BuildStatus → Nat} {db after : Database} {row : Deployment}
    (behind : Behind progress db row) (advances : Advances progress db after) : Behind progress after row := by
  obtain ⟨now,found,identity,before⟩ := behind.follows
  obtain ⟨next,reached,same,moved⟩ := advances row.id now found
  exact ⟨next,reached,same.trans identity,le_trans before moved⟩

/-- A Queued or Building report that its handler accepted, on a row already past the reported status. -/
def lateReport (db : Database) : Action → Bool
  | .report owned status _ =>
    (status = .queued || status = .building) && canTransitionBuild owned.row.buildStatus status.target &&
      (db.deployments.find owned.row.id).any fun row => buildRank status.target < buildRank row.buildStatus
  | _ => false

abbrev ReportsInOrder : Input → World → Handler → Prop := Avoids lateReport

/-- A transaction moves a build along an edge from the status it is written over. -/
def BuildEdges (db after : Database) : Prop :=
  ∀ id row, db.deployments.find id = some row → ∃ next, after.deployments.find id = some next ∧
    next.identity = row.identity ∧
      (next.buildStatus = row.buildStatus ∨ canTransitionBuild row.buildStatus next.buildStatus)

theorem BuildEdges.refl (db : Database) : BuildEdges db db := fun _ row found => ⟨row,found,rfl,.inl rfl⟩

theorem BuildEdges.advances {db after : Database} (edges : BuildEdges db after) : Advances buildRank db after := by
  intro id row found
  obtain ⟨next,reached,identity,moved⟩ := edges id row found
  refine ⟨next,reached,identity,?_⟩
  rcases moved with kept | edge
  · rw [kept]
  · exact le_of_lt (buildRank_lt edge)

section Commits
variable {input : Input} {world : World} {handler : Handler} {action : Action} {reply : Reply}
  {demoted : Option Uuid} {after : Database}

theorem buildEdges_of_effect (inOrder : ReportsInOrder input world handler)
    (commit : Commit input world.db handler action reply after)
    (effect : Effect input.instant action reply demoted world.db after)
    (older : ∀ row ∈ handler.rows, Behind buildRank world.db row) : BuildEdges world.db after := by
  intro id row found
  obtain ⟨next,reached,identity,mid,changes,settles⟩ := effect.rows.kept id row found
  refine ⟨next,reached,identity,?_⟩
  have settled : next.buildStatus = mid.build := settles.build
  rw [settled]
  rcases changes.build with same | ⟨aimed,edge | unchecked⟩
  · exact .inl same
  · exact .inr edge
  · generalize mid.build = target at unchecked
    cases unchecked with
    | @report owned status body early edge =>
      have chosen : owned.row.id = id := (Option.some.inj aimed).trans (Table.find_key found)
      obtain ⟨now,current,_,before⟩ := (older owned.row (row_mem commit.acts rfl)).follows
      rw [chosen,found] at current
      cases current
      have reached : world.db.deployments.find owned.row.id = some row := by rwa [chosen]
      have timely := inOrder.commit commit
      have behind : buildRank row.buildStatus ≤ buildRank status.target := by
        simpa [lateReport,early,edge,reached] using timely
      exact edge_of_rank early edge before behind

end Commits

/-- Every row held by a handler in flight is at most as far as the row it was read from is now. -/
abbrev Ordered : State → Prop := Tracked (fun _ => True) (Behind buildRank)

theorem ordered_step (state : State) (event : Happening) (ordered : Ordered state)
    (meets : Acting ReportsInOrder state event) : Ordered (machine.step state event) := by
  refine tracked_step ?_ ?_ state event ordered meets
  · intro db row _ member
    exact behind_of_mem member
  · intro input world handler action reply demoted after inOrder commit effect _ rows
    have edges := buildEdges_of_effect inOrder commit effect rows
    exact ⟨trivial,fun row older => older.kept edges.advances⟩

theorem buildEdges_step (state : State) (event : Happening) (ordered : Ordered state)
    (meets : Acting ReportsInOrder state event) :
    BuildEdges state.shared.db (machine.step state event).shared.db := by
  refine step_property (BuildEdges.refl _) ?_ meets
  intro input handler action reply after inflight inOrder commit
  obtain ⟨demoted,effect⟩ := commit.effect
  exact buildEdges_of_effect inOrder commit effect (ordered.handlers handler inflight)

theorem terminal_run (state : State) (events : List Happening)
    (edges : Along machine.step (fun state event => BuildEdges state.shared.db (machine.step state event).shared.db)
      state events) (id : Uuid) (row : Deployment) (found : state.shared.db.deployments.find id = some row)
    (terminal : Stage.isTerminal row.buildStatus) :
    ∃ next, (run machine.step state events).shared.db.deployments.find id = some next ∧
      next.buildStatus = row.buildStatus := by
  induction events generalizing state row with
  | nil => exact ⟨row,found,rfl⟩
  | cons event rest ih =>
    obtain ⟨here,later⟩ := edges
    obtain ⟨next,reached,_,moved⟩ := here id row found
    have same : next.buildStatus = row.buildStatus := by
      rcases moved with kept | edge
      · exact kept
      · exact absurd terminal (terminal_of_edge edge)
    obtain ⟨last,final,kept⟩ := ih (machine.step state event) later next reached (by rwa [same])
    exact ⟨last,final,kept.trans same⟩

def BuildsFollow (world : World) (events : List Happening) : Prop :=
  Along machine.step (fun state event => BuildEdges state.shared.db (machine.step state event).shared.db)
      (idle world) events ∧
    ∀ earlier later, events = earlier ++ later → ∀ id row,
      (run machine.step (idle world) earlier).shared.db.deployments.find id = some row →
      Stage.isTerminal row.buildStatus →
      ∃ next, (run machine.step (idle world) events).shared.db.deployments.find id = some next ∧
        next.buildStatus = row.buildStatus

theorem builds_follow_of_reports_in_order (world : World) (events : List Happening)
    (inOrder : Along machine.step (Acting ReportsInOrder) (idle world) events) : BuildsFollow world events := by
  have start : Ordered (idle world) := ⟨trivial,fun _ member => by cases member⟩
  have edges := along_of_invariant ordered_step buildEdges_step (idle world) events start inOrder
  refine ⟨edges,?_⟩
  rintro earlier later rfl id row found terminal
  rw [run_append]
  exact terminal_run _ later ((along_append _ earlier later).mp edges).2 id row found terminal

section Examples
open Sample

/-- A node reports Building on a claimed deployment; the deployment is canceled
between the read of the report and its transaction. -/
def canceledBehindReport : List Happening :=
  .arrive (.node 7 (.stage 1 { status := some .building })) :: steps 0 4 ++
    .arrive (.project 3 (.cancel 1 9)) :: steps 1 3

theorem late_report_reopens_build :
    ¬BuildsFollow (holding { deployment with buildStatus := .claimed }) (canceledBehindReport ++ steps 0 1) := by
  intro follow
  have canceled : ((run machine.step (idle (holding { deployment with buildStatus := .claimed }))
      canceledBehindReport).shared.db.deployments.find 1).map (·.buildStatus) = some .canceled := by decide +kernel
  obtain ⟨row,found,status⟩ := Option.map_eq_some_iff.mp canceled
  obtain ⟨next,reached,kept⟩ := follow.2 canceledBehindReport (steps 0 1) rfl 1 row found (by rw [status]; rfl)
  have building : ((run machine.step (idle (holding { deployment with buildStatus := .claimed }))
      (canceledBehindReport ++ steps 0 1)).shared.db.deployments.find 1).map (·.buildStatus) = some .building := by
    decide +kernel
  rw [reached,Option.map_some,kept,status] at building
  cases building

/-- The same report before the cancellation. -/
theorem builds_follow_reported_then_canceled :
    BuildsFollow (holding { deployment with buildStatus := .claimed })
      (.arrive (.node 7 (.stage 1 { status := some .building })) :: steps 0 5 ++
        .arrive (.project 3 (.cancel 1 9)) :: steps 0 6) :=
  builds_follow_of_reports_in_order _ _ (by decide +kernel)

end Examples

end GrassWorker.ControlPlane
