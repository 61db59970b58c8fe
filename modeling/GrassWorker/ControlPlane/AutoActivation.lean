import GrassWorker.ControlPlane.Locality
import GrassWorker.ControlPlane.Runs
import GrassWorker.Domain.ForwardDelivery

/-! Automatic activation never goes back to an older deployment, unless a late build
report reopens the newest one. -/
namespace GrassWorker.ControlPlane
open Interleaving Runs Transaction Deployments Delivery Handling

def Auto (project : Uuid) (environment : Environment) (db : Database) : Prop :=
  ∀ row ∈ db.deployments.rows, row.projectId = project → row.environment = environment →
    modeOf db row.identity = some .auto

instance (project : Uuid) (environment : Environment) (db : Database) :
    Decidable (Auto project environment db) := inferInstanceAs (Decidable (∀ _ ∈ _, _))

def Action.automatic : Action → Bool
  | .progress .. | .report .. | .claim .. | .reportServe .. | .create .. | .failUnimplemented .. => true
  | _ => false

def intervenes (project : Uuid) (environment : Environment) (db : Database) (action : Action) : Bool :=
  !action.automatic && targets db action fun row => row.projectId = project && row.environment = environment

/-- A Queued or Building report that its handler accepted, on a deployment of the environment whose build is ready by now. -/
def reopens (project : Uuid) (environment : Environment) (db : Database) (action : Action) : Bool :=
  match action with
  | .report owned status _ =>
    (status = .queued || status = .building) && canTransitionBuild owned.row.buildStatus status.target &&
      targets db action fun row =>
        row.projectId = project && row.environment = environment && row.buildStatus = .ready
  | _ => false

section Changes
variable {project : Uuid} {environment : Environment} {db middle after : Database} {row next locked updated : Deployment} {id : Uuid}
  {change : Deployment → Deployment} {becomes : Deployment → Deployment → Prop} {instant : Instant}

theorem moved_of_elsewhere (same : Elsewhere project environment db after) : Moved project environment db after := by
  have listed : ∀ row, row ∈ environmentRows after project environment ↔ row ∈ environmentRows db project environment := by
    intro row
    have residents : ∀ db, row ∈ environmentRows db project environment ↔
        resident project environment db row.id = some row ∧ row.deletedAt = none := by
      intro db
      rw [mem_environmentRows,resident,Option.filter_eq_some_iff,Table.find_eq_some_iff]
      simp [Outside,and_assoc]
    rw [residents,residents,same]
  refine .steady ⟨?_,?_⟩
  · intro row member
    exact ⟨row,(listed row).mpr member,.refl row,id⟩
  · intro next member
    exact .inl ⟨next,(listed next).mp member,.refl next,id⟩

theorem followed_of_wrote (wrote : Wrote id change db updated after) (found : db.deployments.find id = some locked)
    (unchanged : ∀ row, becomes row row) (changed : becomes locked (change locked))
    (keeps : ∀ row next, becomes row next → next.identity = row.identity) :
    Followed project environment becomes db after := by
  have rows : Rows becomes db after := by
    refine wrote.evolves.mono ?_ fun _ impossible => impossible
    intro row next member same
    subst same
    split
    · rename_i chosen
      obtain rfl : row = locked :=
        db.deployments.same_of_key member (Table.find_mem found) (chosen.trans (Table.find_key found).symm)
      exact changed
    · exact unchanged row
  exact .of_evolves rows keeps fun _ impossible => impossible.elim

theorem advanced_of_wrote (wrote : Wrote id change db updated after) (found : db.deployments.find id = some locked)
    (changed : Advanced locked (change locked)) : Followed project environment Advanced db after :=
  followed_of_wrote wrote found .refl changed fun _ _ step => step.identity

theorem moved_of_wrote (wrote : Wrote id change db updated after) (found : db.deployments.find id = some locked)
    (changed : Advanced locked (change locked)) (back : Servable (change locked) → Servable locked) :
    Moved project environment db after :=
  .steady (followed_of_wrote wrote found (fun row => ⟨.refl row,fun servable => servable⟩) ⟨changed,back⟩ fun _ _ step => step.1.identity)

theorem advanced_setBuild {transition : BuildTransition} (reported : transition.target ≠ .claimed)
    (unbuilt : row.buildStatus ≠ .ready) : Advanced row (setBuild instant.now transition row) := by
  refine .of_lifecycle (setBuild_identity _ row _) (setBuild_lifecycle _ row reported) rfl rfl ?_ ?_
  · intro ready _
    exact ready
  · intro servable
    exact absurd servable.1 unbuilt

end Changes

section Builds
variable {project : Uuid} {environment : Environment} {db : Database} {row : Deployment} {instant : Instant} {target : Deployment}

theorem transitionUnsuccessfulBuild_moved {change : BuildTransition} (found : db.deployments.find target.id = some row)
    (projects : row.projectId = project) (environments : row.environment = environment) :
    Ensures (transitionUnsuccessfulBuild instant target change) db fun _ after => Moved project environment db after := by
  unfold transitionUnsuccessfulBuild
  simp only [ensures_bind,ensures_require,ensures_lockedRow,Delivery.transition,ensures_mapError,ensures_query,ensures_orElse]
  intro terminal locked current
  obtain rfl : locked = row := Option.some.inj ((getByIdForUpdate_eq_some.mp current).1.symm.trans found)
  refine transitionBuild_ensures.mono ?_
  rintro changed middle ⟨edge,wrote⟩
  rw [projects,environments]
  refine reconcileEnvironment_swept.mono ?_
  intro _ after sweep updated _
  rw [locked_id current] at wrote
  have unbuilt : locked.buildStatus ≠ .ready := by
    intro ready
    rw [ready] at edge
    cases edge
  have reported : change.target ≠ .claimed := by
    rcases terminal with same | same <;> rw [same] <;> decide
  exact .swept middle after (advanced_of_wrote wrote found (advanced_setBuild reported unbuilt)) sweep rfl

theorem settleReady_auto (auto : modeOf db target.identity = some .auto) :
    Ensures (Stage.settleReady instant target) db fun result after => result.1 = target ∧ after = db := by
  unfold Stage.settleReady
  rw [ensures_bind,ensures_reviewModeOf]
  intro policy resolved
  have mode : policy.modeFor target.environment = .auto := by
    unfold modeOf at auto
    change (reviewPolicyForTeam db target.teamId).map _ = _ at auto
    rw [resolved] at auto
    exact Option.some.inj auto
  rw [mode]
  have waits : readyReleaseAction .auto target.releaseStatus = .none := by
    unfold readyReleaseAction
    split <;> rfl
  simp only [waits,ensures_pure]
  exact ⟨trivial,trivial⟩

theorem finalizeReady_moved {transition : BuildTransition} (ready : transition.target = .ready)
    (found : db.deployments.find target.id = some row) (projects : row.projectId = project)
    (environments : row.environment = environment) (auto : modeOf db row.identity = some .auto) :
    Ensures (Stage.finalizeReady instant target transition) db fun _ after => Moved project environment db after := by
  unfold Stage.finalizeReady
  simp only [ensures_bind,ensures_lockedDeployment,ensures_ofReconcile,ensures_pure]
  intro locked current
  obtain rfl : locked = row := Option.some.inj ((getByIdForUpdate_eq_some.mp current).1.symm.trans found)
  have built : Ensures (Stage.buildReady instant locked transition) db fun built middle =>
      Followed project environment Advanced db middle ∧ built.identity = locked.identity ∧ OnlyDeployments db middle := by
    unfold Stage.buildReady
    split
    · rename_i unready
      rw [ensures_ofState]
      refine transitionBuild_ensures.mono ?_
      rintro built middle ⟨_,wrote⟩
      rw [locked_id current] at wrote
      obtain ⟨origin,present,same,_⟩ := wrote.row
      obtain rfl : origin = locked := Option.some.inj (present.symm.trans found)
      have reported : transition.target ≠ .claimed := by rw [ready]; decide
      have unbuilt : origin.buildStatus ≠ .ready := of_decide_eq_true unready
      refine ⟨advanced_of_wrote wrote found (advanced_setBuild reported unbuilt),?_,wrote.rest⟩
      rw [← same]
      exact setBuild_identity _ origin _
    · rw [ensures_pure]
      exact ⟨.refl .refl db,rfl,.refl db⟩
  refine built.mono ?_
  rintro built middle ⟨rows,identity,only⟩
  have governed : modeOf middle built.identity = some .auto := by
    rw [identity,modeOf_of_only only.onlyReleases]
    exact auto
  refine (settleReady_auto governed).mono ?_
  rintro ⟨settled,action⟩ later ⟨rfl,rfl⟩
  have settledProject : settled.projectId = project := (congrArg Identity.project identity).trans projects
  have settledEnvironment : settled.environment = environment := (congrArg Identity.environment identity).trans environments
  simp only [settledProject,settledEnvironment]
  refine reconcileEnvironment_swept.mono ?_
  intro _ after sweep
  exact .swept later after rows sweep rfl

theorem report_moved {node : Uuid} {status : Stage.ReportedStatus} {body : Stage.StageRequest}
    (found : db.deployments.find target.id = some row) (projects : row.projectId = project)
    (environments : row.environment = environment) (auto : modeOf db row.identity = some .auto)
    (timely : status = .queued ∨ status = .building → canTransitionBuild target.buildStatus status.target →
      row.buildStatus ≠ .ready) :
    Ensures (Stage.report instant node target status body) db fun _ after => Moved project environment db after := by
  have applied (transition : BuildTransition) (same : transition.target = status.target) :
      Ensures (Stage.applyReport instant target transition) db fun _ after => Moved project environment db after := by
    have early (early : status = .queued ∨ status = .building) :
        Ensures (ofState (transitionBuild instant.now target transition)) db fun _ after => Moved project environment db after := by
      rw [ensures_ofState]
      refine transitionBuild_ensures.mono ?_
      intro updated after ⟨edge,wrote⟩
      rw [same] at edge
      have unbuilt := timely early edge
      have unready : transition.target ≠ .ready ∧ transition.target ≠ .claimed := by
        rcases early with rfl | rfl <;> rw [same] <;> decide
      refine moved_of_wrote wrote found (advanced_setBuild unready.2 unbuilt) ?_
      intro servable
      have lifecycle := setBuild_lifecycle instant.now row unready.2
      exact absurd ((congrArg Lifecycle.build lifecycle).symm.trans servable.1) unready.1
    unfold Stage.applyReport
    rw [same]
    cases status with
    | queued =>
      simp only [Stage.ReportedStatus.target,ensures_bind,ensures_pure]
      exact early (.inl rfl)
    | building =>
      simp only [Stage.ReportedStatus.target,ensures_bind,ensures_pure]
      exact early (.inr rfl)
    | ready => exact finalizeReady_moved same found projects environments auto
    | failed | canceled =>
      simp only [Stage.ReportedStatus.target,ensures_bind,ensures_ofDelivery,ensures_pure]
      exact transitionUnsuccessfulBuild_moved found projects environments
  unfold Stage.report
  simp only [ensures_bind,ensures_pure]
  refine (applied _ rfl).mono ?_
  intro result middle moved
  refine auditWhen_deployments.mono fun _ _ started => ?_
  refine auditWhen_deployments.mono fun _ _ finished => ?_
  refine auditWhen_deployments.mono fun _ _ reviewed => ?_
  exact moved.frame (reviewed.trans (finished.trans started))

theorem claim_moved {node : Uuid} : Ensures (Claim.claim instant node target) db fun _ after => Moved project environment db after := by
  unfold Claim.claim
  simp only [ensures_bind,ensures_get]
  have unmoved : Moved project environment db db := moved_of_elsewhere (.refl db)
  split
  · rw [ensures_pure]
    exact unmoved
  split
  · rw [ensures_pure]
    exact unmoved
  · rename_i row found
    obtain ⟨found,pending⟩ := Option.filter_eq_some_iff.mp found
    have pending : row.buildStatus = .pending := of_decide_eq_true pending
    simp only [ensures_bind,ensures_ofDb,ensures_appendEvent,ensures_pure]
    refine updateDeployment_ensures.mono ?_
    intro updated after wrote
    have claimed : Advanced row (Claim.setClaimed instant.now node row) := by
      refine .of_lifecycle rfl rfl rfl rfl (fun ready _ => ready) ?_
      intro servable
      rw [servable.1] at pending
      cases pending
    refine (moved_of_wrote wrote found claimed ?_).frame rfl
    intro servable
    cases servable.1

end Builds

section Serving
variable {project : Uuid} {environment : Environment} {db middle : Database} {locked updated : Deployment} {instant : Instant} {id : Uuid}
  {transition : ServeTransition}

private theorem setServe_fields (instant : Instant) (transition : ServeTransition) (row : Deployment) :
    (setServe instant.now transition row).buildStatus = row.buildStatus ∧
      (setServe instant.now transition row).serveStatus = transition.target ∧
      (setServe instant.now transition row).releaseStatus = row.releaseStatus ∧
      (setServe instant.now transition row).pendingReleaseReason = row.pendingReleaseReason := by
  have lifecycle := setServe_lifecycle instant.now row transition
  exact ⟨congrArg Lifecycle.build lifecycle,congrArg Lifecycle.serve lifecycle,congrArg Lifecycle.release lifecycle,
    congrArg Lifecycle.pending lifecycle⟩

private theorem activated_followed {activated : Deployment} {after : Database} (found : db.deployments.find id = some locked)
    (wrote : Wrote id (setServe instant.now transition) db updated middle) (ready : transition.target = .ready)
    (servable : Servable locked) (draft : locked.releaseStatus = .draft)
    (done : Activated instant.now updated .auto none middle activated after) :
    Followed project environment Advanced db after := by
  have key : updated.id = id := wrote.key fun row => setServe_id _ row _
  have rows : Rows Advanced db after := by
    refine (wrote.evolves.andThen done.evolves).mono ?_ fun _ impossible => impossible
    intro row next member same
    subst same
    unfold activatedRow
    by_cases chosen : row.id = id
    · obtain rfl : row = locked :=
        db.deployments.same_of_key member (Table.find_mem found) (chosen.trans (Table.find_key found).symm)
      rw [if_pos chosen,if_pos ((setServe_id _ row _).trans (chosen.trans key.symm))]
      obtain ⟨build,serve,_,pending⟩ := setServe_fields instant transition row
      refine ⟨setServe_identity _ row _,?_,?_,?_,?_,?_⟩
      · intro free
        exact pending.trans free
      · intro _
        refine ⟨build.trans servable.1,?_⟩
        change (setServe instant.now transition row).serveStatus ≠ .retired
        rw [serve,ready]
        decide
      · intro impossible
        cases impossible
      · intro _ impossible
        cases impossible
      · intro _
        exact .inr ⟨draft,servable⟩
    · rw [if_neg chosen,key,if_neg chosen]
      split
      · refine ⟨rfl,fun free => free,fun servable => servable,?_,?_,?_⟩
        · intro impossible
          cases impossible
        · intro _ impossible
          cases impossible
        · intro impossible
          cases impossible
      · exact .refl row
  exact .of_evolves rows (fun _ _ step => step.identity) fun _ impossible => impossible.elim

private theorem advanced_setServe {row : Deployment} (assigned : transition.target ≠ .retired)
    (released : transition.target = .ready → row.releaseStatus ≠ .draft) : Advanced row (setServe instant.now transition row) := by
  refine .of_lifecycle (setServe_identity _ row _) (setServe_lifecycle _ row _) rfl rfl ?_ ?_
  · intro ready draft
    exact absurd draft (released ready)
  · intro servable
    exact ⟨servable.1,assigned⟩

private theorem completeServeReady_moved (found : db.deployments.find id = some locked)
    (wrote : Wrote id (setServe instant.now transition) db updated middle) (ready : transition.target = .ready)
    (servable : Servable locked) (free : locked.pendingReleaseReason = none) (projects : locked.projectId = project)
    (environments : locked.environment = environment) (auto : modeOf db locked.identity = some .auto) :
    Ensures (Activation.completeServeReady instant updated) middle fun _ after => Moved project environment db after := by
  obtain ⟨origin,present,same,_⟩ := wrote.row
  obtain rfl : origin = locked := Option.some.inj (present.symm.trans found)
  obtain ⟨_,_,release,pending⟩ := setServe_fields instant transition origin
  have identity : updated.identity = origin.identity := by
    rw [← same]
    exact setServe_identity _ origin _
  rw [same] at release pending
  have updatedProject : updated.projectId = project := (congrArg Identity.project identity).trans projects
  have updatedEnvironment : updated.environment = environment := (congrArg Identity.environment identity).trans environments
  have governed : modeOf middle updated.identity = some .auto := by
    rw [identity,modeOf_of_only wrote.rest.onlyReleases]
    exact auto
  unfold Activation.completeServeReady
  rw [pending,free,if_neg (by decide),ensures_bind,ensures_reviewModeOf]
  intro policy resolved
  have mode : policy.modeFor updated.environment = .auto := by
    unfold modeOf at governed
    change (reviewPolicyForTeam middle updated.teamId).map _ = _ at governed
    rw [resolved] at governed
    exact Option.some.inj governed
  rw [mode,updatedProject,updatedEnvironment]
  by_cases draft : updated.releaseStatus = .draft
  · have activates : serveReadyReleaseAction .auto updated.releaseStatus = .activate := by rw [draft]; rfl
    simp only [activates,ensures_bind,ensures_ofState,ensures_createAuditEvent,ensures_ofReconcile]
    refine activate_ensures.mono ?_
    intro activated later done
    have rows : Followed project environment Advanced db later :=
      activated_followed found wrote ready servable (release.symm.trans draft) done
    refine reconcileEnvironment_swept.mono ?_
    intro _ after sweep
    refine .swept _ after ?_ sweep rfl
    exact ⟨rows.kept,rows.origin⟩
  · have waits : serveReadyReleaseAction .auto updated.releaseStatus = .none := by
      cases status : updated.releaseStatus <;> first | rfl | exact absurd status draft
    simp only [waits,ensures_ofReconcile]
    refine reconcileEnvironment_swept.mono ?_
    intro _ after sweep
    have released : origin.releaseStatus ≠ .draft := fun was => draft (release.trans was)
    have assigned : transition.target ≠ .retired := by rw [ready]; decide
    exact .swept middle after (advanced_of_wrote wrote found (advanced_setServe assigned fun _ => released)) sweep rfl

theorem reportStatus_moved {node : Uuid} {enabled : Bool} {sent : ServeReports.Report}
    (found : db.deployments.find id = some locked) (free : locked.deletedAt = none → locked.pendingReleaseReason = none)
    (projects : locked.projectId = project) (environments : locked.environment = environment)
    (auto : modeOf db locked.identity = some .auto) :
    Ensures (ServeReports.reportStatus instant node enabled id sent) db fun _ after => Moved project environment db after := by
  unfold ServeReports.reportStatus
  simp only [ensures_bind,ensures_require,ensures_mapError,ensures_ofExcept,ensures_lockedDeployment,ensures_query]
  intro _ _ _ row current
  obtain ⟨present,live⟩ := getByIdForUpdate_eq_some.mp current
  obtain rfl : row = locked := Option.some.inj (present.symm.trans found)
  have assigned : Ensures (ServeReports.reportAssigned instant node row sent) db fun _ after =>
      Moved project environment db after := by
    unfold ServeReports.reportAssigned
    simp only [ensures_bind,ensures_require,ensures_ofState]
    intro _ built
    refine transitionServe_ensures.mono ?_
    rintro updated middle ⟨edge,wrote⟩
    rw [locked_id current] at wrote
    have servable : Servable row := by
      refine ⟨built,?_⟩
      intro retired
      rw [retired] at edge
      cases status : sent.status <;> rw [status] at edge <;> cases edge
    split
    · rename_i ready
      have target : sent.status.target = .ready := by rw [ready]; rfl
      exact completeServeReady_moved found wrote target servable (free live) projects environments auto
    · rename_i unready
      rw [ensures_pure]
      have kept : sent.status.target ≠ .retired ∧ (sent.status.target = .ready → sent.status = .ready) := by
        cases sent.status <;> decide
      refine moved_of_wrote wrote found (advanced_setServe kept.1 ?_) fun _ => servable
      intro ready
      exact absurd (kept.2 ready) unready
  split
  · split
    · simp only [ServeReports.reportMigration,ensures_write]
      intro _ after written
      obtain ⟨migrations,_,written⟩ := Option.bind_eq_some_iff.mp written
      cases written
      exact moved_of_elsewhere (.of_deployments rfl)
    · exact assigned
  · exact assigned

end Serving

section Runs
variable {project : Uuid} {environment : Environment}

theorem create_moved {params : Projects.CreateDeploymentParams} {selectedNode : Option Uuid} {region : Option String}
    {db : Database} {instant : Instant} :
    Ensures (Projects.createPlacedDeployment instant params selectedNode region) db fun _ after =>
      Moved project environment db after := by
  simp only [Projects.createPlacedDeployment,Projects.createDeployment,ensures_bind,ensures_get,ensures_mapError,
    ensures_ofExcept,ensures_write,ensures_appendEvent,ensures_createAuditEvent,ensures_pure]
  intro placement _ created after written
  obtain ⟨deployments,inserted,written⟩ := Option.bind_eq_some_iff.mp written
  cases written
  have rows : Table.Evolves (fun row next => Advanced row next ∧ (Servable next → Servable row))
      (fun row => row = Projects.newDeployment instant params placement) db.deployments deployments := by
    refine (Table.evolves_insert inserted).mono ?_ fun _ same => same
    rintro row next _ rfl
    exact ⟨.refl _,fun servable => servable⟩
  refine Moved.steady (.of_evolves rows (fun _ _ step => step.1.identity) ?_)
  rintro row rfl
  rfl

private theorem local_moved {db : Database} {instant : Instant} {action : Action} {row : Deployment} {id : Uuid}
    (aimed : action.target = some id) (found : db.deployments.find id = some row)
    (inside : row.projectId = project ∧ row.environment = environment) (automatic : action.automatic)
    (auto : modeOf db row.identity = some .auto) (free : row.deletedAt = none → row.pendingReleaseReason = none)
    (timely : ∀ owned status body, action = .report owned status body → status = .queued ∨ status = .building →
      canTransitionBuild owned.row.buildStatus status.target → row.buildStatus ≠ .ready) :
    Ensures (action.run instant) db fun _ after => Moved project environment db after := by
  obtain ⟨projects,environments⟩ := inside
  cases action with
  | progress deployment stage =>
    rw [Action.run,ensures_acknowledge]
    cases aimed
    cases stage with
    | none =>
      rw [Stage.progress,ensures_pure]
      exact moved_of_elsewhere (.refl db)
    | some stage =>
      simp only [Stage.progress,ensures_bind,ensures_ofDb,ensures_pure]
      refine updateStage_ensures.mono ?_
      intro updated after wrote
      have staged : Advanced row (setStage stage row) :=
        .of_lifecycle rfl rfl rfl rfl (fun ready _ => ready) fun servable => servable
      exact moved_of_wrote wrote found staged fun servable => servable
  | report owned status body =>
    simp only [Action.run,ensures_bind,ensures_pure]
    cases aimed
    exact report_moved found projects environments auto fun early edge => timely owned status body rfl early edge
  | claim node candidate =>
    simp only [Action.run,ensures_bind,ensures_pure]
    exact claim_moved
  | reportServe node enabled deployment sent =>
    rw [Action.run,ensures_acknowledge]
    cases aimed
    exact reportStatus_moved found free projects environments auto
  | failUnimplemented deployment =>
    simp only [Action.run,ensures_acknowledge,Projects.failUnimplemented]
    cases aimed
    split
    · rw [ensures_pure]
      exact moved_of_elsewhere (.refl db)
    · simp only [ensures_bind,ensures_ofDelivery,ensures_pure]
      exact transitionUnsuccessfulBuild_moved found projects environments
  | create => cases aimed
  | _ => cases automatic

/-- In an environment that goes forward, an automatic transaction reconciles it or makes nothing ready. -/
theorem moved_of_commit {input : Input} {world : World} {handler : Handler} {action : Action} {reply : Reply} {after : Database}
    (forward : Forward project environment world.db) (auto : Auto project environment world.db)
    (commit : Commit input world.db handler action reply after)
    (automatic : intervenes project environment world.db action = false)
    (timely : reopens project environment world.db action = false) : Moved project environment world.db after := by
  have moved : Ensures (action.run input.instant) world.db fun _ after => Moved project environment world.db after := by
    by_cases created : ∃ params selectedNode region, action = .create params selectedNode region
    · obtain ⟨params,selectedNode,region,rfl⟩ := created
      simp only [Action.run,ensures_bind,ensures_pure]
      exact create_moved
    have created : ∀ params selectedNode region, action ≠ .create params selectedNode region :=
      fun params selectedNode region same => created ⟨params,selectedNode,region,same⟩
    by_cases absent : ∀ id, action.target = some id → resident project environment world.db id = none
    · exact (run_elsewhere action absent created).mono fun _ _ same => moved_of_elsewhere same
    obtain ⟨id,absent⟩ := not_forall.mp absent
    obtain ⟨aimed,absent⟩ := Classical.not_imp.mp absent
    obtain ⟨row,held⟩ := Option.ne_none_iff_exists'.mp absent
    obtain ⟨found,inside⟩ := Option.filter_eq_some_iff.mp held
    have inside : row.projectId = project ∧ row.environment = environment := by simpa [Outside] using inside
    have key : row.id = id := Table.find_key found
    refine local_moved aimed found inside ?_ (auto row (Table.find_mem found) inside.1 inside.2) ?_ ?_
    · by_contra other
      have missed : (!action.automatic) = true := by simpa using other
      rw [intervenes,missed,Bool.true_and] at automatic
      have test := targets_false automatic (by rwa [key]) (by rwa [key])
      simp [inside] at test
    · intro live
      exact forward.free row (mem_environmentRows.mpr ⟨Table.find_mem found,inside.1,inside.2,live⟩)
    · rintro owned status body rfl early edge ready
      rw [reopens,edge] at timely
      have read : (decide (status = .queued) || decide (status = .building)) = true := by simpa using early
      rw [read,Bool.true_and,Bool.true_and] at timely
      have test := targets_false timely (by rwa [key]) (by rwa [key])
      simp [inside,ready] at test
  exact moved reply after commit.runs

abbrev AvoidsIntervention (project : Uuid) (environment : Environment) : Input → World → Handler → Prop :=
  Avoids (intervenes project environment)

abbrev AvoidsReopening (project : Uuid) (environment : Environment) : Input → World → Handler → Prop :=
  Avoids (reopens project environment)

structure Timely (project : Uuid) (environment : Environment) (state : State) (event : Happening) : Prop where
  auto : Auto project environment state.shared.db
  automatic : Acting (AvoidsIntervention project environment) state event
  timely : Acting (AvoidsReopening project environment) state event

theorem moved_step (state : State) (event : Happening) (forward : Forward project environment state.shared.db)
    (meets : Timely project environment state event) :
    Moved project environment state.shared.db (machine.step state event).shared.db := by
  have both : Acting (fun input world handler => AvoidsIntervention project environment input world handler ∧
      AvoidsReopening project environment input world handler) state event := by
    cases event with
    | arrive call => trivial
    | resume index input => exact fun handler found => ⟨meets.automatic handler found,meets.timely handler found⟩
  refine step_property (moved_of_elsewhere (.refl state.shared.db)) ?_ both
  intro input handler action reply after _ avoids commit
  exact moved_of_commit forward meets.auto commit (avoids.1.commit commit) (avoids.2.commit commit)

abbrev ActiveGoesForward (project : Uuid) (environment : Environment) (world : World) (events : List Happening) : Prop :=
  Along machine.step (fun state event => NeverBack project environment state.shared.db
    (machine.step state event).shared.db) (idle world) events

theorem active_goes_forward_of_timely (project : Uuid) (environment : Environment) (world : World) (events : List Happening)
    (empty : ∀ row ∈ world.db.deployments.rows, Outside project environment row)
    (auto : Along machine.step (fun state _ => Auto project environment state.shared.db) (idle world) events)
    (automatic : Along machine.step (Acting (AvoidsIntervention project environment)) (idle world) events)
    (timely : Along machine.step (Acting (AvoidsReopening project environment)) (idle world) events) :
    ActiveGoesForward project environment world events := by
  have none : ∀ row, row ∉ environmentRows world.db project environment := by
    intro row member
    obtain ⟨present,projects,environments,_⟩ := mem_environmentRows.mp member
    exact empty row present ⟨projects,environments⟩
  have start : Forward project environment world.db :=
    ⟨⟨fun row member => absurd member (none row),fun row member => absurd member (none row),
      fun row member => absurd member (none row)⟩,fun row member => absurd member (none row)⟩
  have kept (state : State) (event : Happening) (forward : Forward project environment state.shared.db)
      (meets : Timely project environment state event) : Forward project environment (machine.step state event).shared.db :=
    (forward.moved (moved_step state event forward meets)).1
  refine along_of_invariant kept ?_ (idle world) events start ?_
  · intro state event forward meets
    exact (forward.moved (moved_step state event forward meets)).2
  · refine along_imp ?_ (idle world) events (along_and (along_and auto automatic) timely)
    intro state event meets
    exact ⟨meets.1.1,meets.1.2,meets.2⟩

end Runs

section Examples
open Sample

def vacant : World := reviewed "auto" { db := database }

def twoClaimed : List Happening := creates 3 1 ++ creates 3 2 ++
  claims ++ claims

/-- A Queued report of the newer deployment stalls before its transaction until the deployment is Active. -/
def reopened : List Happening := twoClaimed ++
  .arrive (.node 7 (.stage 2 { status := some .queued })) :: steps 0 5 ++ buildsAndServes 1 2 ++ steps 0 1 ++
  buildsAndServes 0 1

theorem late_report_activates_older :
    Along machine.step (fun state _ => Auto 3 .production state.shared.db) (idle vacant) reopened ∧
      Along machine.step (Acting (AvoidsIntervention 3 .production)) (idle vacant) reopened ∧
      ¬ActiveGoesForward 3 .production vacant reopened := by
  decide +kernel

/-- The newer deployment is ready first, and the older one is never served. -/
theorem active_goes_forward_out_of_order :
    ActiveGoesForward 3 .production vacant (twoClaimed ++ buildsAndServes 0 2 ++ buildsAndServes 0 1) :=
  active_goes_forward_of_timely _ _ _ _ (by decide) (by decide +kernel) (by decide +kernel) (by decide +kernel)

end Examples

end GrassWorker.ControlPlane
