import GrassWorker.ControlPlane.Commits

/-! Locality: a transaction changes the deployments of one project environment only,
that of the deployment it works on. -/
namespace GrassWorker.ControlPlane
open Transaction Deployments Delivery Handling

def Outside (project : Uuid) (environment : Environment) (row : Deployment) : Prop :=
  ¬(row.projectId = project ∧ row.environment = environment)

instance (project : Uuid) (environment : Environment) : DecidablePred (Outside project environment) :=
  fun row => inferInstanceAs (Decidable (¬(row.projectId = project ∧ row.environment = environment)))

def resident (project : Uuid) (environment : Environment) (db : Database) (id : Uuid) : Option Deployment :=
  (db.deployments.find id).filter fun row => ¬Outside project environment row

def Elsewhere (project : Uuid) (environment : Environment) (db after : Database) : Prop :=
  resident project environment after = resident project environment db

section Locality
variable {project : Uuid} {environment : Environment} {db middle after : Database} {row next : Deployment} {id : Uuid}

theorem Outside.of_identity (outside : Outside project environment row) (same : next.identity = row.identity) :
    Outside project environment next := by
  intro inside
  apply outside
  have projects : next.projectId = row.projectId := congrArg Identity.project same
  have environments : next.environment = row.environment := congrArg Identity.environment same
  rwa [← projects,← environments]

theorem resident_eq_none : resident project environment db id = none ↔
    ∀ row, db.deployments.find id = some row → Outside project environment row := by
  unfold resident
  cases db.deployments.find id <;> simp

theorem Elsewhere.refl (db : Database) : Elsewhere project environment db db := rfl

theorem Elsewhere.trans (first : Elsewhere project environment db middle) (second : Elsewhere project environment middle after) :
    Elsewhere project environment db after := Eq.trans second first

theorem Elsewhere.of_deployments (same : after.deployments = db.deployments) : Elsewhere project environment db after := by
  unfold Elsewhere resident
  rw [same]

theorem Elsewhere.absent (same : Elsewhere project environment db after) (absent : resident project environment db id = none) :
    resident project environment after id = none := by
  rw [same]
  exact absent

theorem Elsewhere.of_rows {becomes : Deployment → Deployment → Prop} (rows : Rows becomes db after)
    (each : ∀ row next, row ∈ db.deployments.rows → becomes row next →
      next.identity = row.identity ∧ (Outside project environment row ∨ next = row)) : Elsewhere project environment db after := by
  funext id
  unfold resident
  cases found : db.deployments.find id with
  | none =>
    cases reached : after.deployments.find id with
    | none => rfl
    | some next => exact (rows.added id next found reached).elim
  | some row =>
    obtain ⟨next,reached,step⟩ := rows.kept id row found
    obtain ⟨identity,outside | same⟩ := each row next (Table.find_mem found) step
    · have left := outside.of_identity identity
      rw [reached,Option.filter_some_neg (by simpa using left),Option.filter_some_neg (by simpa using outside)]
    · rw [reached,same]

structure WroteOutside (project : Uuid) (environment : Environment) (id : Uuid) (db : Database) (updated : Deployment)
    (after : Database) : Prop where
  same : Elsewhere project environment db after
  outside : Outside project environment updated
  key : updated.id = id

theorem WroteOutside.of_wrote {change : Deployment → Deployment} {updated : Deployment} (wrote : Wrote id change db updated after)
    (keeps : ∀ row, (change row).identity = row.identity) (absent : resident project environment db id = none) :
    WroteOutside project environment id db updated after := by
  have away := resident_eq_none.mp absent
  obtain ⟨row,found,written,_⟩ := wrote.row
  refine ⟨.of_rows wrote.evolves ?_,?_,wrote.key fun row => congrArg Identity.id (keeps row)⟩
  · intro row next member same
    subst same
    split
    · rename_i chosen
      exact ⟨keeps row,.inl (away row (by rw [← chosen]; exact Table.find_of_mem member))⟩
    · exact ⟨rfl,.inr rfl⟩
  · rw [← written]
    exact (away row found).of_identity (keeps row)

theorem WroteOutside.absent {updated : Deployment} (wrote : WroteOutside project environment id db updated after)
    (absent : resident project environment db id = none) : resident project environment after updated.id = none := by
  rw [wrote.key]
  exact wrote.same.absent absent

variable {instant : Instant} {passed : Deployment}

theorem update_elsewhere {change : Deployment → Deployment} {keeps : ∀ row, (change row).id = row.id}
    (same : ∀ row, (change row).identity = row.identity) (absent : resident project environment db id = none) :
    Ensures (updateDeployment id change keeps) db (WroteOutside project environment id db) :=
  updateDeployment_ensures.mono fun _ _ wrote => .of_wrote wrote same absent

theorem transitionServe_elsewhere {transition : ServeTransition} (absent : resident project environment db passed.id = none) :
    Ensures (transitionServe instant.now passed transition) db (WroteOutside project environment passed.id db) :=
  transitionServe_ensures.mono fun _ _ wrote => .of_wrote wrote.2 (fun row => setServe_identity _ row _) absent

theorem transitionBuild_elsewhere {transition : BuildTransition} (absent : resident project environment db passed.id = none) :
    Ensures (transitionBuild instant.now passed transition) db (WroteOutside project environment passed.id db) :=
  transitionBuild_ensures.mono fun _ _ wrote => .of_wrote wrote.2 (fun row => setBuild_identity _ row _) absent

theorem transitionRelease_elsewhere {target : ReleaseStatus} {metadata : List (String × Scalar)}
    (absent : resident project environment db passed.id = none) :
    Ensures (transitionRelease passed target metadata) db (WroteOutside project environment passed.id db) :=
  transitionRelease_ensures.mono fun _ _ wrote => .of_wrote wrote.2 (fun _ => rfl) absent

theorem activate_elsewhere {reason : ReleaseReason} {actor : Option Uuid} (outside : Outside project environment passed)
    (absent : resident project environment db passed.id = none) :
    Ensures (activate instant.now passed reason actor) db (WroteOutside project environment passed.id db) := by
  refine activate_ensures.mono ?_
  intro activated after done
  have away := resident_eq_none.mp absent
  refine ⟨.of_rows done.evolves ?_,?_,done.key⟩
  · intro row next member same
    subst same
    unfold activatedRow
    split
    · rename_i chosen
      exact ⟨rfl,.inl (away row (by rw [← chosen]; exact Table.find_of_mem member))⟩
    split
    · rename_i demoted
      obtain ⟨previous,found,key⟩ := Option.map_eq_some_iff.mp demoted.symm
      obtain ⟨inside,projects,environments,_⟩ := previousActive_spec found
      obtain rfl : previous = row := db.deployments.same_of_key inside member key
      refine ⟨rfl,.inl ?_⟩
      unfold Outside at outside ⊢
      rwa [projects,environments]
    · exact ⟨rfl,.inr rfl⟩
  · obtain ⟨row,found,same⟩ := done.row
    rw [← same]
    exact (away row found).of_identity rfl

theorem requestReview_elsewhere {requestedBy : Option Uuid} (absent : resident project environment db passed.id = none) :
    Ensures (requestReview instant passed requestedBy) db fun result after =>
      WroteOutside project environment passed.id db result.1 after := by
  unfold requestReview createReview
  simp only [ensures_bind,ensures_mapError,ensures_write,ensures_appendEvent,ensures_pure]
  refine (transitionRelease_elsewhere absent).mono ?_
  intro reviewed middle wrote review after inserted
  obtain ⟨reviews,_,inserted⟩ := Option.bind_eq_some_iff.mp inserted
  cases inserted
  exact ⟨wrote.same.trans (.of_deployments rfl),wrote.outside,wrote.key⟩

theorem reconcileEnvironment_elsewhere (outside : Outside project environment passed) :
    Ensures (reconcileEnvironment instant passed.projectId passed.environment) db fun _ after =>
      Elsewhere project environment db after := by
  refine reconcileEnvironment_swept.mono ?_
  intro _ after sweep
  refine .of_rows sweep.rows ?_
  intro row next _ same
  subst same
  split
  · rename_i member
    obtain ⟨_,projects,environments,_⟩ := mem_environmentRows.mp member
    refine ⟨?_,.inl ?_⟩
    · unfold swept
      split <;> rfl
    · unfold Outside at outside ⊢
      rwa [projects,environments]
  · exact ⟨rfl,.inr rfl⟩

theorem locked_outside (absent : resident project environment db id = none) (locked : getByIdForUpdate db id = some row) :
    Outside project environment row ∧ resident project environment db row.id = none := by
  rw [locked_id locked]
  exact ⟨resident_eq_none.mp absent row (getByIdForUpdate_eq_some.mp locked).1,absent⟩

end Locality

section Operations
variable {project : Uuid} {environment : Environment} {db : Database} {instant : Instant} {target row : Deployment}

theorem transitionUnsuccessfulBuild_elsewhere {change : BuildTransition}
    (absent : resident project environment db target.id = none) :
    Ensures (transitionUnsuccessfulBuild instant target change) db fun _ after => Elsewhere project environment db after := by
  unfold transitionUnsuccessfulBuild
  simp only [ensures_bind,ensures_require,ensures_lockedRow,Delivery.transition,ensures_mapError,ensures_query,ensures_orElse]
  intro _ row locked
  obtain ⟨outside,absent⟩ := locked_outside absent locked
  refine (transitionBuild_elsewhere absent).mono ?_
  intro _ middle wrote
  refine (reconcileEnvironment_elsewhere outside).mono ?_
  intro _ after settled _ _
  exact wrote.same.trans settled

theorem retire_elsewhere (outside : Outside project environment row) (absent : resident project environment db row.id = none) :
    Ensures (retire instant row) db (WroteOutside project environment row.id db) := by
  unfold retire
  split
  · rw [ensures_pure]
    exact ⟨.refl db,outside,rfl⟩
  · rw [Delivery.transition,ensures_mapError]
    exact transitionServe_elsewhere absent

theorem removePublication_elsewhere {kind : PublicationRemovalKind} (absent : resident project environment db target.id = none) :
    Ensures (removePublication instant target kind) db fun _ after => Elsewhere project environment db after := by
  unfold removePublication
  simp only [ensures_bind,ensures_lockedRow]
  intro row locked
  obtain ⟨outside,absent⟩ := locked_outside absent locked
  split
  · rw [ensures_pure]
    exact .refl db
  simp only [ensures_bind,Delivery.transition,Delivery.write,ensures_mapError,ensures_pure]
  refine (transitionRelease_elsewhere absent).mono ?_
  intro demoted middle first
  have absent := first.absent absent
  refine (retire_elsewhere first.outside absent).mono ?_
  intro served later second
  have keeps : ∀ row, (clearPendingRelease (unassign row)).identity = row.identity := fun _ => rfl
  refine (update_elsewhere keeps (second.absent absent)).mono ?_
  intro removed last third
  refine (reconcileEnvironment_elsewhere second.outside).mono ?_
  intro _ after settled
  exact ((first.same.trans second.same).trans third.same).trans settled

theorem requestRelease_elsewhere {reason : ReleaseReason} {actor : Uuid} {visibility : AuditEventVisibility}
    (absent : resident project environment db target.id = none) :
    Ensures (requestRelease instant target reason actor visibility) db fun _ after =>
      Elsewhere project environment db after := by
  unfold requestRelease
  simp only [ensures_bind,ensures_lockedRow,ensures_get,ensures_require]
  intro row locked _
  obtain ⟨outside,absent⟩ := locked_outside absent locked
  cases releaseRequestAction row.serveStatus row.serveNodeId.isSome with
  | activate =>
    simp only [ensures_bind,Delivery.transition,ensures_mapError,ensures_pure]
    refine (activate_elsewhere outside absent).mono ?_
    intro activated middle done
    refine (reconcileEnvironment_elsewhere done.outside).mono ?_
    intro _ after settled
    exact done.same.trans settled
  | queueSync =>
    simp only [ensures_bind,ensures_appendEvent,ensures_pure]
    refine place_ensures.mono ?_
    rintro placement middle ⟨rfl,_⟩
    rw [Delivery.write,ensures_mapError]
    refine (update_elsewhere (fun row => queueRelease_identity instant placement reason actor visibility row) absent).mono ?_
    intro queued later wrote
    refine (reconcileEnvironment_elsewhere outside).mono ?_
    intro _ after settled
    exact (wrote.same.trans (.of_deployments rfl)).trans settled

theorem completePendingRelease_elsewhere (outside : Outside project environment target)
    (absent : resident project environment db target.id = none) :
    Ensures (completePendingRelease instant target) db fun _ after => Elsewhere project environment db after := by
  unfold completePendingRelease
  cases target.pendingReleaseReason with
  | none =>
    rw [ensures_pure]
    exact .refl db
  | some reason =>
    simp only
    split
    · rw [ensures_pure]
      exact .refl db
    simp only [ensures_bind,Delivery.transition,Delivery.write,audit,ensures_mapError,ensures_modify,ensures_pure]
    refine (activate_elsewhere outside absent).mono ?_
    intro activated middle done
    have keeps : ∀ row, (clearPendingRelease row).identity = row.identity := fun _ => rfl
    refine (update_elsewhere keeps (done.absent absent)).mono ?_
    intro cleared later wrote
    refine (reconcileEnvironment_elsewhere wrote.outside).mono ?_
    intro _ after settled
    exact ((done.same.trans wrote.same).trans settled).trans (.of_deployments rfl)

theorem completeServeReady_elsewhere (outside : Outside project environment target)
    (absent : resident project environment db target.id = none) :
    Ensures (Activation.completeServeReady instant target) db fun _ after => Elsewhere project environment db after := by
  unfold Activation.completeServeReady
  split
  · simp only [ensures_bind,ensures_ofDelivery,ensures_ofReconcile]
    refine (completePendingRelease_elsewhere outside absent).mono ?_
    intro _ middle first
    refine (reconcileEnvironment_elsewhere outside).mono ?_
    intro _ after settled
    exact first.trans settled
  · rw [ensures_bind,ensures_reviewModeOf]
    intro policy _
    split
    · simp only [ensures_bind,ensures_ofState,ensures_createAuditEvent,ensures_ofReconcile]
      refine (activate_elsewhere outside absent).mono ?_
      intro activated middle done
      refine (reconcileEnvironment_elsewhere outside).mono ?_
      intro _ after settled
      exact (done.same.trans (.of_deployments rfl)).trans settled
    · rw [ensures_ofReconcile]
      exact reconcileEnvironment_elsewhere outside

end Operations

section Actions
variable {project : Uuid} {environment : Environment} {db : Database} {instant : Instant} {deployment : Deployment} {id : Uuid}

theorem auditWhen_deployments {condition : Bool} {team : Option Uuid} {action : String} {target : Uuid} {reason : Option String} :
    Ensures (Stage.auditWhen condition team action target reason) db fun _ after => after.deployments = db.deployments := by
  unfold Stage.auditWhen
  rw [ensures_ite]
  simp only [ensures_createAuditEvent,ensures_pure]
  exact ⟨fun _ => trivial,fun _ => trivial⟩

private theorem settleReady_elsewhere (outside : Outside project environment deployment)
    (absent : resident project environment db deployment.id = none) :
    Ensures (Stage.settleReady instant deployment) db fun result after =>
      WroteOutside project environment deployment.id db result.1 after := by
  unfold Stage.settleReady
  rw [ensures_bind,ensures_reviewModeOf]
  intro policy _
  split
  · simp only [ensures_bind,ensures_ofState,ensures_pure]
    exact activate_elsewhere outside absent
  · simp only [ensures_bind,ensures_ofState,ensures_pure]
    exact requestReview_elsewhere absent
  · rw [ensures_pure]
    exact ⟨.refl db,outside,rfl⟩

private theorem finalizeReady_elsewhere {transition : BuildTransition}
    (absent : resident project environment db deployment.id = none) :
    Ensures (Stage.finalizeReady instant deployment transition) db fun _ after => Elsewhere project environment db after := by
  unfold Stage.finalizeReady
  simp only [ensures_bind,ensures_lockedDeployment,ensures_ofReconcile,ensures_pure]
  intro row locked
  obtain ⟨outside,absent⟩ := locked_outside absent locked
  have built : Ensures (Stage.buildReady instant row transition) db (WroteOutside project environment row.id db) := by
    unfold Stage.buildReady
    split
    · rw [ensures_ofState]
      exact transitionBuild_elsewhere absent
    · rw [ensures_pure]
      exact ⟨.refl db,outside,rfl⟩
  refine built.mono ?_
  intro built middle first
  refine (settleReady_elsewhere first.outside (first.absent absent)).mono ?_
  intro result later second
  refine (reconcileEnvironment_elsewhere second.outside).mono ?_
  intro _ after settled
  exact (first.same.trans second.same).trans settled

theorem report_elsewhere {node : Uuid} {status : Stage.ReportedStatus} {body : Stage.StageRequest}
    (absent : resident project environment db deployment.id = none) :
    Ensures (Stage.report instant node deployment status body) db fun _ after => Elsewhere project environment db after := by
  have applied (transition : BuildTransition) : Ensures (Stage.applyReport instant deployment transition) db
      fun _ after => Elsewhere project environment db after := by
    unfold Stage.applyReport
    split
    · exact finalizeReady_elsewhere absent
    · simp only [ensures_bind,ensures_ofDelivery,ensures_pure]
      exact transitionUnsuccessfulBuild_elsewhere absent
    · simp only [ensures_bind,ensures_ofDelivery,ensures_pure]
      exact transitionUnsuccessfulBuild_elsewhere absent
    · simp only [ensures_bind,ensures_ofState,ensures_pure]
      exact (transitionBuild_elsewhere absent).mono fun _ _ wrote => wrote.same
  unfold Stage.report
  simp only [ensures_bind,ensures_pure]
  refine (applied _).mono ?_
  intro result middle first
  refine auditWhen_deployments.mono fun _ _ started => ?_
  refine auditWhen_deployments.mono fun _ _ finished => ?_
  refine auditWhen_deployments.mono fun _ _ reviewed => ?_
  exact first.trans (.of_deployments (reviewed.trans (finished.trans started)))

theorem claim_elsewhere {node : Uuid} (absent : resident project environment db deployment.id = none) :
    Ensures (Claim.claim instant node deployment) db fun _ after => Elsewhere project environment db after := by
  unfold Claim.claim
  simp only [ensures_bind,ensures_get]
  split
  · rw [ensures_pure]
    exact .refl db
  split
  · rw [ensures_pure]
    exact .refl db
  · simp only [ensures_bind,ensures_ofDb,ensures_appendEvent,ensures_pure]
    have keeps : ∀ row, (Claim.setClaimed instant.now node row).identity = row.identity := fun _ => rfl
    refine (update_elsewhere keeps absent).mono ?_
    intro updated after wrote
    exact wrote.same.trans (.of_deployments rfl)

theorem reportStatus_elsewhere {node : Uuid} {enabled : Bool} {sent : ServeReports.Report}
    (absent : resident project environment db id = none) :
    Ensures (ServeReports.reportStatus instant node enabled id sent) db fun _ after =>
      Elsewhere project environment db after := by
  unfold ServeReports.reportStatus
  simp only [ensures_bind,ensures_require,ensures_mapError,ensures_ofExcept,ensures_lockedDeployment,ensures_query]
  intro _ _ _ row locked
  obtain ⟨outside,absent⟩ := locked_outside absent locked
  have assigned : Ensures (ServeReports.reportAssigned instant node row sent) db fun _ after =>
      Elsewhere project environment db after := by
    unfold ServeReports.reportAssigned
    simp only [ensures_bind,ensures_require,ensures_ofState]
    intro _ _
    refine (transitionServe_elsewhere absent).mono ?_
    intro updated middle wrote
    split
    · refine (completeServeReady_elsewhere wrote.outside (wrote.absent absent)).mono ?_
      intro _ after completed
      exact wrote.same.trans completed
    · rw [ensures_pure]
      exact wrote.same
  split
  · split
    · simp only [ServeReports.reportMigration,ensures_write]
      intro _ after written
      obtain ⟨migrations,_,written⟩ := Option.bind_eq_some_iff.mp written
      cases written
      exact .of_deployments rfl
    · exact assigned
  · exact assigned

theorem decide_elsewhere {approved : Bool} {reviewer : Uuid} {reason : Option String}
    (absent : resident project environment db id = none) :
    Ensures (Governance.decide instant id approved reviewer reason) db fun _ after =>
      Elsewhere project environment db after := by
  unfold Governance.decide Governance.projectOf Governance.servedOnce
  simp only [ensures_bind,ensures_lockedDeployment,ensures_query,ensures_orElse,ensures_require,ensures_get]
  intro row locked _ _ _ _
  obtain ⟨outside,absent⟩ := locked_outside absent locked
  have resolved : Ensures (Governance.resolve instant row approved reviewer reason) db
      (WroteOutside project environment row.id db) := by
    unfold Governance.resolve resolveReview
    simp only [ensures_bind,ensures_query,ensures_orElse,ensures_ofDb,ensures_ofState,ensures_write,ensures_appendEvent,
      ensures_createPlatformAuditEvent,ensures_pure]
    intro pending _ review middle written
    obtain ⟨_,_,written⟩ := Option.bind_eq_some_iff.mp written
    obtain ⟨reviews,_,written⟩ := Option.bind_eq_some_iff.mp written
    cases written
    have absent : resident project environment { db with reviews } row.id = none := absent
    refine (transitionRelease_elsewhere absent).mono ?_
    intro decided after wrote
    exact ⟨wrote.same,wrote.outside,wrote.key⟩
  refine resolved.mono ?_
  intro decided middle first
  cases approved with
  | false =>
    simp only [Bool.false_eq_true,if_false,ensures_pure]
    exact first.same
  | true =>
    simp only [if_true,ensures_bind,ensures_ofDelivery,ensures_createPlatformAuditEvent]
    refine (requestRelease_elsewhere (first.absent absent)).mono ?_
    intro outcome after second
    exact (first.same.trans second).trans (.of_deployments rfl)

private theorem republishReleased_elsewhere {actor : Uuid} (outside : Outside project environment deployment)
    (absent : resident project environment db deployment.id = none) :
    Ensures (Governance.republishReleased instant deployment actor) db fun _ after =>
      Elsewhere project environment db after := by
  have returned : Ensures (Governance.returnRejected deployment) db (WroteOutside project environment deployment.id db) := by
    unfold Governance.returnRejected
    split
    · simp only [ensures_bind,ensures_ofState]
      refine (transitionRelease_elsewhere absent).mono ?_
      intro submitted middle first
      refine (transitionRelease_elsewhere (first.absent absent)).mono ?_
      intro target after second
      exact ⟨first.same.trans second.same,second.outside,second.key.trans first.key⟩
    · rw [ensures_pure]
      exact ⟨.refl db,outside,rfl⟩
  unfold Governance.republishReleased
  simp only [ensures_bind,ensures_ofDelivery,ensures_pure]
  refine returned.mono ?_
  intro target middle first
  refine (requestRelease_elsewhere (first.absent absent)).mono ?_
  intro outcome after second
  exact first.same.trans second

theorem republish_elsewhere {actor : Uuid} {reason : Option String} (absent : resident project environment db id = none) :
    Ensures (Governance.republish instant id actor reason) db fun _ after => Elsewhere project environment db after := by
  unfold Governance.republish Governance.projectOf Governance.servedOnce
  simp only [ensures_bind,ensures_lockedDeployment,ensures_require,ensures_get]
  intro row locked _ _
  obtain ⟨outside,absent⟩ := locked_outside absent locked
  rw [ensures_reviewModeOf]
  intro policy _
  split
  · simp only [ensures_bind,ensures_throw]
  · simp only [Governance.republishReviewed,ensures_bind,ensures_ofState,ensures_pure,ensures_createPlatformAuditEvent,
      ensures_query,ensures_orElse]
    refine (requestReview_elsewhere absent).mono ?_
    intro reviewed after wrote _ _
    exact wrote.same.trans (.of_deployments rfl)
  · simp only [ensures_bind,ensures_createPlatformAuditEvent,ensures_query,ensures_orElse,ensures_pure]
    refine (republishReleased_elsewhere outside absent).mono ?_
    intro released after first _ _
    exact first.trans (.of_deployments rfl)

theorem withdraw_elsewhere {actor : Uuid} {reason : Option String} (absent : resident project environment db id = none) :
    Ensures (Governance.withdraw instant id actor reason) db fun _ after => Elsewhere project environment db after := by
  unfold Governance.withdraw Governance.projectOf
  simp only [ensures_bind,ensures_lockedDeployment,ensures_ofDelivery,ensures_createPlatformAuditEvent,ensures_query,
    ensures_orElse,ensures_pure]
  intro row locked
  refine (removePublication_elsewhere (locked_outside absent locked).2).mono ?_
  intro removed after first _ _
  exact first.trans (.of_deployments rfl)

theorem unpublish_elsewhere {owner team actor : Uuid} (absent : resident project environment db id = none) :
    Ensures (Governance.unpublish instant owner team id actor) db fun _ after => Elsewhere project environment db after := by
  unfold Governance.unpublish
  simp only [ensures_bind,ensures_lockedDeployment,ensures_require,ensures_ofDelivery,ensures_createAuditEvent]
  intro row locked _
  refine (removePublication_elsewhere (locked_outside absent locked).2).mono ?_
  intro removed after first
  exact first.trans (.of_deployments rfl)

theorem activation_elsewhere {chosen : Activation.ActivationAction} {reason : ReleaseReason} {actor : Uuid}
    (absent : resident project environment db deployment.id = none) :
    Ensures (Activation.activate instant chosen deployment reason actor) db fun _ after =>
      Elsewhere project environment db after := by
  cases chosen with
  | requestReview =>
    simp only [Activation.activate,ensures_bind,ensures_lockedDeployment,ensures_ofState,ensures_createAuditEvent,ensures_pure]
    intro row locked
    refine (requestReview_elsewhere (locked_outside absent locked).2).mono ?_
    intro reviewed after wrote
    exact wrote.same.trans (.of_deployments rfl)
  | release =>
    simp only [Activation.activate,ensures_bind,ensures_ofDelivery,ensures_createAuditEvent,ensures_pure]
    refine (requestRelease_elsewhere absent).mono ?_
    intro outcome after first
    exact first.trans (.of_deployments rfl)

theorem run_elsewhere (action : Action) (absent : ∀ id, action.target = some id → resident project environment db id = none)
    (created : ∀ params selectedNode region, action ≠ .create params selectedNode region) :
    Ensures (action.run instant) db fun _ after => Elsewhere project environment db after := by
  cases action with
  | progress deployment stage =>
    rw [Action.run,ensures_acknowledge]
    cases stage with
    | none =>
      rw [Stage.progress,ensures_pure]
      exact .refl db
    | some stage =>
      simp only [Stage.progress,ensures_bind,ensures_ofDb,ensures_pure]
      refine updateStage_ensures.mono ?_
      intro updated after wrote
      exact (WroteOutside.of_wrote wrote (fun _ => rfl) (absent _ rfl)).same
  | report owned status body =>
    simp only [Action.run,ensures_bind,ensures_pure]
    exact report_elsewhere (absent _ rfl)
  | cancel deployment actor =>
    simp only [Action.run,ensures_acknowledge,Stage.cancel,ensures_bind,ensures_ofDelivery,ensures_createAuditEvent]
    refine (transitionUnsuccessfulBuild_elsewhere (absent _ rfl)).mono ?_
    intro updated after first
    exact first.trans (.of_deployments rfl)
  | claim node candidate =>
    simp only [Action.run,ensures_bind,ensures_pure]
    exact claim_elsewhere (absent _ rfl)
  | activate chosen deployment reason actor =>
    rw [Action.run,ensures_acknowledge]
    exact activation_elsewhere (absent _ rfl)
  | reportServe node enabled deployment sent =>
    rw [Action.run,ensures_acknowledge]
    exact reportStatus_elsewhere (absent _ rfl)
  | decide deployment approved reviewer reason =>
    rw [Action.run,ensures_acknowledge]
    exact decide_elsewhere (absent _ rfl)
  | republish deployment actor reason =>
    rw [Action.run,ensures_acknowledge]
    exact republish_elsewhere (absent _ rfl)
  | withdraw deployment actor reason =>
    rw [Action.run,ensures_acknowledge]
    exact withdraw_elsewhere (absent _ rfl)
  | unpublish owner team deployment actor =>
    rw [Action.run,ensures_acknowledge]
    exact unpublish_elsewhere (absent _ rfl)
  | create params selectedNode region => exact absurd rfl (created params selectedNode region)
  | failUnimplemented deployment =>
    simp only [Action.run,ensures_acknowledge,Projects.failUnimplemented]
    split
    · rw [ensures_pure]
      exact .refl db
    · simp only [ensures_bind,ensures_ofDelivery,ensures_pure]
      exact transitionUnsuccessfulBuild_elsewhere (absent _ rfl)
  | _ => exact (aside_ensures rfl).mono fun _ _ only => .of_deployments (by rw [only.same])

end Actions

end GrassWorker.ControlPlane
