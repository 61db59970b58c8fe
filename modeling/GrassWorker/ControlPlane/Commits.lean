import GrassWorker.ControlPlane.Effects

/-! Every committed transaction has the effect its action allows. -/
namespace GrassWorker.ControlPlane
open Transaction Deployments Delivery Handling

section Rules
variable {db : Database}

@[simp] theorem ensures_acknowledge {α : Type} (transaction : Handling α) (post : Reply → Database → Prop) :
    Ensures (acknowledge transaction) db post ↔ Ensures transaction db fun _ after => post .acknowledged after := by
  simp only [acknowledge,ensures_bind,ensures_pure]

@[simp] theorem ensures_createAuditEvent (actor team : Option Uuid) (action : String) (target : Uuid)
    (reason : Option String) (post : Unit → Database → Prop) :
    Ensures (createAuditEvent actor team action target reason) db post ↔
      post () { db with audit := db.audit ++
        [⟨actor,team,action,some target,reason,if team.isSome then .team else .platform⟩] } :=
  ensures_modify db _ post

@[simp] theorem ensures_createPlatformAuditEvent (actor team : Option Uuid) (action : String) (target : Uuid)
    (reason : Option String) (post : Unit → Database → Prop) :
    Ensures (createPlatformAuditEvent actor team action target reason) db post ↔
      post () { db with audit := db.audit ++ [⟨actor,team,action,some target,reason,.platform⟩] } :=
  ensures_modify db _ post

end Rules

section Operations
variable {instant : Instant} {db : Database}

theorem mayRelease_active {row : Deployment} (may : MayRelease row .active) :
    row.buildStatus = .ready ∧ row.serveStatus = .ready := by
  obtain ⟨edge,readiness⟩ := may
  unfold validateReleaseReadiness at readiness
  split at readiness
  · rename_i leaving
    obtain ⟨_,impossible | impossible⟩ := leaving <;> cases impossible
  split at readiness
  · cases readiness
  rename_i built
  split at readiness
  · rename_i leaving
    cases leaving.2
  split at readiness
  · rename_i leaving
    obtain ⟨_,_,impossible | impossible⟩ := leaving <;> cases impossible
  split at readiness
  · cases readiness
  rename_i served
  exact ⟨not_not.mp built,not_not.mp served⟩

theorem mayRelease_built {row : Deployment} {target : ReleaseStatus} (may : MayRelease row target)
    (inactive : row.releaseStatus ≠ .active) : row.buildStatus = .ready := by
  have readiness := may.readiness
  unfold validateReleaseReadiness at readiness
  rw [if_neg fun leaving => inactive leaving.1] at readiness
  by_contra unbuilt
  rw [if_pos unbuilt] at readiness
  cases readiness

theorem pending_of_free {row : Deployment} (found : getByIdForUpdate db row.id = some row)
    (free : Delivery.pendingRelease db row = none) : row.pendingReleaseReason = none := by
  obtain ⟨present,live⟩ := getByIdForUpdate_eq_some.mp found
  have refused := List.find?_eq_none.mp free row (Table.find_mem present)
  by_contra awaited
  apply refused
  simp [live,Option.isSome_iff_ne_none.mpr awaited]

theorem requestRelease_edited {target : Deployment} {reason : ReleaseReason} {actorUserId : Uuid}
    {visibility : AuditEventVisibility} :
    Ensures (requestRelease instant target reason actorUserId visibility) db fun outcome after =>
      ∃ locked change demoted, getByIdForUpdate db target.id = some locked ∧
        Edited target.id change demoted db after ∧ (change locked).identity = locked.identity ∧
        Requested locked.lifecycle (change locked).lifecycle ∧ after.audit = db.audit ∧
        (Activation.outcomeDeployment outcome).1.id = target.id := by
  refine requestRelease_ensures.mono ?_
  intro outcome after done
  cases outcome with
  | activated activated =>
    obtain ⟨locked,middle,done,named⟩ := done
    have key := locked_id done.current
    have edit := (activated_edited done.activation).settle done.settled
    obtain ⟨built,served⟩ := mayRelease_active done.activation.may
    rw [key] at edit
    refine ⟨locked,_,_,done.current,edit,rfl,?_,done.settled.rest.audit.trans done.activation.audit,named⟩
    have free := pending_of_free (by rw [key]; exact done.current) done.free
    exact .now free built served done.activation.may.edge
  | syncQueued queued =>
    obtain ⟨locked,placement,done,named⟩ := done
    have key := locked_id done.current
    have free := pending_of_free (by rw [key]; exact done.current) done.free
    refine ⟨locked,_,_,done.current,done.edited,queueRelease_identity instant placement reason actorUserId visibility locked,
      ?_,done.rest.audit,named⟩
    cases chosen : placement with
    | some placement =>
      have requested : Requested locked.lifecycle
          { locked.lifecycle with node := some placement.nodeId, serve := .pending, pending := some reason } :=
        .queued free done.waiting (by decide) (by decide)
      exact requested
    | none =>
      obtain ⟨assigned,serving⟩ := done.placed chosen
      obtain ⟨node,held⟩ := Option.isSome_iff_exists.mp assigned
      have unready : locked.serveStatus ≠ .ready := by
        intro ready
        have waiting := done.waiting
        unfold releaseRequestAction at waiting
        rw [if_pos ⟨assigned,ready⟩] at waiting
        cases waiting
      have after : (queueRelease instant none reason actorUserId visibility locked).lifecycle =
          { locked.lifecycle with node := some node, serve := locked.serveStatus, pending := some reason } := by
        simp [queueRelease,Deployment.lifecycle,held]
      rw [after]
      exact .queued free done.waiting unready serving

theorem requestReview_edited {passed : Deployment} {requestedBy : Option Uuid} :
    Ensures (requestReview instant passed requestedBy) db fun result after =>
      MayRelease passed .pendingReview ∧ Edited passed.id (setRelease .pendingReview) none db after ∧
        after.audit = db.audit ∧ result.1.id = passed.id := by
  unfold requestReview createReview
  simp only [ensures_bind,ensures_mapError,ensures_write,ensures_appendEvent,ensures_pure]
  refine transitionRelease_ensures.mono ?_
  rintro reviewed middle ⟨may,wrote⟩ review after inserted
  obtain ⟨reviews,_,inserted⟩ := Option.bind_eq_some_iff.mp inserted
  cases inserted
  refine ⟨may,(Edited.of_wrote wrote).frame rfl rfl rfl,wrote.rest.audit,wrote.key fun _ => rfl⟩

end Operations

/-! Audit events that do not concern the review gate. -/

structure Quiet (db after : Database) : Prop where
  same : after = { db with audit := after.audit }
  gate : gateLog after = gateLog db

theorem Quiet.refl (db : Database) : Quiet db db := ⟨rfl,rfl⟩

theorem Quiet.trans {db middle after : Database} (first : Quiet db middle) (second : Quiet middle after) :
    Quiet db after where
  same := by rw [second.same,first.same]
  gate := second.gate.trans first.gate

theorem Quiet.append (db : Database) {event : AuditEvent} (other : event.action ∉ gateActions) :
    Quiet db { db with audit := db.audit ++ [event] } := ⟨rfl,gateLog_append_other rfl other⟩

theorem Quiet.edited {target : Uuid} {change : Deployment → Deployment} {demoted : Option Uuid}
    {db middle after : Database} (quiet : Quiet middle after) (edit : Edited target change demoted db middle) :
    Edited target change demoted db after := by
  refine edit.frame ?_ ?_ ?_
  · rw [quiet.same]
  · rw [quiet.same]
  · unfold OnlyReleases
    rw [quiet.same]

section Framing
variable {instant : Instant} {action : Action} {reply : Reply} {demoted : Option Uuid} {db middle after : Database}

theorem Effect.frame (effect : Effect instant action reply demoted db middle) (quiet : Quiet middle after) :
    Effect instant action reply demoted db after where
  rows := by
    rw [quiet.same]
    exact effect.rows
  located := effect.located
  demotes := effect.demotes
  recorded := by
    rw [quiet.same]
    cases effect.recorded with
    | none same kept => exact .none same kept
    | one entry appended previous target activated => exact .one entry appended previous target activated
  creates := by
    rw [quiet.same]
    exact effect.creates
  gate := quiet.gate.trans effect.gate
  records := by
    rw [quiet.same]
    obtain ⟨projects,bindings,sources,migrations⟩ := effect.records
    exact ⟨projects,bindings,sources,migrations⟩

end Framing

abbrev Commits (instant : Instant) (action : Action) (db : Database) : Prop :=
  Ensures (action.run instant) db fun reply after => ∃ demoted, Effect instant action reply demoted db after

section Stage
variable {instant : Instant} {db : Database}

theorem progress_commits (deployment : Deployment) (stage : Option String) :
    Commits instant (.progress deployment stage) db := by
  unfold Commits
  simp only [Action.run,ensures_acknowledge]
  cases stage with
  | none =>
    rw [Stage.progress,ensures_pure]
    refine ⟨none,.of_same rfl rfl ?_ (fun _ _ _ => .staged) (fun _ _ _ same => by cases same) (List.append_nil _).symm (.of_same rfl rfl rfl rfl)⟩
    intro id impossible
    cases impossible
  | some stage =>
    simp only [Stage.progress,ensures_bind,ensures_ofDb,ensures_pure]
    refine updateStage_ensures.mono ?_
    intro updated after wrote
    obtain ⟨row,found,_,_⟩ := wrote.row
    refine ⟨none,.of_edited (.of_wrote wrote) found rfl rfl .staged ?_⟩
    rw [gateLog_of_audit wrote.rest.audit]
    exact (List.append_nil _).symm

theorem auditWhen_quiet {condition : Bool} {team : Option Uuid} {action : String} {target : Uuid}
    {reason : Option String} (other : action ∉ gateActions) :
    Ensures (Stage.auditWhen condition team action target reason) db fun _ after => Quiet db after := by
  unfold Stage.auditWhen
  rw [ensures_ite]
  simp only [ensures_createAuditEvent,ensures_pure]
  exact ⟨fun _ => .append db other,fun _ => .refl db⟩

structure Built (id : Uuid) (locked : Deployment) (db : Database) (built : Deployment)
    (change : Deployment → Deployment) (middle : Database) : Prop where
  edge : locked.buildStatus ≠ .ready → canTransitionBuild locked.buildStatus .ready
  identity : ∀ row, (change row).identity = row.identity
  lifecycle : (change locked).lifecycle = { locked.lifecycle with build := .ready }
  rows : Rows (fun row next => next = if row.id = id then change row else row) db middle
  only : OnlyDeployments db middle
  current : built = change locked
  stored : middle.deployments.find id = some built

private theorem built_ensures {id : Uuid} {locked : Deployment} {transition : BuildTransition}
    (ready : transition.target = .ready) (found : db.deployments.find id = some locked) :
    Ensures (Stage.buildReady instant locked transition) db fun built middle =>
      ∃ change, Built id locked db built change middle := by
  have key : locked.id = id := Table.find_key found
  unfold Stage.buildReady
  rw [ensures_ite,ensures_ofState,ensures_pure]
  constructor
  · intro _
    refine transitionBuild_ensures.mono ?_
    intro built middle ⟨edge,wrote⟩
    rw [ready] at edge
    rw [key] at wrote
    obtain ⟨row,present,same,stored⟩ := wrote.row
    obtain rfl : row = locked := Option.some.inj (present.symm.trans found)
    refine ⟨setBuild instant.now transition,fun _ => edge,fun row => setBuild_identity _ _ _,?_,wrote.evolves,
      wrote.rest,same.symm,stored⟩
    rw [setBuild_lifecycle _ _ (by rw [ready]; decide),ready]
  · intro already
    have ready : locked.buildStatus = .ready := by
      by_contra other
      exact already (by simp [Stage.readyReportNeedsBuildTransition,other])
    refine ⟨fun row => row,fun unready => absurd ready unready,fun _ => rfl,?_,?_,OnlyDeployments.refl db,rfl,found⟩
    · simp [Deployment.lifecycle,ready]
    · exact rows_refl (fun row => by simp) db

theorem readyReleaseAction_spec {mode : ReviewMode} {status : ReleaseStatus} {action : ReadyReleaseAction}
    (chosen : readyReleaseAction mode status = action) :
    action = .none ∨ action = .requestReview ∧ mode = .manual ∧ status = .draft := by
  subst chosen
  unfold readyReleaseAction
  split
  · exact .inl rfl
  · rename_i draft
    cases mode with
    | manual => exact .inr ⟨rfl,rfl,not_not.mp draft⟩
    | auto => exact .inl rfl

private theorem settleReady_ensures {built : Deployment} :
    Ensures (Stage.settleReady instant built) db fun result after =>
      result.1.id = built.id ∧ after.audit = db.audit ∧
        (after = db ∨ modeOf db built.identity = some .manual ∧ built.releaseStatus = .draft ∧
          Edited built.id (setRelease .pendingReview) none db after) := by
  unfold Stage.settleReady
  rw [ensures_bind,ensures_reviewModeOf]
  intro policy resolved
  have mode : modeOf db built.identity = some (policy.modeFor built.environment) := by
    unfold modeOf
    change (reviewPolicyForTeam db built.teamId).map _ = _
    rw [resolved]
    rfl
  cases chosen : readyReleaseAction (policy.modeFor built.environment) built.releaseStatus with
  | activate => rcases readyReleaseAction_spec chosen with impossible | ⟨impossible,_⟩ <;> cases impossible
  | none => simp
  | requestReview =>
    obtain impossible | ⟨_,manual,draft⟩ := readyReleaseAction_spec chosen
    · cases impossible
    simp only [ensures_bind,ensures_ofState,ensures_pure]
    refine requestReview_edited.mono ?_
    rintro reviewed after ⟨_,edit,audit,named⟩
    exact ⟨named,audit,.inr ⟨mode.trans (congrArg some manual),draft,edit⟩⟩

private theorem finalizeReady_commits {owned : Stage.OwnedDeployment} {transition : BuildTransition}
    {body : Stage.StageRequest} (ready : transition.target = .ready) :
    Ensures (Stage.finalizeReady instant owned.row transition) db fun result after =>
      Effect instant (.report owned .ready body) (.buildEnded result.2.1) none db after := by
  unfold Stage.finalizeReady
  rw [ensures_bind,ensures_lockedDeployment]
  intro locked current
  have found := (getByIdForUpdate_eq_some.mp current).1
  rw [ensures_bind]
  refine (built_ensures ready found).mono ?_
  rintro built middle ⟨change,was⟩
  have key : built.id = owned.row.id := Table.find_key was.stored
  simp only [ensures_bind,ensures_ofReconcile,ensures_pure]
  refine settleReady_ensures.mono ?_
  rintro result settled ⟨_,audit,outcome⟩
  refine reconcileEnvironment_ensures.mono ?_
  intro _ after so
  have gate : gateLog after = gateLog db ++ [] := by
    rw [List.append_nil,gateLog_of_audit so.rest.audit,gateLog_of_audit audit,gateLog_of_audit was.only.audit]
  have ended : Stage.readyReportNeedsBuildTransition locked.buildStatus = decide (locked.lifecycle.build ≠ .ready) := rfl
  rw [ended]
  rcases outcome with rfl | ⟨manual,draft,edit⟩
  · have edit := (Edited.of_deterministic was.rows was.only.releases was.only.onlyReleases).settle so
    refine .of_edited edit found (was.identity locked) rfl ?_ gate
    rw [was.lifecycle]
    exact .finished was.edge (.inl rfl)
  · rw [key] at edit
    have keeps : ∀ row, (change row).id = row.id := fun row => congrArg Identity.id (was.identity row)
    have edit := (Edited.chain keeps was.rows was.only.releases was.only.onlyReleases edit).settle so
    have lifecycle := was.lifecycle
    refine .of_edited edit found (was.identity locked) rfl ?_ gate
    rw [setRelease_lifecycle,lifecycle]
    refine .finished was.edge (.inr ⟨?_,?_,rfl⟩)
    · rw [was.current,was.identity,modeOf_of_only was.only.onlyReleases] at manual
      exact manual
    · have same := congrArg Lifecycle.release lifecycle
      rw [was.current] at draft
      exact same.symm.trans draft

private theorem target_ne_claimed (status : Stage.ReportedStatus) : status.target ≠ .claimed := by
  cases status <;> decide

/-- What `apply_report` commits, before the audit events. -/
private theorem applyReport_commits (owned : Stage.OwnedDeployment) (body : Stage.StageRequest)
    {status : Stage.ReportedStatus} {transition : BuildTransition} (target : transition.target = status.target) :
    Ensures (Stage.applyReport instant owned.row transition) db fun result after =>
      Effect instant (.report owned status body)
        (.buildEnded (Stage.isTerminal status.target && result.2.1)) none db after := by
  have early (early : status = .queued ∨ status = .building) :
      Ensures (ofState (transitionBuild instant.now owned.row transition)) db fun _ after =>
        Effect instant (.report owned status body) (.buildEnded false) none db after := by
    rw [ensures_ofState]
    refine transitionBuild_ensures.mono ?_
    intro updated after ⟨edge,wrote⟩
    obtain ⟨row,found,_,_⟩ := wrote.row
    refine .of_edited (.of_wrote wrote) found (setBuild_identity _ _ _) rfl ?_
      ((gateLog_of_audit wrote.rest.audit).trans (List.append_nil _).symm)
    rw [target] at edge
    rw [setBuild_lifecycle _ _ (by rw [target]; exact target_ne_claimed status),target]
    exact .advanced early edge
  have ended (terminal : status = .failed ∨ status = .canceled) :
      Ensures (ofDelivery (transitionUnsuccessfulBuild instant owned.row transition)) db fun _ after =>
        Effect instant (.report owned status body) (.buildEnded true) none db after := by
    rw [ensures_ofDelivery]
    refine transitionUnsuccessfulBuild_ensures.mono ?_
    intro updated after done
    obtain ⟨row,current,edge⟩ := done.edge
    refine .of_edited done.edited (getByIdForUpdate_eq_some.mp current).1 (setBuild_identity _ _ _) rfl ?_
      ((gateLog_of_audit done.rest.audit).trans (List.append_nil _).symm)
    rw [target] at edge
    rw [setBuild_lifecycle _ _ (by rw [target]; exact target_ne_claimed status),target]
    exact .ended terminal edge
  unfold Stage.applyReport
  rw [target]
  cases status with
  | queued =>
    simp only [Stage.ReportedStatus.target,ensures_bind,ensures_pure]
    exact early (.inl rfl)
  | building =>
    simp only [Stage.ReportedStatus.target,ensures_bind,ensures_pure]
    exact early (.inr rfl)
  | failed =>
    simp only [Stage.ReportedStatus.target,ensures_bind,ensures_pure]
    exact ended (.inl rfl)
  | canceled =>
    simp only [Stage.ReportedStatus.target,ensures_bind,ensures_pure]
    exact ended (.inr rfl)
  | ready =>
    simp only [Stage.ReportedStatus.target,Stage.isTerminal,Bool.true_and]
    exact finalizeReady_commits target

theorem report_commits (owned : Stage.OwnedDeployment) (status : Stage.ReportedStatus)
    (body : Stage.StageRequest) : Commits instant (.report owned status body) db := by
  unfold Commits
  simp only [Action.run,Stage.report,ensures_bind,ensures_pure]
  refine (applyReport_commits owned body rfl).mono ?_
  intro result middle effect
  refine (auditWhen_quiet (by decide)).mono fun _ first started => ?_
  refine (auditWhen_quiet (by decide)).mono fun _ second finished => ?_
  refine (auditWhen_quiet (by decide)).mono fun _ third reviewed => ?_
  exact ⟨none,effect.frame ((started.trans finished).trans reviewed)⟩

theorem cancel_commits (deployment : Deployment) (actor : Uuid) : Commits instant (.cancel deployment actor) db := by
  unfold Commits
  simp only [Action.run,ensures_acknowledge,Stage.cancel,ensures_bind,ensures_ofDelivery,ensures_createAuditEvent]
  refine transitionUnsuccessfulBuild_ensures.mono ?_
  intro updated after done
  obtain ⟨row,current,edge⟩ := done.edge
  have effect : Effect instant (.cancel deployment actor) .acknowledged none db after := by
    refine .of_edited done.edited (getByIdForUpdate_eq_some.mp current).1 (setBuild_identity _ _ _) rfl ?_
      ((gateLog_of_audit done.rest.audit).trans (List.append_nil _).symm)
    rw [setBuild_lifecycle _ _ (by decide)]
    exact .canceled edge
  exact ⟨none,effect.frame (.append after (show "deployment.canceled" ∉ gateActions by decide))⟩

theorem failUnimplemented_commits (deployment : Deployment) : Commits instant (.failUnimplemented deployment) db := by
  unfold Commits
  simp only [Action.run,ensures_acknowledge,Projects.failUnimplemented]
  cases unimplemented : runtimeFailure deployment.runtimeKind with
  | none =>
    rw [ensures_pure]
    refine ⟨none,.of_same rfl rfl ?_ (fun _ _ _ => .implemented) (fun _ _ _ same => by cases same) (List.append_nil _).symm (.of_same rfl rfl rfl rfl)⟩
    intro id impossible
    cases impossible
  | some failure =>
    simp only [ensures_bind,ensures_ofDelivery,ensures_pure]
    refine transitionUnsuccessfulBuild_ensures.mono ?_
    intro updated after done
    obtain ⟨row,current,edge⟩ := done.edge
    refine ⟨none,.of_edited done.edited (getByIdForUpdate_eq_some.mp current).1 (setBuild_identity _ _ _) rfl ?_
      ((gateLog_of_audit done.rest.audit).trans (List.append_nil _).symm)⟩
    rw [setBuild_lifecycle _ _ (show BuildStatus.failed ≠ .claimed by decide)]
    exact .failed (by rw [unimplemented]; rfl) edge

theorem claim_commits (node : Uuid) (candidate : Deployment) : Commits instant (.claim node candidate) db := by
  unfold Commits
  simp only [Action.run,ensures_bind,ensures_pure,Claim.claim,ensures_get]
  have unclaimed (outcome : Claim.ClaimOutcome) (lost : outcome ≠ .claimed) :
      ∃ demoted, Effect instant (.claim node candidate) (.claim outcome) demoted db db := by
    refine ⟨none,.of_same rfl rfl ?_ (fun _ _ _ => .unclaimed lost) (fun _ _ _ same => by cases same) (List.append_nil _).symm (.of_same rfl rfl rfl rfl)⟩
    intro id named
    cases outcome with
    | claimed => exact absurd rfl lost
    | nodeGone => cases named
    | lost => cases named
  split
  · rw [ensures_pure]
    exact unclaimed .nodeGone (by decide)
  split
  · rw [ensures_pure]
    exact unclaimed .lost (by decide)
  · rename_i row found
    obtain ⟨found,waiting⟩ := Option.filter_eq_some_iff.mp found
    simp only [ensures_bind,ensures_ofDb,ensures_appendEvent,ensures_pure]
    refine updateDeployment_ensures.mono ?_
    intro updated after wrote
    have wrote := wrote.appendEvent ⟨candidate.id,.build,"build status changed to claimed",
      [("status",.string "claimed"),("build_node_id",.uuid node)]⟩
    refine ⟨none,.of_edited (.of_wrote wrote) found rfl rfl ?_
      ((gateLog_of_audit wrote.rest.audit).trans (List.append_nil _).symm)⟩
    exact .claimed (of_decide_eq_true waiting)

end Stage

section Releases
variable {instant : Instant} {db : Database}

theorem activate_commits (chosen : Activation.ActivationAction) (deployment : Deployment) (reason : ReleaseReason)
    (actor : Uuid) : Commits instant (.activate chosen deployment reason actor) db := by
  unfold Commits
  simp only [Action.run,ensures_acknowledge]
  cases chosen with
  | requestReview =>
    simp only [Activation.activate,ensures_bind,ensures_lockedDeployment,ensures_ofState,ensures_createAuditEvent,
      ensures_pure]
    intro locked current
    have found := (getByIdForUpdate_eq_some.mp current).1
    refine requestReview_edited.mono ?_
    rintro reviewed after ⟨may,edit,audit,named⟩
    rw [locked_id current] at edit
    have inactive : locked.releaseStatus ≠ .active := by
      intro active
      have edge := may.edge
      rw [active] at edge
      cases edge
    have effect : Effect instant (.activate .requestReview deployment reason actor) .acknowledged none db after :=
      .of_edited edit found rfl rfl (.reviewRequested (mayRelease_built may inactive) may.edge)
        ((gateLog_of_audit audit).trans (List.append_nil _).symm)
    exact ⟨none,effect.frame (.append after (show "deployment.review_requested" ∉ gateActions by decide))⟩
  | release =>
    simp only [Activation.activate,ensures_bind,ensures_ofDelivery,ensures_createAuditEvent,ensures_pure]
    refine requestRelease_edited.mono ?_
    rintro outcome after ⟨locked,change,demoted,current,edit,identity,requested,audit,named⟩
    have effect : Effect instant (.activate .release deployment reason actor) .acknowledged demoted db after :=
      .of_edited edit (getByIdForUpdate_eq_some.mp current).1 identity rfl (.released requested)
        ((gateLog_of_audit audit).trans (List.append_nil _).symm)
    exact ⟨demoted,effect.frame (.append after (releaseAuditAction_not_mem _ _))⟩

theorem withdraw_commits (deployment actor : Uuid) (reason : Option String) :
    Commits instant (.withdraw deployment actor reason) db := by
  unfold Commits
  simp only [Action.run,ensures_acknowledge,Governance.withdraw,Governance.projectOf,ensures_bind,
    ensures_lockedDeployment,ensures_ofDelivery,ensures_createPlatformAuditEvent,ensures_query,ensures_orElse,
    ensures_pure]
  intro locked current
  have found := (getByIdForUpdate_eq_some.mp current).1
  have key := locked_id current
  refine removePublication_ensures.mono ?_
  intro removed after outcome _ _
  rcases outcome with ⟨row,again,rfl,rfl,complete⟩ | ⟨done,named⟩
  · rw [key] at again
    obtain rfl : removed = locked := Option.some.inj (again.symm.trans current)
    obtain ⟨draft,retired⟩ : removed.releaseStatus = .draft ∧ removed.serveStatus = .retired :=
      of_decide_eq_true complete
    refine ⟨none,.of_same rfl rfl ?_ ?_ (fun _ _ _ same => by cases same) ?_ (.of_same rfl rfl rfl rfl)⟩
    · intro id located
      cases located
      exact ⟨removed,found⟩
    · intro row member aimed
      obtain rfl : deployment = row.id := Option.some.inj aimed
      obtain rfl : row = removed := after.deployments.same_of_key member (Table.find_mem found) key.symm
      exact .alreadyWithdrawn draft retired
    · rw [gateLog_append rfl,if_pos (show "deployment.withdrawn" ∈ gateActions by decide),key]
      rfl
  · obtain ⟨row,again,may⟩ := done.may
    rw [key] at again named
    obtain rfl : row = locked := Option.some.inj (again.symm.trans current)
    have edit := done.edited
    rw [key] at edit
    refine ⟨none,.of_edited (edit.frame rfl rfl rfl) found rfl rfl (.withdrawn may.edge) ?_⟩
    rw [gateLog_append rfl,if_pos (show "deployment.withdrawn" ∈ gateActions by decide),named,gateLog_of_audit done.rest.audit]
    rfl

theorem unpublish_commits (project team deployment actor : Uuid) :
    Commits instant (.unpublish project team deployment actor) db := by
  unfold Commits
  simp only [Action.run,ensures_acknowledge,Governance.unpublish,ensures_bind,ensures_lockedDeployment,ensures_require,
    ensures_ofDelivery,ensures_createAuditEvent]
  intro locked current _
  have found := (getByIdForUpdate_eq_some.mp current).1
  have key := locked_id current
  refine removePublication_ensures.mono ?_
  intro removed after outcome
  rcases outcome with ⟨row,again,rfl,rfl,complete⟩ | ⟨done,named⟩
  · rw [key] at again
    obtain rfl : removed = locked := Option.some.inj (again.symm.trans current)
    obtain ⟨approved,retired⟩ : removed.releaseStatus = .approved ∧ removed.serveStatus = .retired :=
      of_decide_eq_true complete
    have effect : Effect instant (.unpublish project team deployment actor) .acknowledged none after after := by
      refine .of_same rfl rfl ?_ ?_ (fun _ _ _ same => by cases same) (List.append_nil _).symm (.of_same rfl rfl rfl rfl)
      · intro id located
        cases located
        exact ⟨removed,found⟩
      · intro row member aimed
        obtain rfl : deployment = row.id := Option.some.inj aimed
        obtain rfl : row = removed := after.deployments.same_of_key member (Table.find_mem found) key.symm
        exact .alreadyUnpublished approved retired
    exact ⟨none,effect.frame (.append after (show "deployment.unpublished" ∉ gateActions by decide))⟩
  · obtain ⟨row,again,may⟩ := done.may
    rw [key] at again
    obtain rfl : row = locked := Option.some.inj (again.symm.trans current)
    have edit := done.edited
    rw [key] at edit
    have effect : Effect instant (.unpublish project team deployment actor) .acknowledged none db after :=
      .of_edited edit found rfl rfl (.unpublished may.edge)
        ((gateLog_of_audit done.rest.audit).trans (List.append_nil _).symm)
    exact ⟨none,effect.frame (.append after (show "deployment.unpublished" ∉ gateActions by decide))⟩

private structure Resolved (id : Uuid) (approved : Bool) (target : ReleaseStatus) (locked : Deployment) (db : Database)
    (decided : Deployment) (after : Database) : Prop where
  may : MayRelease locked target
  rows : Rows (fun row next => next = if row.id = id then setRelease target row else row) db after
  releases : after.releases = db.releases
  only : OnlyReleases db after
  named : decided.id = id
  stored : after.deployments.find id = some (setRelease target locked)
  gate : gateLog after = gateLog db ++ if approved then [("deployment.review_approved",some id)] else []

private theorem resolve_ensures {id : Uuid} {locked : Deployment} (found : db.deployments.find id = some locked)
    (approved : Bool) (reviewer : Uuid) (reason : Option String) :
    Ensures (Governance.resolve instant locked approved reviewer reason) db
      (Resolved id approved (if approved then .approved else .rejected) locked db) := by
  unfold Governance.resolve resolveReview
  simp only [ensures_bind,ensures_query,ensures_orElse,ensures_ofDb,ensures_ofState,ensures_write,ensures_appendEvent,
    ensures_createPlatformAuditEvent,ensures_pure]
  intro pending _ review first resolved
  obtain ⟨row,_,resolved⟩ := Option.bind_eq_some_iff.mp resolved
  obtain ⟨reviews,_,resolved⟩ := Option.bind_eq_some_iff.mp resolved
  cases resolved
  have key : locked.id = id := Table.find_key found
  refine transitionRelease_ensures.mono ?_
  rintro decided middle ⟨may,wrote⟩
  rw [key] at wrote
  obtain ⟨origin,present,same,stored⟩ := wrote.row
  obtain rfl : origin = locked := Option.some.inj (present.symm.trans found)
  have named : decided.id = id := wrote.key fun _ => rfl
  refine ⟨may,wrote.evolves,wrote.rest.releases,?_,named,by rw [same]; exact stored,?_⟩
  · have rest := wrote.rest
    unfold OnlyDeployments at rest
    unfold OnlyReleases
    rw [rest]
  · have kept : gateLog middle = gateLog db := gateLog_of_audit wrote.rest.audit
    rw [gateLog_append rfl,named]
    change gateLog middle ++ _ = _
    rw [kept]
    cases approved <;> rfl

theorem decide_commits (deployment : Uuid) (approved : Bool) (reviewer : Uuid) (reason : Option String) :
    Commits instant (.decide deployment approved reviewer reason) db := by
  unfold Commits
  simp only [Action.run,ensures_acknowledge,Governance.decide,Governance.projectOf,Governance.servedOnce,ensures_bind,
    ensures_lockedDeployment,ensures_query,ensures_orElse,ensures_require,ensures_get]
  intro locked current _ _ ready _
  have found := (getByIdForUpdate_eq_some.mp current).1
  refine (resolve_ensures found approved reviewer reason).mono ?_
  intro decided middle done
  cases approved with
  | false =>
    simp only [Bool.false_eq_true,if_false,ensures_pure]
    have edit : Edited deployment (setRelease .rejected) none db middle :=
      .of_deterministic done.rows done.releases done.only
    exact ⟨none,.of_edited edit found rfl rfl (.rejected done.may.edge) done.gate⟩
  | true =>
    simp only [if_true,ensures_bind,ensures_ofDelivery,ensures_createPlatformAuditEvent]
    refine requestRelease_edited.mono ?_
    rintro outcome after ⟨row,change,demoted,now,edit,identity,requested,audit,_⟩
    rw [done.named] at now edit
    obtain rfl : setRelease .approved locked = row :=
      Option.some.inj (done.stored.symm.trans (getByIdForUpdate_eq_some.mp now).1)
    have keeps : ∀ row, (setRelease .approved row).id = row.id := fun _ => rfl
    have edit := Edited.chain keeps done.rows done.releases done.only edit
    have effect : Effect instant (.decide deployment true reviewer reason) .acknowledged demoted db after := by
      refine .of_edited edit found identity rfl (.approved done.may.edge ready.1 requested) ?_
      rw [gateLog_of_audit audit]
      exact done.gate
    exact ⟨demoted,effect.frame (.append after (releaseAuditAction_not_mem _ _))⟩

private theorem returnRejected_ensures {id : Uuid} {locked : Deployment}
    (found : db.deployments.find id = some locked) :
    Ensures (Governance.returnRejected locked) db fun target after =>
      target.id = id ∧ ∃ change : Deployment → Deployment, (∀ row, (change row).id = row.id) ∧ (change locked).identity = locked.identity ∧
        (change locked).lifecycle = { locked.lifecycle with
          release := if locked.releaseStatus = .rejected then .approved else locked.releaseStatus } ∧
        Rows (fun row next => next = if row.id = id then change row else row) db after ∧
        OnlyDeployments db after ∧ after.deployments.find id = some (change locked) := by
  have key : locked.id = id := Table.find_key found
  unfold Governance.returnRejected
  split
  · rename_i rejected
    simp only [ensures_bind,ensures_ofState]
    refine transitionRelease_ensures.mono ?_
    rintro submitted middle ⟨_,first⟩
    refine transitionRelease_ensures.mono ?_
    rintro target after ⟨_,second⟩
    have submittedKey : submitted.id = locked.id := first.key fun _ => rfl
    rw [submittedKey] at second
    have wrote := first.trans second
    rw [key] at wrote
    obtain ⟨row,present,same,stored⟩ := wrote.row
    obtain rfl : row = locked := Option.some.inj (present.symm.trans found)
    refine ⟨wrote.key fun _ => rfl,fun row => setRelease .approved (setRelease .pendingReview row),fun _ => rfl,rfl,?_,
      wrote.evolves,wrote.rest,stored.trans (congrArg some same.symm)⟩
    rfl
  · rename_i other
    rw [ensures_pure]
    refine ⟨key,fun row => row,fun _ => rfl,rfl,rfl,rows_refl (fun row => by simp) db,OnlyDeployments.refl db,found⟩

private theorem republishReleased_ensures {id actor : Uuid} {locked : Deployment}
    (found : db.deployments.find id = some locked) :
    Ensures (Governance.republishReleased instant locked actor) db fun result after =>
      ∃ (change : Deployment → Deployment) (demoted : Option Uuid), Edited id change demoted db after ∧
        (change locked).identity = locked.identity ∧
        Requested { locked.lifecycle with
          release := if locked.releaseStatus = .rejected then .approved else locked.releaseStatus }
          (change locked).lifecycle ∧
        after.audit = db.audit ∧ result.2 ∉ gateActions := by
  unfold Governance.republishReleased
  simp only [ensures_bind,ensures_ofDelivery,ensures_pure]
  refine (returnRejected_ensures found).mono ?_
  rintro target middle ⟨named,first,keeps,identity,lifecycle,rows,only,stored⟩
  refine requestRelease_edited.mono ?_
  rintro outcome after ⟨row,change,demoted,now,edit,same,requested,audit,_⟩
  rw [named] at now edit
  obtain rfl : first locked = row := Option.some.inj (stored.symm.trans (getByIdForUpdate_eq_some.mp now).1)
  refine ⟨_,demoted,.chain keeps rows only.releases only.onlyReleases edit,same.trans identity,?_,
    audit.trans only.audit,?_⟩
  · rw [← lifecycle]
    exact requested
  · split <;> decide

private theorem republishAction_release {status : ReleaseStatus} {mode : ReviewMode}
    (chosen : Governance.republishAction status mode = .release) :
    status = .approved ∨ mode = .auto ∧ (status = .draft ∨ status = .rejected) := by
  cases status <;> cases mode <;> simp_all [Governance.republishAction]

private theorem republishAction_review {status : ReleaseStatus} {mode : ReviewMode}
    (chosen : Governance.republishAction status mode = .review) : mode = .manual := by
  cases status <;> cases mode <;> simp_all [Governance.republishAction]

theorem republish_commits (deployment actor : Uuid) (reason : Option String) :
    Commits instant (.republish deployment actor reason) db := by
  unfold Commits
  simp only [Action.run,ensures_acknowledge,Governance.republish,Governance.projectOf,Governance.servedOnce,ensures_bind,
    ensures_lockedDeployment,ensures_require,ensures_get]
  intro locked current ready _
  have found := (getByIdForUpdate_eq_some.mp current).1
  rw [ensures_reviewModeOf]
  intro policy resolved
  have mode : modeOf db locked.identity = some (policy.modeFor locked.environment) := by
    unfold modeOf
    change (reviewPolicyForTeam db locked.teamId).map _ = _
    rw [resolved]
    rfl
  cases chosen : Governance.republishAction locked.releaseStatus (policy.modeFor locked.environment) with
  | conflict => simp only [ensures_bind,ensures_throw]
  | review =>
    simp only [Governance.republishReviewed,ensures_bind,ensures_ofState,ensures_pure,
      ensures_createPlatformAuditEvent,ensures_query,ensures_orElse]
    refine requestReview_edited.mono ?_
    rintro reviewed after ⟨may,edit,audit,named⟩ _ _
    rw [locked_id current] at edit
    have manual := mode.trans (congrArg some (republishAction_review chosen))
    have effect : Effect instant (.republish deployment actor reason) .acknowledged none db after :=
      .of_edited edit found rfl rfl (.resubmitted ready.1 ready.2 manual may.edge)
        ((gateLog_of_audit audit).trans (List.append_nil _).symm)
    exact ⟨none,effect.frame (.append after
      (show "deployment.republish_review_requested" ∉ gateActions by decide))⟩
  | release =>
    simp only [ensures_bind,ensures_createPlatformAuditEvent,ensures_query,ensures_orElse,ensures_pure]
    refine (republishReleased_ensures found).mono ?_
    rintro result after ⟨change,demoted,edit,identity,requested,audit,quiet⟩ _ _
    have step : Step (modeOf db locked.identity) locked.lifecycle (.republish deployment actor reason) .acknowledged
        (change locked).lifecycle := by
      rw [mode]
      rcases republishAction_release chosen with approved | ⟨auto,draft | rejected⟩
      · rw [if_neg (by rw [approved]; decide)] at requested
        exact .republished ready.1 (.inl approved) requested
      · rw [if_neg (by rw [draft]; decide)] at requested
        exact .republished ready.1 (.inr ⟨congrArg some auto,draft⟩) requested
      · rw [if_pos rejected] at requested
        exact .republishedRejected ready.1 (congrArg some auto) rejected requested
    have effect : Effect instant (.republish deployment actor reason) .acknowledged demoted db after :=
      .of_edited edit found identity rfl step ((gateLog_of_audit audit).trans (List.append_nil _).symm)
    exact ⟨demoted,effect.frame (.append after quiet)⟩

end Releases

theorem serveReadyReleaseAction_activate {mode : ReviewMode} {status : ReleaseStatus}
    (chosen : serveReadyReleaseAction mode status = .activate) : mode = .auto ∧ status = .draft := by
  cases mode <;> cases status <;> simp_all [serveReadyReleaseAction]

section Serving
variable {instant : Instant} {db : Database} {node : Uuid} {enabled : Bool} {deployment : Uuid}

private structure Served (node id : Uuid) (status : ServeStatus) (locked : Deployment) (db : Database)
    (change : Deployment → Deployment) (updated : Deployment) (middle : Database) : Prop where
  found : db.deployments.find id = some locked
  keeps : ∀ row, (change row).id = row.id
  identity : (change locked).identity = locked.identity
  lifecycle : (change locked).lifecycle = { locked.lifecycle with serve := status }
  wrote : Wrote id change db updated middle
  current : updated = change locked
  assigned : locked.serveNodeId = some node
  built : locked.buildStatus = .ready
  edge : canTransitionServe locked.serveStatus status

section Completion
variable {locked updated : Deployment} {change : Deployment → Deployment} {status : ServeStatus}
  {sent : ServeReports.Report} {middle after : Database}

private theorem Served.stored (served : Served node deployment status locked db change updated middle) :
    updated.id = deployment ∧ middle.deployments.find updated.id = some updated := by
  have named : updated.id = deployment := served.wrote.key served.keeps
  obtain ⟨_,_,_,stored⟩ := served.wrote.row
  rw [named]
  exact ⟨rfl,stored⟩

private theorem Served.effect (served : Served node deployment status locked db change updated middle)
    {later : Deployment → Deployment} {demoted : Option Uuid} (edit : Edited updated.id later demoted middle after)
    (identity : (later updated).identity = updated.identity)
    (step : Step (modeOf db locked.identity) locked.lifecycle (.reportServe node enabled deployment sent) .acknowledged
      (later updated).lifecycle) (gate : gateLog after = gateLog middle) :
    Effect instant (.reportServe node enabled deployment sent) .acknowledged demoted db after := by
  rw [served.stored.1] at edit
  rw [served.current] at identity step
  have rest := served.wrote.rest
  have edit := Edited.chain served.keeps served.wrote.evolves rest.releases rest.onlyReleases edit
  refine .of_edited edit served.found (identity.trans served.identity) rfl step ?_
  rw [gate,gateLog_of_audit rest.audit]
  exact (List.append_nil _).symm

private theorem completeServeReady_commits (ready : sent.status = .ready)
    (served : Served node deployment .ready locked db change updated middle) :
    Ensures (Activation.completeServeReady instant updated) middle fun _ after =>
      ∃ demoted, Effect instant (.reportServe node enabled deployment sent) .acknowledged demoted db after := by
  obtain ⟨named,stored⟩ := served.stored
  have lifecycle : updated.lifecycle = { locked.lifecycle with serve := .ready } := by
    rw [served.current,served.lifecycle]
  have release : updated.releaseStatus = locked.lifecycle.release := congrArg Lifecycle.release lifecycle
  have pending : updated.pendingReleaseReason = locked.lifecycle.pending := congrArg Lifecycle.pending lifecycle
  have edge : canTransitionServe locked.lifecycle.serve sent.status.target := by
    rw [ready]
    exact served.edge
  -- The row is left as the report's own transition made it.
  have unchanged (free : locked.lifecycle.pending = none) :
      Ensures (ofReconcile (reconcileEnvironment instant updated.projectId updated.environment)) middle fun _ after =>
        ∃ demoted, Effect instant (.reportServe node enabled deployment sent) .acknowledged demoted db after := by
    rw [ensures_ofReconcile]
    refine reconcileEnvironment_ensures.mono ?_
    intro _ after so
    have edit : Edited updated.id (fun row => row) none middle after :=
      (Edited.of_deterministic (rows_refl (fun row => by simp) middle) rfl rfl).settle so
    refine ⟨none,served.effect edit rfl ?_ (gateLog_of_audit so.rest.audit)⟩
    have step : Step (modeOf db locked.identity) locked.lifecycle (.reportServe node enabled deployment sent)
        .acknowledged { locked.lifecycle with serve := sent.status.target } :=
      .synchronized served.assigned served.built edge fun _ => free
    rw [lifecycle]
    rw [ready] at step
    exact step
  unfold Activation.completeServeReady
  split
  · rename_i awaited
    rw [ensures_bind,ensures_ofDelivery]
    refine completePendingRelease_ensures.mono ?_
    intro _ completed outcome
    rw [ensures_ofReconcile]
    refine reconcileEnvironment_ensures.mono ?_
    intro _ after so
    rcases outcome with ⟨_,free | unready⟩ | ⟨reason,held,done⟩
    · rw [free] at awaited
      cases awaited
    · exact absurd (congrArg Lifecycle.serve lifecycle) unready
    · have edit := (done.edited stored).settle so
      obtain ⟨event,appended,action⟩ := done.audit
      have other : event.action ∉ gateActions := by
        rw [action]
        exact releaseAuditAction_not_mem _ _
      refine ⟨_,served.effect edit rfl ?_ ((gateLog_of_audit so.rest.audit).trans (gateLog_append_other appended other))⟩
      have cleared : (clearPendingRelease (setRelease .active updated)).lifecycle =
          { updated.lifecycle with release := .active, pending := none } := rfl
      have may := done.may.edge
      rw [release] at may
      rw [pending] at awaited
      rw [cleared,lifecycle]
      exact .completed served.assigned served.built served.edge awaited may
  · rename_i unawaited
    rw [ensures_bind,ensures_reviewModeOf]
    intro policy resolved
    have free : locked.lifecycle.pending = none := by
      rw [pending] at unawaited
      simpa using unawaited
    cases chosen : serveReadyReleaseAction (policy.modeFor updated.environment) updated.releaseStatus with
    | none => exact unchanged free
    | requestReview => exact unchanged free
    | activate =>
      simp only [ensures_bind,ensures_ofState,ensures_createAuditEvent,ensures_ofReconcile]
      refine Deployments.activate_ensures.mono ?_
      intro activated second done
      refine reconcileEnvironment_ensures.mono ?_
      intro _ after so
      have quiet : Quiet second { second with audit := second.audit ++
          [⟨none,some activated.teamId,"deployment.auto_activated",some activated.id,none,.team⟩] } :=
        .append second (show "deployment.auto_activated" ∉ gateActions by decide)
      have edit := (quiet.edited (activated_edited done)).settle so
      have gate : gateLog after = gateLog middle :=
        (gateLog_of_audit so.rest.audit).trans (quiet.gate.trans (gateLog_of_audit done.audit))
      refine ⟨_,served.effect edit rfl ?_ gate⟩
      obtain ⟨auto,draft⟩ := serveReadyReleaseAction_activate chosen
      rw [release] at draft
      have mode : modeOf db locked.identity = some .auto := by
        rw [← served.identity,← served.current,← modeOf_of_only served.wrote.rest.onlyReleases,← auto]
        unfold modeOf
        change (reviewPolicyForTeam middle updated.teamId).map _ = _
        rw [resolved]
        rfl
      rw [setRelease_lifecycle,lifecycle]
      exact .autoActivated served.assigned served.built served.edge free mode draft

private theorem reportAssigned_commits {sent : ServeReports.Report} {locked : Deployment}
    (current : getByIdForUpdate db deployment = some locked) :
    Ensures (ServeReports.reportAssigned instant node locked sent) db fun _ after =>
      ∃ demoted, Effect instant (.reportServe node enabled deployment sent) .acknowledged demoted db after := by
  unfold ServeReports.reportAssigned
  simp only [ensures_bind,ensures_require,ensures_ofState]
  intro assigned built
  refine transitionServe_ensures.mono ?_
  rintro updated middle ⟨edge,wrote⟩
  rw [locked_id current] at wrote
  obtain ⟨row,present,same,_⟩ := wrote.row
  have found := (getByIdForUpdate_eq_some.mp current).1
  obtain rfl : row = locked := Option.some.inj (present.symm.trans found)
  have served : Served node deployment sent.status.target row db _ updated middle :=
    ⟨found,fun other => setServe_id _ other _,setServe_identity _ _ _,setServe_lifecycle _ _ _,wrote,same.symm,
      assigned,built,edge⟩
  split
  · rename_i ready
    have target : sent.status.target = .ready := by rw [ready]; rfl
    rw [target] at served
    exact completeServeReady_commits ready served
  · rename_i unready
    rw [ensures_pure]
    have edit : Edited updated.id (fun row => row) none middle middle :=
      Edited.of_deterministic (rows_refl (fun row => by simp) middle) rfl rfl
    refine ⟨none,served.effect edit rfl ?_ rfl⟩
    rw [served.current,served.lifecycle]
    exact .synchronized assigned built edge fun ready => absurd ready unready

end Completion

private theorem shadowMigration_mem {shadow : NodeDeploymentMigration}
    (found : ServeReports.shadowMigration db node deployment = some shadow) :
    shadow ∈ db.migrations.rows ∧ ServeReports.isShadow shadow.status := by
  have selected := List.find?_some found
  exact ⟨List.mem_of_find?_eq_some found,(of_decide_eq_true selected).2.2⟩

private theorem reportMigration_evolves {sent : ServeReports.Report} {shadow : NodeDeploymentMigration}
    {migrations : Table NodeDeploymentMigration (·.id) unindexed}
    (present : shadow ∈ db.migrations.rows ∧ ServeReports.isShadow shadow.status)
    (updated : db.migrations.update shadow.id (ServeReports.setMigration instant sent)
      (fun row => ServeReports.setMigration_id instant sent row) = some migrations) :
    Table.Evolves (fun row next => next.deploymentId = row.deploymentId ∧
        (ServeReports.isShadow next.status → ServeReports.isShadow row.status)) (fun _ => False)
      db.migrations migrations := by
  refine (Table.evolves_update updated).mono ?_ fun _ impossible => impossible
  intro row next member same
  subst same
  split
  · rename_i chosen
    obtain rfl : row = shadow := db.migrations.same_of_key member present.1 chosen
    refine ⟨?_,fun _ => present.2⟩
    unfold ServeReports.setMigration
    split <;> rfl
  · exact ⟨rfl,id⟩

theorem reportServe_commits (sent : ServeReports.Report) : Commits instant (.reportServe node enabled deployment sent) db := by
  unfold Commits
  simp only [Action.run,ensures_acknowledge,ServeReports.reportStatus,ensures_bind,ensures_require,ensures_mapError,
    ensures_ofExcept,ensures_lockedDeployment,ensures_query]
  intro _ _ _ locked current
  have found := (getByIdForUpdate_eq_some.mp current).1
  cases migration : ServeReports.shadowMigration db node deployment with
  | none => exact reportAssigned_commits current
  | some shadow =>
    simp only
    split
    · simp only [ServeReports.reportMigration,ensures_write]
      intro _ after written
      obtain ⟨migrations,updated,written⟩ := Option.bind_eq_some_iff.mp written
      cases written
      refine ⟨none,.of_same rfl rfl ?_ (fun _ _ _ => .migrating) (fun _ _ _ same => by cases same) (List.append_nil _).symm ?_⟩
      · intro id located
        cases located
        exact ⟨locked,found⟩
      · obtain ⟨projects,bindings,sources,_⟩ : Records instant (.reportServe node enabled deployment sent) db db :=
          .of_same rfl rfl rfl rfl
        exact ⟨projects,bindings,sources,reportMigration_evolves (shadowMigration_mem migration) updated⟩
    · exact reportAssigned_commits current

end Serving

section Records
variable {instant : Instant} {db : Database}

theorem create_commits (params : Projects.CreateDeploymentParams) (selectedNode : Option Uuid) (region : Option String) :
    Commits instant (.create params selectedNode region) db := by
  unfold Commits
  simp only [Action.run,Projects.createPlacedDeployment,Projects.createDeployment,ensures_bind,ensures_get,
    ensures_mapError,ensures_ofExcept,ensures_write,ensures_appendEvent,ensures_createAuditEvent,ensures_pure]
  intro placement _ created middle written
  obtain ⟨deployments,inserted,written⟩ := Option.bind_eq_some_iff.mp written
  cases written
  refine ⟨none,?_,?_,?_,.none rfl rfl,?_,?_,.of_same rfl rfl rfl rfl⟩
  · refine (Table.evolves_insert inserted).mono ?_ ?_
    · intro row next _ same
      subst same
      exact ⟨rfl,_,by rw [Changes,if_neg (by simp [Action.target]),if_neg (by simp)],.inl rfl⟩
    · intro row same
      subst same
      exact ⟨params,selectedNode,region,placement,rfl,rfl,rfl⟩
  · intro id impossible
    cases impossible
  · intro id impossible
    cases impossible
  · intro _ _ _ _
    refine ⟨_,rfl,?_,Table.find_before_insert inserted⟩
    rw [Table.rows_insert inserted]
    exact List.mem_append_right _ (List.mem_singleton_self _)
  · rw [gateLog_append rfl,if_pos (show "deployment.created" ∈ gateActions by decide)]
    rfl

structure Aside (instant : Instant) (action : Action) (db after : Database) : Prop where
  same : after = { db with
    teams := after.teams, teamGroups := after.teamGroups, projects := after.projects, bindings := after.bindings
    sources := after.sources, audit := after.audit, releaseReviewPolicy := after.releaseReviewPolicy }
  gate : gateLog after = gateLog db
  records : Records instant action db after

theorem Aside.refl (instant : Instant) (action : Action) (db : Database) : Aside instant action db db :=
  ⟨rfl,rfl,.of_same rfl rfl rfl rfl⟩

section Asides
variable {action : Action} {middle : Database}

theorem Aside.audited (only : Aside instant action db middle) {event : AuditEvent} (other : event.action ∉ gateActions) :
    Aside instant action db { middle with audit := middle.audit ++ [event] } where
  same := by rw [only.same]
  gate := (gateLog_append_other rfl other).trans only.gate
  records := by
    obtain ⟨projects,bindings,sources,migrations⟩ := only.records
    exact ⟨projects,bindings,sources,migrations⟩

def Action.aside : Action → Bool
  | .deleteProject _ _ | .restoreProject _ _ | .removeTeam _ _ | .setReviewPolicy _ | .setGroupReviewPolicy _ _
  | .createSource _ | .createProject _ _ | .createBinding _ | .updateBindingStatus _ _ _ | .runCheck _ _ _
  | .decideDomain _ _ _ _ | .deleteHost _ _ => true
  | _ => false

private theorem updateProject_aside {id : Uuid} {change : Project → Project} {keeps : ∀ row, (change row).id = row.id}
    (only : Aside instant action db middle)
    (becomes : ∀ row, row.id = id → (change row).slug = row.slug ∧
      ((change row).deletedAt = row.deletedAt ∨ (∃ actor, action = .deleteProject row.id actor) ∨
        ∃ actor, action = .restoreProject row.id actor)) (same : middle.projects = db.projects) :
    Ensures (Projects.updateProject id change keeps) middle fun _ after => Aside instant action db after := by
  simp only [Projects.updateProject,ensures_write]
  intro _ after written
  obtain ⟨projects,updated,written⟩ := Option.bind_eq_some_iff.mp written
  cases written
  obtain ⟨_,bindings,sources,migrations⟩ := only.records
  refine ⟨by rw [only.same],only.gate,?_,bindings,sources,migrations⟩
  rw [← same]
  refine (Table.evolves_update updated).mono ?_ fun _ impossible => impossible
  intro row next _ after
  subst after
  split
  · rename_i chosen
    exact becomes row chosen
  · exact ⟨rfl,.inl rfl⟩

private theorem updateBinding_aside (instant : Instant) (action : Action) {id : Uuid} {change : HostBinding → HostBinding}
    {keeps : ∀ row, (change row).id = row.id}
    (becomes : ∀ row, (change row).host = row.host ∧ ((change row).deletedAt = none → row.deletedAt = none)) :
    Ensures (Hosts.updateBinding id change keeps) db fun _ after => Aside instant action db after := by
  simp only [Hosts.updateBinding,ensures_write]
  intro _ after written
  obtain ⟨bindings,updated,written⟩ := Option.bind_eq_some_iff.mp written
  cases written
  obtain ⟨projects,_,sources,migrations⟩ := (Aside.refl instant action db).records
  refine ⟨rfl,rfl,projects,?_,sources,migrations⟩
  refine (Table.evolves_update updated).mono ?_ fun _ impossible => impossible
  intro row next _ after
  subst after
  split
  · exact becomes row
  · exact ⟨rfl,fun live => live⟩

end Asides

theorem deleteProject_aside (project actor : Uuid) :
    Ensures (Projects.softDeleteProjectRecords instant project actor) db fun _ after =>
      Aside instant (.deleteProject project actor) db after := by
  simp only [Projects.softDeleteProjectRecords,ensures_bind,ensures_query,ensures_orElse]
  intro row found
  split
  · rw [ensures_pure]
    exact .refl instant _ db
  simp only [ensures_bind,ensures_write,ensures_createAuditEvent]
  intro _ middle written
  obtain ⟨bindings,updated,written⟩ := Option.bind_eq_some_iff.mp written
  cases written
  have deleted : Aside instant (.deleteProject project actor) db { db with bindings } := by
    obtain ⟨projects,_,sources,migrations⟩ := (Aside.refl instant (.deleteProject project actor) db).records
    refine ⟨rfl,rfl,projects,?_,sources,migrations⟩
    refine (Table.evolves_updateWhere updated).mono ?_ fun _ impossible => impossible
    intro binding next _ after
    subst after
    split
    · exact ⟨rfl,fun impossible => by cases impossible⟩
    · exact ⟨rfl,id⟩
  refine (updateProject_aside deleted ?_ rfl).mono ?_
  · intro other chosen
    subst chosen
    exact ⟨rfl,.inr (.inl ⟨actor,rfl⟩)⟩
  · intro _ after only
    exact only.audited (show "project.deleted" ∉ gateActions by decide)

theorem restoreProject_aside (project actor : Uuid) :
    Ensures (Projects.restoreProject project actor) db fun _ after =>
      Aside instant (.restoreProject project actor) db after := by
  simp only [Projects.restoreProject,ensures_bind,ensures_query,ensures_orElse,ensures_require,ensures_createAuditEvent]
  intro row found _
  refine (updateProject_aside (.refl instant (.restoreProject project actor) db) ?_ rfl).mono ?_
  · intro other chosen
    subst chosen
    exact ⟨rfl,.inr (.inr ⟨actor,rfl⟩)⟩
  · intro _ after only
    exact only.audited (show "project.restored" ∉ gateActions by decide)

theorem removeTeam_aside (team actor : Uuid) :
    Ensures (Projects.removeTeam instant team actor) db fun _ after => Aside instant (.removeTeam team actor) db after := by
  simp only [Projects.removeTeam,ensures_bind,ensures_query,ensures_orElse,ensures_require,ensures_get,ensures_write,
    ensures_createPlatformAuditEvent]
  intro row _ _ _ _ middle written
  obtain ⟨teams,_,written⟩ := Option.bind_eq_some_iff.mp written
  cases written
  have only : Aside instant (.removeTeam team actor) db { db with teams } := ⟨rfl,rfl,.of_same rfl rfl rfl rfl⟩
  exact only.audited (show "team.deleted" ∉ gateActions by decide)

theorem createSource_aside (params : Hosts.CreateHostSourceParams) :
    Ensures (Hosts.createSource instant params) db fun _ after => Aside instant (.createSource params) db after := by
  simp only [Hosts.createSource,ensures_bind,ensures_get,ensures_require,ensures_write]
  intro _ _ after written
  obtain ⟨sources,inserted,written⟩ := Option.bind_eq_some_iff.mp written
  cases written
  obtain ⟨projects,bindings,_,migrations⟩ := (Aside.refl instant (.createSource params) db).records
  refine ⟨rfl,rfl,projects,bindings,?_,migrations⟩
  refine (Table.evolves_insert inserted).mono (fun _ _ _ same => same) ?_
  intro row same
  subst same
  exact ⟨params,rfl,rfl⟩

theorem createProject_aside (params : Hosts.CreateProjectParams) (actor : Uuid) :
    Ensures (Hosts.createProject instant params actor) db fun _ after =>
      Aside instant (.createProject params actor) db after := by
  simp only [Hosts.createProject,ensures_bind,ensures_write,ensures_createAuditEvent,ensures_pure]
  intro project middle written
  obtain ⟨projects,inserted,written⟩ := Option.bind_eq_some_iff.mp written
  cases written
  have only : Aside instant (.createProject params actor) db { db with projects } := by
    obtain ⟨_,bindings,sources,migrations⟩ := (Aside.refl instant (.createProject params actor) db).records
    refine ⟨rfl,rfl,?_,bindings,sources,migrations⟩
    refine (Table.evolves_insert inserted).mono ?_ ?_
    · intro row next _ same
      subst same
      exact ⟨rfl,.inl rfl⟩
    · intro row same
      subst same
      exact ⟨params,actor,rfl,rfl⟩
  exact only.audited (show "project.created" ∉ gateActions by decide)

theorem createBinding_aside (request : Hosts.BindHostRequest) :
    Ensures (Hosts.createBinding instant request) db fun _ after => Aside instant (.createBinding request) db after := by
  simp only [Hosts.createBinding,ensures_write]
  intro _ after written
  obtain ⟨bindings,inserted,written⟩ := Option.bind_eq_some_iff.mp written
  cases written
  obtain ⟨projects,_,sources,migrations⟩ := (Aside.refl instant (.createBinding request) db).records
  refine ⟨rfl,rfl,projects,?_,sources,migrations⟩
  refine (Table.evolves_insert inserted).mono ?_ ?_
  · intro row next _ same
    subst same
    exact ⟨rfl,id⟩
  · intro row same
    exact ⟨request,rfl,same⟩

theorem runCheck_aside (binding : Uuid) (ready : Bool) (ownership : Hosts.DnsVerification) :
    Ensures (Hosts.runCheck binding ready ownership) db fun _ after =>
      Aside instant (.runCheck binding ready ownership) db after := by
  unfold Hosts.runCheck
  rw [ensures_bind,ensures_query]
  cases Hosts.getBindingById db binding with
  | none =>
    simp only [ensures_pure]
    exact .refl instant _ db
  | some row =>
    simp only
    split
    · rw [ensures_pure]
      exact .refl instant _ db
    · refine updateBinding_aside instant _ fun row => ?_
      cases ownership <;> exact ⟨rfl,id⟩

theorem decideDomain_aside (binding : Uuid) (approved : Bool) (actor : Uuid) (reason : Option String) :
    Ensures (Hosts.decideDomain binding approved actor reason) db fun _ after =>
      Aside instant (.decideDomain binding approved actor reason) db after := by
  unfold Hosts.decideDomain
  simp only [ensures_bind,ensures_query,ensures_orElse,ensures_require]
  intro row _ _
  cases Hosts.domainDecision row.reviewStatus approved with
  | conflict => simp only [ensures_throw]
  | apply reviewStatus bindingStatus =>
    simp only [ensures_bind,ensures_createPlatformAuditEvent,ensures_query,ensures_orElse,ensures_pure]
    refine (updateBinding_aside instant (.decideDomain binding approved actor reason) ?_).mono ?_
    · intro row
      exact ⟨rfl,id⟩
    · intro _ after only _ _
      refine only.audited ?_
      cases approved with
      | true => exact (show "domain.approved" ∉ gateActions by decide)
      | false => exact (show "domain.rejected" ∉ gateActions by decide)

theorem deleteHost_aside (project binding : Uuid) :
    Ensures (Hosts.deleteHost instant project binding) db fun _ after =>
      Aside instant (.deleteHost project binding) db after := by
  unfold Hosts.deleteHost
  simp only [ensures_bind,ensures_query,ensures_orElse]
  intro row _
  split
  · rw [ensures_pure]
    exact .refl instant _ db
  · exact updateBinding_aside instant _ fun row => ⟨rfl,fun impossible => by cases impossible⟩

theorem aside_ensures {action : Action} (aside : action.aside) :
    Ensures (action.run instant) db fun _ after => Aside instant action db after := by
  cases action with
  | deleteProject project actor =>
    rw [Action.run,ensures_acknowledge]
    exact deleteProject_aside project actor
  | restoreProject project actor =>
    rw [Action.run,ensures_acknowledge]
    exact restoreProject_aside project actor
  | removeTeam team actor =>
    rw [Action.run,ensures_acknowledge]
    exact removeTeam_aside team actor
  | setReviewPolicy policy =>
    simp only [Action.run,ensures_acknowledge,Governance.setReviewPolicy,ensures_modify]
    exact ⟨rfl,rfl,.of_same rfl rfl rfl rfl⟩
  | setGroupReviewPolicy group policy =>
    simp only [Action.run,ensures_acknowledge,Governance.setGroupReviewPolicy,ensures_write]
    intro _ after written
    obtain ⟨teamGroups,_,written⟩ := Option.bind_eq_some_iff.mp written
    cases written
    exact ⟨rfl,rfl,.of_same rfl rfl rfl rfl⟩
  | createSource params =>
    rw [Action.run,ensures_acknowledge]
    exact createSource_aside params
  | createProject params actor =>
    simp only [Action.run,ensures_bind,ensures_pure]
    exact createProject_aside params actor
  | createBinding request =>
    simp only [Action.run,ensures_bind,ensures_pure]
    exact createBinding_aside request
  | updateBindingStatus binding status failureReason =>
    rw [Action.run,ensures_acknowledge,Hosts.updateBindingStatus]
    exact updateBinding_aside instant _ fun row => ⟨rfl,id⟩
  | runCheck binding ready ownership =>
    rw [Action.run,ensures_acknowledge]
    exact runCheck_aside binding ready ownership
  | decideDomain binding approved actor reason =>
    rw [Action.run,ensures_acknowledge]
    exact decideDomain_aside binding approved actor reason
  | deleteHost project binding =>
    rw [Action.run,ensures_acknowledge]
    exact deleteHost_aside project binding
  | _ => cases aside

theorem aside_commits {action : Action} (aside : action.aside) : Commits instant action db := by
  refine (aside_ensures aside).mono ?_
  intro reply after only
  have located : action.located reply = none := by
    cases action <;> cases reply <;> first | rfl | cases aside
  have target : action.target = none := by
    cases action <;> first | rfl | cases aside
  have gate : action.gate reply = [] := by
    cases action <;> cases reply <;> first | rfl | cases aside
  have fixed (params : Projects.CreateDeploymentParams) (selectedNode : Option Uuid) (region : Option String) :
      action ≠ .create params selectedNode region := by
    intro same
    subst same
    cases aside
  refine ⟨none,.of_same (by rw [only.same]) (by rw [only.same]) ?_ ?_ fixed ?_ only.records⟩
  · intro id named
    rw [located] at named
    cases named
  · intro row _ aimed
    rw [target] at aimed
    cases aimed
  · rw [gate,List.append_nil]
    exact only.gate

end Records

theorem commits (instant : Instant) (action : Action) (db : Database) : Commits instant action db := by
  cases action with
  | progress deployment stage => exact progress_commits deployment stage
  | report owned status body => exact report_commits owned status body
  | cancel deployment actor => exact cancel_commits deployment actor
  | claim node candidate => exact claim_commits node candidate
  | activate chosen deployment reason actor => exact activate_commits chosen deployment reason actor
  | reportServe node enabled deployment sent => exact reportServe_commits sent
  | decide deployment approved reviewer reason => exact decide_commits deployment approved reviewer reason
  | republish deployment actor reason => exact republish_commits deployment actor reason
  | withdraw deployment actor reason => exact withdraw_commits deployment actor reason
  | unpublish project team deployment actor => exact unpublish_commits project team deployment actor
  | create params selectedNode region => exact create_commits params selectedNode region
  | failUnimplemented deployment => exact failUnimplemented_commits deployment
  | _ => exact aside_commits rfl

end GrassWorker.ControlPlane
