import GrassWorker.ControlPlane.Actions
import GrassWorker.Domain.Edits

/-! What a transaction may do. A deployment is looked at through its identity,
which never changes, and its lifecycle; `Step` lists every change of a lifecycle
with what the transaction checked before it. -/
namespace GrassWorker.ControlPlane
open Transaction Deployments Delivery Handling

def Action.target : Action → Option Uuid
  | .report owned _ _ => some owned.row.id
  | .progress deployment _ | .cancel deployment _ | .claim _ deployment
  | .activate _ deployment _ _ | .failUnimplemented deployment => some deployment.id
  | .reportServe _ _ deployment _ | .decide deployment _ _ _ | .republish deployment _ _
  | .withdraw deployment _ _ | .unpublish _ _ deployment _ => some deployment
  | _ => none

/-- The deployment that is known to exist when the transaction commits with this reply. -/
def Action.located : Action → Reply → Option Uuid
  | .report owned _ _,_ => some owned.row.id
  | .cancel deployment _,_ | .claim _ deployment,.claim .claimed
  | .activate _ deployment _ _,_ => some deployment.id
  | .decide deployment _ _ _,_ | .republish deployment _ _,_ | .withdraw deployment _ _,_
  | .unpublish _ _ deployment _,_ | .reportServe _ _ deployment _,_ => some deployment
  | _,_ => none

def modeOf (db : Database) (identity : Identity) : Option ReviewMode :=
  (reviewPolicyForTeam db identity.team).map fun policy => policy.modeFor identity.environment

inductive Requested (base : Lifecycle) : Lifecycle → Prop
  | now (free : base.pending = none) (built : base.build = .ready) (served : base.serve = .ready)
      (edge : canTransitionRelease base.release .active) : Requested base { base with release := .active }
  | queued {node : Uuid} {serve : ServeStatus} {reason : ReleaseReason} (free : base.pending = none)
      (waiting : releaseRequestAction base.serve base.node.isSome = .queueSync)
      (unready : serve ≠ .ready) (assigned : serve ≠ .retired) :
      Requested base { base with node := some node, serve, pending := some reason }

def removedLifecycle (kind : PublicationRemovalKind) (lifecycle : Lifecycle) : Lifecycle :=
  { lifecycle with release := publicationRemovalTarget kind, serve := .retired, node := none, pending := none }

inductive Step (mode : Option ReviewMode) (lifecycle : Lifecycle) : Action → Reply → Lifecycle → Prop
  | staged {deployment stage} : Step mode lifecycle (.progress deployment stage) .acknowledged lifecycle
  | advanced {owned status body} (early : status = .queued ∨ status = .building)
      (edge : canTransitionBuild owned.row.buildStatus status.target) :
      Step mode lifecycle (.report owned status body) (.buildEnded false)
        { lifecycle with build := status.target }
  | ended {owned status body} (terminal : status = .failed ∨ status = .canceled)
      (edge : canTransitionBuild lifecycle.build status.target) :
      Step mode lifecycle (.report owned status body) (.buildEnded true)
        { lifecycle with build := status.target }
  | finished {owned body} {release : ReleaseStatus}
      (edge : lifecycle.build ≠ .ready → canTransitionBuild lifecycle.build .ready)
      (reviewed : release = lifecycle.release ∨
        mode = some .manual ∧ lifecycle.release = .draft ∧ release = .pendingReview) :
      Step mode lifecycle (.report owned .ready body) (.buildEnded (lifecycle.build ≠ .ready))
        { lifecycle with build := .ready, release }
  | canceled {deployment actor} (edge : canTransitionBuild lifecycle.build .canceled) :
      Step mode lifecycle (.cancel deployment actor) .acknowledged { lifecycle with build := .canceled }
  | claimed {node candidate} (waiting : lifecycle.build = .pending) :
      Step mode lifecycle (.claim node candidate) (.claim .claimed)
        { lifecycle with build := .claimed, builder := some node }
  | unclaimed {node candidate outcome} (lost : outcome ≠ .claimed) :
      Step mode lifecycle (.claim node candidate) (.claim outcome) lifecycle
  | reviewRequested {deployment reason actor} (built : lifecycle.build = .ready)
      (edge : canTransitionRelease lifecycle.release .pendingReview) :
      Step mode lifecycle (.activate .requestReview deployment reason actor) .acknowledged
        { lifecycle with release := .pendingReview }
  | released {deployment reason actor next} (requested : Requested lifecycle next) :
      Step mode lifecycle (.activate .release deployment reason actor) .acknowledged next
  | migrating {node enabled deployment sent} :
      Step mode lifecycle (.reportServe node enabled deployment sent) .acknowledged lifecycle
  | synchronized {node enabled deployment} {sent : ServeReports.Report} (assigned : lifecycle.node = some node)
      (built : lifecycle.build = .ready) (edge : canTransitionServe lifecycle.serve sent.status.target)
      (free : sent.status = .ready → lifecycle.pending = none) :
      Step mode lifecycle (.reportServe node enabled deployment sent) .acknowledged
        { lifecycle with serve := sent.status.target }
  | completed {node enabled deployment} {sent : ServeReports.Report} (assigned : lifecycle.node = some node)
      (built : lifecycle.build = .ready) (edge : canTransitionServe lifecycle.serve .ready)
      (pending : lifecycle.pending.isSome) (may : canTransitionRelease lifecycle.release .active) :
      Step mode lifecycle (.reportServe node enabled deployment sent) .acknowledged
        { lifecycle with serve := .ready, release := .active, pending := none }
  | autoActivated {node enabled deployment} {sent : ServeReports.Report} (assigned : lifecycle.node = some node)
      (built : lifecycle.build = .ready) (edge : canTransitionServe lifecycle.serve .ready)
      (free : lifecycle.pending = none) (auto : mode = some .auto) (draft : lifecycle.release = .draft) :
      Step mode lifecycle (.reportServe node enabled deployment sent) .acknowledged
        { lifecycle with serve := .ready, release := .active }
  | approved {deployment reviewer reason next} (edge : canTransitionRelease lifecycle.release .approved)
      (built : lifecycle.build = .ready) (requested : Requested { lifecycle with release := .approved } next) :
      Step mode lifecycle (.decide deployment true reviewer reason) .acknowledged next
  | rejected {deployment reviewer reason} (edge : canTransitionRelease lifecycle.release .rejected) :
      Step mode lifecycle (.decide deployment false reviewer reason) .acknowledged
        { lifecycle with release := .rejected }
  | republished {deployment actor reason next} (built : lifecycle.build = .ready)
      (may : lifecycle.release = .approved ∨ mode = some .auto ∧ lifecycle.release = .draft)
      (requested : Requested lifecycle next) :
      Step mode lifecycle (.republish deployment actor reason) .acknowledged next
  | republishedRejected {deployment actor reason next} (built : lifecycle.build = .ready)
      (auto : mode = some .auto) (rejected : lifecycle.release = .rejected)
      (requested : Requested { lifecycle with release := .approved } next) :
      Step mode lifecycle (.republish deployment actor reason) .acknowledged next
  | resubmitted {deployment actor reason} (built : lifecycle.build = .ready)
      (served : lifecycle.serve = .ready ∨ lifecycle.serve = .retired) (manual : mode = some .manual)
      (edge : canTransitionRelease lifecycle.release .pendingReview) :
      Step mode lifecycle (.republish deployment actor reason) .acknowledged
        { lifecycle with release := .pendingReview }
  | withdrawn {deployment actor reason} (edge : canTransitionRelease lifecycle.release .draft) :
      Step mode lifecycle (.withdraw deployment actor reason) .acknowledged
        (removedLifecycle .platformAdmin lifecycle)
  | alreadyWithdrawn {deployment actor reason} (draft : lifecycle.release = .draft)
      (retired : lifecycle.serve = .retired) :
      Step mode lifecycle (.withdraw deployment actor reason) .acknowledged lifecycle
  | unpublished {project team deployment actor} (edge : canTransitionRelease lifecycle.release .approved) :
      Step mode lifecycle (.unpublish project team deployment actor) .acknowledged
        (removedLifecycle .teamUser lifecycle)
  | alreadyUnpublished {project team deployment actor} (approved : lifecycle.release = .approved)
      (retired : lifecycle.serve = .retired) :
      Step mode lifecycle (.unpublish project team deployment actor) .acknowledged lifecycle
  | failed {deployment} (unimplemented : (runtimeFailure deployment.runtimeKind).isSome)
      (edge : canTransitionBuild lifecycle.build .failed) :
      Step mode lifecycle (.failUnimplemented deployment) .acknowledged { lifecycle with build := .failed }
  | implemented {deployment} : Step mode lifecycle (.failUnimplemented deployment) .acknowledged lifecycle

def Settles (lifecycle next : Lifecycle) : Prop :=
  next = lifecycle ∨ inProgress lifecycle.build = false ∧ lifecycle.pending = none ∧
    next = { lifecycle with serve := .retired, node := none }

theorem settles_of_settled {row next : Deployment} (settled : Settled row next) :
    next.identity = row.identity ∧ Settles row.lifecycle next.lifecycle := by
  rcases settled with rfl | ⟨may,rfl⟩
  · exact ⟨rfl,.inl rfl⟩
  · exact ⟨rfl,.inr ⟨may.idle,may.unawaited,rfl⟩⟩

def Changes (action : Action) (reply : Reply) (demoted : Option Uuid) (mode : Option ReviewMode) (id : Uuid)
    (lifecycle next : Lifecycle) : Prop :=
  if action.target = some id then Step mode lifecycle action reply next
  else if demoted = some id then next = { lifecycle with release := .approved }
  else next = lifecycle

def gateActions : List String := ["deployment.created","deployment.withdrawn","deployment.review_approved"]

def gateLog (db : Database) : List (String × Option Uuid) :=
  (db.audit.filter fun event => event.action ∈ gateActions).map fun event => (event.action,event.targetId)

def Action.gate : Action → Reply → List (String × Option Uuid)
  | .create _ _ _,.created deployment => [("deployment.created",some deployment.id)]
  | .withdraw deployment _ _,_ => [("deployment.withdrawn",some deployment)]
  | .decide deployment true _ _,_ => [("deployment.review_approved",some deployment)]
  | _,_ => []

def Born (instant : Instant) (action : Action) (reply : Reply) (row : Deployment) : Prop :=
  ∃ params selectedNode region placement, action = .create params selectedNode region ∧
    row = Projects.newDeployment instant params placement ∧ reply = .created row

/-- The release rows a transaction appended, with the deployment that left Active for them. -/
inductive Recorded (action : Action) (demoted : Option Uuid) (db after : Database) : Prop
  | none (same : after.releases = db.releases) (kept : demoted = .none)
  | one (entry : Release) (appended : after.releases = db.releases ++ [entry])
      (previous : entry.previousDeploymentId = demoted) (target : action.target = some entry.deploymentId)
      (activated : ∃ row, after.deployments.find entry.deploymentId = some row ∧ row.releaseStatus = .active)

structure Records (instant : Instant) (action : Action) (db after : Database) : Prop where
  projects : Table.Evolves (fun row next => next.slug = row.slug ∧
      (next.deletedAt = row.deletedAt ∨ (∃ actor, action = .deleteProject row.id actor) ∨
        ∃ actor, action = .restoreProject row.id actor))
    (fun row => ∃ params actor, action = .createProject params actor ∧ row.slug = params.slug)
    db.projects after.projects
  bindings : Table.Evolves (fun row next => next.host = row.host ∧ (next.deletedAt = none → row.deletedAt = none))
    (fun row => ∃ request, action = .createBinding request ∧ row = Hosts.newBinding instant request)
    db.bindings after.bindings
  sources : Table.Evolves (fun row next => next = row)
    (fun row => ∃ params, action = .createSource params ∧ row.baseDomain = params.baseDomain) db.sources after.sources
  migrations : Table.Evolves (fun row next => next.deploymentId = row.deploymentId ∧
      (ServeReports.isShadow next.status → ServeReports.isShadow row.status)) (fun _ => False)
    db.migrations after.migrations

theorem Records.of_same {instant : Instant} {action : Action} {db after : Database}
    (projects : after.projects = db.projects) (bindings : after.bindings = db.bindings)
    (sources : after.sources = db.sources) (migrations : after.migrations = db.migrations) :
    Records instant action db after where
  projects := by
    rw [projects]
    exact Table.evolves_refl (fun _ => ⟨rfl,.inl rfl⟩) db.projects
  bindings := by
    rw [bindings]
    exact Table.evolves_refl (fun _ => ⟨rfl,id⟩) db.bindings
  sources := by
    rw [sources]
    refine Table.evolves_refl ?_ db.sources
    exact fun _ => rfl
  migrations := by
    rw [migrations]
    exact Table.evolves_refl (fun _ => ⟨rfl,id⟩) db.migrations

/-- What a committed transaction did to the deployments and to the records about them. -/
structure Effect (instant : Instant) (action : Action) (reply : Reply) (demoted : Option Uuid)
    (db after : Database) : Prop where
  rows : Table.Evolves (fun row next => next.identity = row.identity ∧
      ∃ mid, Changes action reply demoted (modeOf db row.identity) row.id row.lifecycle mid ∧
        Settles mid next.lifecycle)
    (Born instant action reply) db.deployments after.deployments
  located : ∀ id, action.located reply = some id → ∃ row, db.deployments.find id = some row
  demotes : ∀ id, demoted = some id → action.target ≠ some id ∧
    ∃ row, db.deployments.find id = some row ∧ row.releaseStatus = .active
  recorded : Recorded action demoted db after
  creates : ∀ params selectedNode region, action = .create params selectedNode region →
    ∃ row, reply = .created row ∧ row ∈ after.deployments.rows ∧ db.deployments.find row.id = none
  gate : gateLog after = gateLog db ++ action.gate reply
  records : Records instant action db after

/-! From the operations to the steps. -/

section Records
variable {db after : Database}

theorem gateLog_of_audit (same : after.audit = db.audit) : gateLog after = gateLog db := by
  unfold gateLog
  rw [same]

theorem gateLog_append {event : AuditEvent} (appended : after.audit = db.audit ++ [event]) :
    gateLog after = gateLog db ++ if event.action ∈ gateActions then [(event.action,event.targetId)] else [] := by
  unfold gateLog
  rw [appended,List.filter_append,List.map_append]
  congr 1
  by_cases gated : event.action ∈ gateActions <;> simp [gated]

theorem gateLog_append_other {event : AuditEvent} (appended : after.audit = db.audit ++ [event])
    (other : event.action ∉ gateActions) : gateLog after = gateLog db := by
  rw [gateLog_append appended,if_neg other,List.append_nil]

theorem releaseAuditAction_not_mem (reason : ReleaseReason) (pending : Bool) :
    releaseAuditAction reason pending ∉ gateActions := by
  cases reason <;> cases pending <;> decide

theorem reviewPolicyForTeam_of_only (only : OnlyReleases db after) (team : Uuid) :
    reviewPolicyForTeam after team = reviewPolicyForTeam db team := by
  rw [only]
  rfl

theorem modeOf_of_only (only : OnlyReleases db after) (identity : Identity) : modeOf after identity = modeOf db identity := by
  unfold modeOf
  rw [reviewPolicyForTeam_of_only only]

end Records

theorem located_target {action : Action} {reply : Reply} {id : Uuid} (located : action.located reply = some id) :
    action.target = some id := by
  cases action <;> cases reply <;> first | exact located | cases located | skip
  rename_i outcome
  cases outcome <;> first | exact located | cases located

section Building
variable {instant : Instant} {action : Action} {reply : Reply} {target : Uuid} {change : Deployment → Deployment}
  {demoted : Option Uuid} {locked : Deployment} {db after : Database}

theorem Effect.of_edited (edit : Edited target change demoted db after) (found : db.deployments.find target = some locked)
    (identity : (change locked).identity = locked.identity) (aimed : action.target = some target)
    (step : Step (modeOf db locked.identity) locked.lifecycle action reply (change locked).lifecycle)
    (gate : gateLog after = gateLog db ++ action.gate reply) : Effect instant action reply demoted db after where
  rows := by
    refine edit.rows.mono ?_ fun _ impossible => impossible.elim
    intro row next member settled
    obtain ⟨same,settles⟩ := settles_of_settled settled
    unfold editedRow at same settles
    unfold Changes
    rw [aimed]
    by_cases chosen : row.id = target
    · obtain rfl : row = locked :=
        db.deployments.same_of_key member (Table.find_mem found) (chosen.trans (Table.find_key found).symm)
      rw [if_pos chosen] at same settles
      exact ⟨same.trans identity,_,by rw [if_pos (congrArg some chosen.symm)]; exact step,settles⟩
    · have other : ¬some target = some row.id := fun equal => chosen (Option.some.inj equal).symm
      rw [if_neg chosen] at same settles
      by_cases previous : some row.id = demoted
      · rw [if_pos previous] at same settles
        exact ⟨same,_,by rw [if_neg other,if_pos previous.symm]; rfl,settles⟩
      · rw [if_neg previous] at same settles
        exact ⟨same,_,by rw [if_neg other,if_neg (Ne.symm previous)],settles⟩
  located id named := by
    obtain rfl : target = id := Option.some.inj (aimed.symm.trans (located_target named))
    exact ⟨locked,found⟩
  demotes id named := by
    obtain ⟨other,row⟩ := edit.demotes id named
    exact ⟨fun same => other (Option.some.inj (same.symm.trans aimed)),row⟩
  recorded := by
    rcases edit.recorded with ⟨same,kept⟩ | ⟨entry,appended,previous,rfl,row⟩
    · exact .none same kept
    · exact .one entry appended previous aimed row
  creates params selectedNode region same := by
    subst same
    cases aimed
  gate := gate
  records := .of_same (by rw [edit.only]) (by rw [edit.only]) (by rw [edit.only]) (by rw [edit.only])

theorem Effect.of_same (deployments : after.deployments = db.deployments) (releases : after.releases = db.releases)
    (located : ∀ id, action.located reply = some id → ∃ row, db.deployments.find id = some row)
    (idle : ∀ row, row ∈ db.deployments.rows → action.target = some row.id →
      Step (modeOf db row.identity) row.lifecycle action reply row.lifecycle)
    (fixed : ∀ params selectedNode region, action ≠ .create params selectedNode region)
    (gate : gateLog after = gateLog db ++ action.gate reply) (records : Records instant action db after) :
    Effect instant action reply none db after where
  rows := by
    rw [deployments]
    have same : Table.Evolves (fun row next : Deployment => next = row) (fun _ => False) db.deployments db.deployments := by
      apply Table.evolves_refl
      intro row
      rfl
    refine same.mono ?_ fun _ impossible => impossible.elim
    rintro row next member rfl
    refine ⟨rfl,_,?_,.inl rfl⟩
    unfold Changes
    split
    · rename_i aimed
      exact idle _ member aimed
    · rw [if_neg (by simp)]
  located := located
  demotes := fun _ impossible => (by cases impossible)
  recorded := .none releases rfl
  creates params selectedNode region same := absurd same (fixed params selectedNode region)
  gate := gate
  records := records

end Building

end GrassWorker.ControlPlane
