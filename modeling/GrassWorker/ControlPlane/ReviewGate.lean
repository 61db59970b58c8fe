import GrassWorker.ControlPlane.PendingReleases

/-! The review gate: under the Manual policy a deployment becomes Active only with
an approval that is newer than its creation and its last withdrawal. -/
namespace GrassWorker.ControlPlane
open Interleaving Runs Transaction Deployments Delivery Handling

/-- The newest of the events that open or close a deployment's gate is an approval. -/
def approvedSince (log : List (String × Option Uuid)) (id : Uuid) : Bool :=
  (log.filter fun entry => entry.2 = some id).getLast?.map Prod.fst = some "deployment.review_approved"

theorem approvedSince_append_other {log entries : List (String × Option Uuid)} {id : Uuid}
    (other : ∀ entry ∈ entries, entry.2 ≠ some id) : approvedSince (log ++ entries) id = approvedSince log id := by
  have none : entries.filter (fun entry => entry.2 = some id) = [] := by
    apply List.filter_eq_nil_iff.mpr
    intro entry member
    simpa using other entry member
  unfold approvedSince
  rw [List.filter_append,none,List.append_nil]

theorem approvedSince_append_approval (log : List (String × Option Uuid)) (id : Uuid) :
    approvedSince (log ++ [("deployment.review_approved",some id)]) id := by
  simp [approvedSince,List.filter_append]

/-- What is released or may be released has been approved, and no draft waits for its release. -/
structure Gated (approved : Prop) (lifecycle : Lifecycle) : Prop where
  released : lifecycle.release = .approved ∨ lifecycle.release = .active → approved
  waiting : lifecycle.pending.isSome → lifecycle.release ≠ .draft

section Steps
variable {approved approved' : Prop} {lifecycle next : Lifecycle} {action : Action} {reply : Reply}

theorem Gated.mono (gated : Gated approved lifecycle) (keeps : approved → approved') : Gated approved' lifecycle :=
  ⟨fun released => keeps (gated.released released),gated.waiting⟩

theorem Gated.of_free (free : lifecycle.pending = none)
    (released : lifecycle.release = .approved ∨ lifecycle.release = .active → approved) : Gated approved lifecycle := by
  refine ⟨released,?_⟩
  intro waiting
  rw [free] at waiting
  cases waiting

theorem Gated.of_draft (draft : lifecycle.release = .draft) (free : lifecycle.pending = none) :
    Gated approved lifecycle := by
  apply Gated.of_free free
  intro released
  rw [draft] at released
  rcases released with impossible | impossible <;> cases impossible

theorem Gated.of_review (reviewed : lifecycle.release = .pendingReview ∨ lifecycle.release = .rejected) :
    Gated approved lifecycle := by
  constructor
  · intro released
    rcases released with same | same <;> rw [same] at reviewed <;> rcases reviewed with other | other <;> cases other
  · intro _ draft
    rw [draft] at reviewed
    rcases reviewed with other | other <;> cases other

theorem approved_of_edge {release : ReleaseStatus} (edge : canTransitionRelease release .active)
    (undrafted : release ≠ .draft) : release = .approved := by
  cases release <;> first | rfl | exact absurd rfl undrafted | cases edge

theorem Requested.gated {base : Lifecycle} (requested : Requested base next) (gated : Gated approved base)
    (undrafted : base.release ≠ .draft) : Gated approved next := by
  cases requested with
  | now free built served edge =>
    exact .of_free free fun _ => gated.released (.inl (approved_of_edge edge undrafted))
  | queued free waiting unready assigned => exact ⟨gated.released,fun _ => undrafted⟩

theorem Step.gated (step : Step (some .manual) lifecycle action reply next) (gated : Gated approved lifecycle)
    (keeps : (∀ deployment actor reason, action ≠ .withdraw deployment actor reason) → approved → approved')
    (approves : ∀ deployment reviewer reason, action = .decide deployment true reviewer reason → approved')
    (undrafted : ∀ deployment reason actor, action = .activate .release deployment reason actor →
      lifecycle.release ≠ .draft)
    (unreviewed : ∀ project team deployment actor, action = .unpublish project team deployment actor →
      lifecycle.release ≠ .pendingReview) : Gated approved' next := by
  cases step with
  | approved edge built requested =>
    refine requested.gated ⟨fun _ => approves _ _ _ rfl,?_⟩ ?_
    · intro _ draft
      cases draft
    · intro draft
      cases draft
  | withdrawn edge =>
    exact .of_draft rfl rfl
  | alreadyWithdrawn draft retired =>
    refine .of_draft draft ?_
    by_contra pending
    exact gated.waiting (Option.isSome_iff_ne_none.mpr pending) draft
  | released requested =>
    have gated := gated.mono (keeps fun _ _ _ same => by cases same)
    exact requested.gated gated (undrafted _ _ _ rfl)
  | completed assigned built edge pending may =>
    have gated := gated.mono (keeps fun _ _ _ same => by cases same)
    exact .of_free rfl fun _ => gated.released (.inl (approved_of_edge may (gated.waiting pending)))
  | autoActivated assigned built edge free auto draft => cases auto
  | republished built may requested =>
    have gated := gated.mono (keeps fun _ _ _ same => by cases same)
    rcases may with approved | ⟨auto,_⟩
    · exact requested.gated gated (by rw [approved]; decide)
    · cases auto
  | republishedRejected built auto rejected requested => cases auto
  | unpublished edge =>
    have gated := gated.mono (keeps fun _ _ _ same => by cases same)
    have active : lifecycle.release = .active := by
      have unreviewed := unreviewed _ _ _ _ rfl
      cases release : lifecycle.release <;> rw [release] at edge unreviewed <;>
        first | rfl | exact absurd rfl unreviewed | cases edge
    exact .of_free rfl fun _ => gated.released (.inr active)
  | @finished owned body release edge reviewed =>
    have gated := gated.mono (keeps fun _ _ _ same => by cases same)
    rcases reviewed with rfl | ⟨_,_,rfl⟩
    · exact ⟨gated.released,gated.waiting⟩
    · exact .of_review (.inl rfl)
  | reviewRequested | resubmitted => exact .of_review (.inl rfl)
  | rejected edge => exact .of_review (.inr rfl)
  | advanced | ended | canceled | claimed | synchronized | failed =>
    have gated := gated.mono (keeps fun _ _ _ same => by cases same)
    exact ⟨gated.released,gated.waiting⟩
  | _ => exact gated.mono (keeps fun _ _ _ same => by cases same)

end Steps

def Manual (project : Uuid) (environment : Environment) (db : Database) : Prop :=
  ∀ row ∈ db.deployments.rows, row.projectId = project → row.environment = environment →
    modeOf db row.identity = some .manual

instance (project : Uuid) (environment : Environment) (db : Database) :
    Decidable (Manual project environment db) := inferInstanceAs (Decidable (∀ _ ∈ _, _))

/-- In the environment, a release of a draft or the team's unpublication of a deployment under review. -/
def bypasses (project : Uuid) (environment : Environment) (instant : Instant) (db : Database) (action : Action) : Bool :=
  targets db action fun row => row.projectId = project && row.environment = environment &&
    match action with
    | .activate .release _ _ _ => row.releaseStatus = .draft && grants instant db row
    | .unpublish owner _ _ _ => row.releaseStatus = .pendingReview && row.projectId = owner &&
      (validateReleaseReadiness .pendingReview .approved row.buildStatus row.serveStatus).isOk
    | _ => false

def AllGated (project : Uuid) (environment : Environment) (db : Database) : Prop :=
  ∀ row ∈ db.deployments.rows, row.projectId = project → row.environment = environment →
    Gated (approvedSince (gateLog db) row.id) row.lifecycle

section Commits
variable {project : Uuid} {environment : Environment} {input : Input} {world : World} {handler : Handler}
  {action : Action} {reply : Reply} {demoted : Option Uuid} {after : Database}

theorem unpublish_may {instant : Instant} {db : Database} {team deployment actor : Uuid} :
    Ensures ((Action.unpublish project team deployment actor).run instant) db fun _ _ =>
      ∃ row, getByIdForUpdate db deployment = some row ∧ row.projectId = project ∧
        (row.releaseStatus = .approved ∨ MayRelease row .approved) := by
  simp only [Action.run,ensures_acknowledge,Governance.unpublish,ensures_bind,ensures_lockedDeployment,ensures_require,
    ensures_ofDelivery,ensures_createAuditEvent]
  intro locked current owned
  refine removePublication_ensures.mono ?_
  intro removed after outcome
  rcases outcome with ⟨row,again,_,_,complete⟩ | ⟨done,_⟩
  · rw [locked_id current] at again
    obtain rfl : row = locked := Option.some.inj (again.symm.trans current)
    obtain ⟨approved,_⟩ : row.releaseStatus = .approved ∧ row.serveStatus = .retired := of_decide_eq_true complete
    exact ⟨row,current,owned,.inl approved⟩
  · obtain ⟨row,again,may⟩ := done.may
    rw [locked_id current] at again
    obtain rfl : row = locked := Option.some.inj (again.symm.trans current)
    exact ⟨row,current,owned,.inr may⟩

theorem approvedSince_kept {log : List (String × Option Uuid)} {id : Uuid} (aimed : action.target = some id)
    (stays : ∀ deployment actor reason, action ≠ .withdraw deployment actor reason) (approved : approvedSince log id) :
    approvedSince (log ++ action.gate reply) id := by
  cases action with
  | withdraw deployment actor reason => exact absurd rfl (stays deployment actor reason)
  | decide deployment decision reviewer reason =>
    cases aimed
    cases decision with
    | true => exact approvedSince_append_approval log _
    | false => simpa [Action.gate] using approved
  | create => cases aimed
  | _ => simpa [Action.gate] using approved

theorem gate_other {db : Database} {row : Deployment}
    (effect : Effect input.instant action reply demoted db after) (member : row ∈ db.deployments.rows)
    (other : action.target ≠ some row.id) : ∀ entry ∈ action.gate reply, entry.2 ≠ some row.id := by
  intro entry inside same
  cases action with
  | withdraw deployment actor reason =>
    obtain rfl := List.mem_singleton.mp inside
    exact other same
  | decide deployment decision reviewer reason =>
    cases decision with
    | true =>
      obtain rfl := List.mem_singleton.mp inside
      exact other same
    | false => cases inside
  | create params selectedNode region =>
    obtain ⟨created,rfl,_,fresh⟩ := effect.creates params selectedNode region rfl
    obtain rfl := List.mem_singleton.mp inside
    have named : created.id = row.id := Option.some.inj same
    rw [named,show db.deployments.find row.id = some row from Table.find_of_mem member] at fresh
    cases fresh
  | _ => cases inside

theorem gated_effect (manual : Manual project environment world.db)
    (avoids : Avoids (bypasses project environment input.instant) input world handler)
    (commit : Commit input world.db handler action reply after)
    (effect : Effect input.instant action reply demoted world.db after)
    (gated : AllGated project environment world.db) : AllGated project environment after := by
  have permitted := avoids.commit commit
  refine @Effect.rows_transfer
    (fun identity lifecycle => identity.project = project → identity.environment = environment →
      Gated (approvedSince (gateLog world.db) identity.id) lifecycle)
    (fun identity lifecycle => identity.project = project → identity.environment = environment →
      Gated (approvedSince (gateLog after) identity.id) lifecycle) _ _ _ _ _ _ effect ?_ ?_ ?_ ?_ ?_ gated
  · rintro row ⟨params,selectedNode,region,placement,_,rfl,_⟩ _ _
    exact .of_draft rfl rfl
  · intro row mid found aimed was step here there
    have here : row.projectId = project := here
    have there : row.environment = environment := there
    rw [manual row (Table.find_mem found) here there] at step
    have passes := targets_false permitted found aimed
    simp only [here,there,decide_true,Bool.true_and] at passes
    refine step.gated (was here there) ?_ ?_ ?_ ?_
    · intro stays approved
      rw [effect.gate]
      exact approvedSince_kept aimed stays approved
    · rintro deployment reviewer reason rfl
      cases aimed
      rw [effect.gate]
      exact approvedSince_append_approval _ _
    · rintro deployment reason actor rfl draft
      have draft : row.releaseStatus = .draft := draft
      have granted : grants input.instant world.db row := commit.grants found aimed
      simp [draft,granted] at passes
    · rintro owner team deployment actor rfl reviewed
      have reviewed : row.releaseStatus = .pendingReview := reviewed
      cases aimed
      obtain ⟨locked,current,owned,may⟩ := unpublish_may _ _ commit.runs
      obtain rfl : row = locked := Option.some.inj (found.symm.trans (getByIdForUpdate_eq_some.mp current).1)
      rcases may with approved | may
      · rw [reviewed] at approved
        cases approved
      · have readiness := may.readiness
        rw [reviewed] at readiness
        simp [reviewed,here ▸ owned,readiness,Except.isOk,Except.toBool] at passes
  · intro row member other was here there
    refine (was here there).mono ?_
    intro approved
    rw [effect.gate]
    exact (approvedSince_append_other (gate_other effect member other)).trans approved
  · intro row active was here there
    refine ⟨fun _ => (was here there).released (.inr active),?_⟩
    intro _ draft
    cases draft
  · intro identity lifecycle _ _ was here there
    exact ⟨(was here there).released,(was here there).waiting⟩

end Commits

section Runs
variable {project : Uuid} {environment : Environment}

abbrev AvoidsBypasses (project : Uuid) (environment : Environment) (input : Input) : World → Handler → Prop :=
  Avoids (bypasses project environment input.instant) input

theorem allGated_step (state : State) (event : Happening) (gated : AllGated project environment state.shared.db)
    (manual : Manual project environment state.shared.db) (meets : Acting (AvoidsBypasses project environment) state event) :
    AllGated project environment (machine.step state event).shared.db := by
  refine step_property gated ?_ meets
  intro input handler action reply after _ avoids commit
  obtain ⟨demoted,effect⟩ := commit.effect
  exact gated_effect manual avoids commit effect gated

/-- Whatever becomes Active in the environment has been approved since it was created and last withdrawn. -/
def ApprovedFirst (project : Uuid) (environment : Environment) (db after : Database) : Prop :=
  ∀ next ∈ after.deployments.rows, next.projectId = project → next.environment = environment →
    next.releaseStatus = .active →
    (∀ row ∈ db.deployments.rows, row.id = next.id → row.releaseStatus ≠ .active) →
    approvedSince (gateLog after) next.id

instance (db after : Database) : Decidable (ApprovedFirst project environment db after) :=
  inferInstanceAs (Decidable (∀ _ ∈ _, _))

abbrev ReviewGate (project : Uuid) (environment : Environment) (world : World) (events : List Happening) : Prop :=
  Along machine.step (fun state event => ApprovedFirst project environment state.shared.db
    (machine.step state event).shared.db) (idle world) events

theorem review_gate_of_avoided (project : Uuid) (environment : Environment) (world : World) (events : List Happening)
    (start : AllGated project environment world.db)
    (manual : Along machine.step (fun state _ => Manual project environment state.shared.db) (idle world) events)
    (avoids : Along machine.step (Acting (AvoidsBypasses project environment)) (idle world) events) :
    ReviewGate project environment world events := by
  have kept (state : State) (event : Happening) (gated : AllGated project environment state.shared.db)
      (meets : Manual project environment state.shared.db ∧ Acting (AvoidsBypasses project environment) state event) :
      AllGated project environment (machine.step state event).shared.db :=
    allGated_step state event gated meets.1 meets.2
  refine along_of_invariant kept ?_ (idle world) events start (along_and manual avoids)
  intro state event gated meets next member here there active _
  exact (kept state event gated meets next member here there).released (.inr active)

end Runs

section Examples
open Sample

theorem building_entries : ({ deployment with buildStatus := .building } : Deployment).entries.Nodup := by decide

def manual : World := reviewed "manual" (holding { deployment with buildStatus := .building } building_entries)

def builtAndServed : List Happening :=
  .arrive (.node 7 (.stage 1 { status := some .ready })) :: steps 0 7 ++
    .arrive (.node 7 (.reportServe 1 syncing)) :: steps 0 2 ++
    .arrive (.node 7 (.reportServe 1 ready)) :: steps 0 2

def unpublishedThenPromoted : List Happening := builtAndServed ++
  .arrive (.project 3 (.unpublish 1 9)) :: steps 0 2 ++
  .arrive (.project 3 (.activate 1 .promote 9)) :: steps 0 4 ++
  .arrive (.node 7 (.reportServe 1 syncing)) :: steps 0 2 ++
  .arrive (.node 7 (.reportServe 1 ready)) :: steps 0 2

theorem unpublished_review_passes_gate :
    Along machine.step (fun state _ => Manual 3 .production state.shared.db) (idle manual) unpublishedThenPromoted ∧
      ¬ReviewGate 3 .production manual unpublishedThenPromoted := by
  decide +kernel

/-- It is approved instead. -/
theorem review_gate_approved : ReviewGate 3 .production manual
    (builtAndServed ++ .arrive (.direct ⟨.decide 1 true 9 none,rfl⟩) :: steps 0 2) := by
  refine review_gate_of_avoided _ _ _ _ ?_ (by decide +kernel) (by decide +kernel)
  intro row member _ _
  obtain rfl := List.mem_singleton.mp member
  exact .of_draft rfl rfl

end Examples

end GrassWorker.ControlPlane
