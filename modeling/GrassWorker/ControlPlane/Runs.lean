import GrassWorker.ControlPlane.Commits
import GrassWorker.ControlPlane.Handlers

/-! What one step of the control plane may do: it commits one transaction or
leaves the database alone, and the rows it goes on with are rows it held before
or rows the database holds now. Invariants of runs follow from that. -/
namespace GrassWorker.ControlPlane
open Interleaving Runs Transaction Deployments Delivery

abbrev State := Config World Handler

abbrev Happening := Interleaving.Event Request Input

def idle (world : World) : State := ⟨world,[]⟩

def Action.row : Action → Option Deployment
  | .report owned _ _ => some owned.row
  | .progress deployment _ | .cancel deployment _ | .claim _ deployment
  | .activate _ deployment _ _ | .failUnimplemented deployment => some deployment
  | _ => none

def Handler.rows : Handler → List Deployment
  | .commit action others => action.row.toList ++ others
  | .stageFlag owned _ | .stageSlot owned _ | .stageRefresh owned _ _ => [owned.row]
  | .cancelFlag deployment | .activatePolicy deployment _ _ => [deployment]
  | .claimNext _ candidates => candidates
  | .claimLimit _ candidate others | .claimAcquire _ candidate others _ | .claimTimeout _ candidate others =>
    candidate :: others
  | .claimRelease _ _ others => others
  | _ => []

def Progress.rows : Progress → List Deployment
  | .resume handler => handler.rows
  | .respond _ => []

theorem row_mem {handler : Handler} {action : Action} {row : Deployment} (acts : handler.action = some action)
    (prepared : action.row = some row) : row ∈ handler.rows := by
  cases handler with
  | commit own others =>
    cases acts
    exact List.mem_append_left _ (Option.mem_toList.mpr prepared)
  | bindCommit =>
    cases acts
    cases prepared
  | _ => cases acts

structure Commit (input : Input) (db : Database) (handler : Handler) (action : Action) (reply : Reply)
    (after : Database) : Prop where
  acts : handler.action = some action
  result : transact input action db = .ok (reply,after)

section Commit
variable {input : Input} {db after : Database} {handler : Handler} {action : Action} {reply : Reply}

theorem Commit.running (commit : Commit input db handler action reply after) : input.databaseFails = false := by
  have result := commit.result
  unfold transact at result
  split at result
  · cases result
  · rename_i running
    simpa using running

theorem Commit.runs (commit : Commit input db handler action reply after) :
    action.run input.instant db = .ok (reply,after) := by
  have result := commit.result
  unfold transact at result
  rwa [if_neg (by rw [commit.running]; decide)] at result

theorem Commit.effect (commit : Commit input db handler action reply after) :
    ∃ demoted, Effect input.instant action reply demoted db after :=
  commits input.instant action db reply after commit.runs

end Commit

section Advance
variable (input : Input) (world : World) (handler : Handler)

theorem advance_database : (advance input world handler).1.db = world.db ∨
    ∃ action reply, Commit input world.db handler action reply (advance input world handler).1.db := by
  have transacted (own : Action) (acts : handler.action = some own) :
      committed world.db (transact input own world.db) = world.db ∨
        ∃ action reply, Commit input world.db handler action reply
          (committed world.db (transact input own world.db)) := by
    cases result : transact input own world.db with
    | error error => exact .inl rfl
    | ok outcome => exact .inr ⟨own,outcome.1,acts,result⟩
  cases handler with
  | commit action others => exact transacted action rfl
  | bindCommit request attempt => exact transacted _ rfl
  | stageAcknowledge | stageRefresh | cancelFlag | releaseMark | releaseSlot | claimRelease =>
    left
    simp only [advance]
    split <;> rfl
  | claimAcquire =>
    left
    simp only [advance]
    split
    · rfl
    · split <;> rfl
  | _ => exact .inl rfl

variable {input world handler}

theorem Commit.database {action : Action} {reply : Reply} {after : Database}
    (commit : Commit input world.db handler action reply after) : (advance input world handler).1.db = after := by
  obtain ⟨acts,result⟩ := commit
  cases handler with
  | commit own others | bindCommit request attempt =>
    cases acts
    simp only [advance,committed,result]
  | _ => cases acts

variable {row : Deployment}

theorem mem_rows_read {next : Progress} (member : row ∈ (read input next).rows) : row ∈ next.rows := by
  unfold read at member
  split at member
  · cases member
  · exact member

theorem mem_rows_permitted {next : Progress} (member : row ∈ (permitted input next).rows) : row ∈ next.rows := by
  unfold permitted at member
  split at member
  · cases member
  · exact member

theorem mem_rows_ofAnswer {α : Type} {answer : Except AppError α} {next : α → Progress}
    (member : row ∈ (ofAnswer answer next).rows) : ∃ value, answer = .ok value ∧ row ∈ (next value).rows := by
  cases answer with
  | ok value => exact ⟨value,rfl,member⟩
  | error error => cases member

private theorem mem_rows_callProject {project : Project} {team : Team} {call : ProjectCall} :
    row ∉ (callProject project team call).rows := by
  intro member
  cases call with
  | create =>
    obtain ⟨_,_,none⟩ := mem_rows_ofAnswer member
    cases none
  | bindHost =>
    simp only [callProject] at member
    split at member <;> cases member
  | _ => cases member

private theorem mem_rows_begin {db : Database} {call : Request} : row ∉ (begin db call).rows := by
  intro member
  cases call with
  | node node call =>
    obtain ⟨_,_,inside⟩ := mem_rows_ofAnswer member
    cases call <;> cases inside
  | project project call =>
    obtain ⟨_,_,inside⟩ := mem_rows_ofAnswer member
    exact mem_rows_callProject inside
  | rollback | createSource =>
    simp only [begin] at member
    split at member <;> cases member
  | createProject =>
    simp only [begin] at member
    split at member
    · cases member
    · cases member
    · split at member <;> cases member
  | cancelStream => cases member
  | direct action =>
    obtain ⟨action,direct⟩ := action
    have unread : action.row = none := by
      cases action <;> first | rfl | cases direct
    have inside : row ∈ action.row.toList ++ [] := member
    rw [unread] at inside
    cases inside

theorem loadDeployment_mem {db : Database} {project id : Uuid}
    (loaded : Projects.loadDeployment db project id = .ok row) : row ∈ db.deployments.rows := by
  unfold Projects.loadDeployment at loaded
  split at loaded
  · cases loaded
  · rename_i found
    split at loaded
    · cases loaded
    · cases loaded
      exact Table.find_mem (getByIdForUpdate_eq_some.mp found).1

theorem buildOwnedDeployment_mem {db : Database} {node id : Uuid} {owned : Stage.OwnedDeployment}
    (read : Stage.buildOwnedDeployment db node id = .ok owned) : owned.row ∈ db.deployments.rows := by
  unfold Stage.buildOwnedDeployment at read
  split at read
  · cases read
  · rename_i found
    split at read
    · cases read
      exact Table.find_mem (getByIdForUpdate_eq_some.mp found).1
    · cases read

theorem candidates_mem {db : Database} (member : row ∈ Claim.candidates db) :
    row ∈ db.deployments.rows ∧ Claim.claimable row := by
  have sorted := List.mem_of_mem_take member
  have filtered := (List.perm_insertionSort _ _).mem_iff.mp sorted
  exact List.mem_filter.mp filtered

private theorem mem_rows_afterCommit {others : List Deployment} {action : Action} {reply : Reply}
    {demoted : Option Uuid} {db after : Database} (effect : Effect input.instant action reply demoted db after)
    (member : row ∈ (afterCommit others action reply).rows) :
    row ∈ (Handler.commit action others).rows ∨ row ∈ after.deployments.rows := by
  cases action with
  | report owned status body =>
    cases reply with
    | buildEnded ended => cases ended <;> cases member
    | _ => cases member
  | cancel deployment actor =>
    simp only [afterCommit] at member
    split at member
    · exact .inl (List.mem_append_left _ member)
    · cases member
  | claim node candidate =>
    cases reply with
    | claim outcome =>
      cases outcome with
      | lost => exact .inl (List.mem_append_right _ member)
      | _ => cases member
    | _ => exact .inl (List.mem_append_right _ member)
  | create params selectedNode region =>
    obtain ⟨created,same,inside,_⟩ := effect.creates params selectedNode region rfl
    subst same
    simp only [afterCommit] at member
    split at member
    · obtain rfl := List.mem_singleton.mp member
      exact .inr inside
    · cases member
  | createProject => cases reply <;> cases member
  | _ => cases member

private theorem mem_rows_afterFailure {error : AppError} {action : Action} :
    row ∉ (afterFailure error action).rows := by
  intro member
  cases action <;> cases member

private theorem mem_rows_stageAction {owned : Stage.OwnedDeployment} {body : Stage.StageRequest}
    (member : row ∈ (proceed (stageAction owned body)).rows) : row = owned.row := by
  unfold stageAction at member
  split at member <;> exact List.mem_singleton.mp member

theorem advance_rows (member : row ∈ (advance input world handler).2.rows) :
    row ∈ handler.rows ∨ row ∈ (advance input world handler).1.db.deployments.rows := by
  cases handler with
  | arrived call => exact absurd (mem_rows_permitted (mem_rows_read member)) mem_rows_begin
  | commit action others =>
    simp only [advance] at member ⊢
    cases result : transact input action world.db with
    | error error =>
      rw [result] at member
      exact absurd member mem_rows_afterFailure
    | ok outcome =>
      obtain ⟨reply,after⟩ := outcome
      rw [result] at member
      have commit : Commit input world.db (.commit action others) action reply after := ⟨rfl,result⟩
      obtain ⟨demoted,effect⟩ := commit.effect
      exact mem_rows_afterCommit effect member
  | stageRead node deployment body =>
    obtain ⟨loaded,owned,inside⟩ := mem_rows_ofAnswer (mem_rows_read member)
    obtain rfl := List.mem_singleton.mp inside
    exact .inr (buildOwnedDeployment_mem owned)
  | stageFlag owned body =>
    simp only [advance,stageFlag] at member
    split at member
    · split at member <;> cases member
    · exact .inl member
  | stageSlot owned body =>
    simp only [advance,stageSlot] at member
    split at member
    · exact .inl member
    · rw [mem_rows_stageAction member]
      exact .inl (List.mem_singleton_self _)
  | stageRefresh owned body value =>
    rw [mem_rows_stageAction member]
    exact .inl (List.mem_singleton_self _)
  | cancelRead project deployment actor =>
    have inside := mem_rows_read member
    unfold cancelRead at inside
    split at inside
    · cases inside
    · rename_i found
      obtain rfl := List.mem_singleton.mp inside
      have read := (Option.filter_eq_some_iff.mp found).1
      exact .inr (Table.find_mem (getByIdForUpdate_eq_some.mp read).1)
  | claimRead node capacity =>
    have inside := mem_rows_read member
    unfold claimRead at inside
    split at inside
    · cases inside
    · split at inside
      · cases inside
      · exact .inr (candidates_mem inside).1
  | claimNext node candidates =>
    have inside := mem_rows_read member
    cases candidates with
    | nil => cases inside
    | cons candidate others =>
      obtain ⟨_,_,inside⟩ := mem_rows_ofAnswer inside
      exact .inl inside
  | claimLimit node candidate others => exact .inl (mem_rows_read member)
  | claimAcquire node candidate others max =>
    left
    simp only [advance] at member
    split at member
    · cases member
    · split at member
      · exact member
      · exact List.mem_cons_of_mem _ member
  | claimTimeout node candidate others =>
    simp only [advance] at member
    split at member
    · cases member
    · exact .inl member
  | activateRead project deployment reason actor =>
    obtain ⟨loaded,found,inside⟩ := mem_rows_ofAnswer (mem_rows_read member)
    obtain rfl := List.mem_singleton.mp inside
    exact .inr (loadDeployment_mem found)
  | activatePolicy deployment reason actor =>
    obtain ⟨action,chosen,inside⟩ := mem_rows_ofAnswer (mem_rows_read member)
    exact .inl inside
  | retryRead project deployment actor =>
    obtain ⟨loaded,found,inside⟩ := mem_rows_ofAnswer (mem_rows_read member)
    split at inside
    · obtain ⟨_,_,none⟩ := mem_rows_ofAnswer inside
      cases none
    · cases inside
  | createHost => cases mem_rows_permitted member
  | bindSource project team host environment source region =>
    have inside := mem_rows_permitted (mem_rows_read member)
    unfold bindSource at inside
    split at inside
    · cases inside
    · split at inside
      · cases inside
      · split at inside
        · cases inside
        · split at inside <;> cases inside
  | bindExisting => cases mem_rows_permitted (mem_rows_read member)
  | bindFree request =>
    have inside := mem_rows_permitted (mem_rows_read member)
    unfold bindFree at inside
    split at inside <;> cases inside
  | assignSource project =>
    simp only [advance] at member
    split at member
    · cases member
    · unfold assignSource at member
      split at member <;> cases member
  | assignFree project team source attempt =>
    simp only [advance,assignFree] at member
    split at member
    · cases member
    · unfold bindFree at member
      split at member
      · unfold refused retryAssignment at member
        split at member
        · cases member
        · split at member
          · split at member <;> cases member
          · cases member
      · cases member
  | bindCommit request attempt =>
    simp only [advance] at member
    unfold afterBind at member
    split at member
    · unfold bindingOutcome at member
      split at member <;> cases member
    · cases member
    · unfold refused retryAssignment at member
      split at member
      · cases member
      · split at member
        · split at member <;> cases member
        · cases member
  | releaseMark =>
    simp only [advance] at member
    split at member <;> cases member
  | cancelFlag => cases member
  | claimRelease => exact .inl member
  | _ => cases member

end Advance

section Rule
variable {shared : Database → Prop} {held : Database → Deployment → Prop}
  {condition : Input → World → Handler → Prop}

/-- What holds of the database and of every row a handler in flight has read. -/
abbrev Tracked (shared : Database → Prop) (held : Database → Deployment → Prop) : State → Prop :=
  Holds (fun world => shared world.db) fun world handler => ∀ row ∈ handler.rows, held world.db row

theorem tracked_step
    (fresh : ∀ db row, shared db → row ∈ db.deployments.rows → held db row)
    (kept : ∀ input world handler action reply demoted after, condition input world handler →
      Commit input world.db handler action reply after →
      Effect input.instant action reply demoted world.db after → shared world.db →
      (∀ row ∈ handler.rows, held world.db row) → shared after ∧ ∀ row, held world.db row → held after row)
    (state : State) (event : Happening) (tracked : Tracked shared held state)
    (meets : Acting condition state event) : Tracked shared held (machine.step state event) := by
  have moves (input : Input) (world : World) (handler : Handler) (permitted : condition input world handler)
      (sound : shared world.db) (rows : ∀ row ∈ handler.rows, held world.db row) :
      shared (advance input world handler).1.db ∧
        ∀ row, held world.db row → held (advance input world handler).1.db row := by
    rcases advance_database input world handler with same | ⟨action,reply,commit⟩
    · rw [same]
      exact ⟨sound,fun _ holds => holds⟩
    · obtain ⟨demoted,effect⟩ := commit.effect
      exact kept input world handler action reply demoted _ permitted commit effect sound rows
  refine Holds.step ?_ ?_ ?_ state event tracked meets
  · intro world call _ row member
    cases member
  · intro input world handler permitted sound rows
    obtain ⟨after,stays⟩ := moves input world handler permitted sound rows
    refine ⟨after,fun rest left row member => ?_⟩
    have progress : row ∈ (advance input world handler).2.rows := by
      cases goes : (advance input world handler).2 with
      | respond answer => simp [machine,goes,Progress.handler] at left
      | resume handler =>
        obtain rfl : handler = rest := by simpa [machine,goes,Progress.handler] using left
        exact member
    rcases advance_rows progress with old | now
    · exact stays row (rows row old)
    · exact fresh _ row after now
  · intro input world handler other permitted sound rows asserted row member
    exact (moves input world handler permitted sound rows).2 row (asserted row member)

/-- What a step leaves is what it found or what a transaction of a handler in flight committed. -/
theorem step_property {state : State} {event : Happening} {property : Database → Prop}
    (same : property state.shared.db)
    (commits : ∀ input handler action reply after, handler ∈ state.inflight →
      condition input state.shared handler → Commit input state.shared.db handler action reply after →
      property after)
    (meets : Acting condition state event) : property (machine.step state event).shared.db := by
  cases event with
  | arrive call => exact same
  | resume index input =>
    simp only [Machine.step]
    cases found : state.inflight[index]? with
    | none => exact same
    | some handler =>
      change property (advance input state.shared handler).1.db
      rcases advance_database input state.shared handler with kept | ⟨action,reply,commit⟩
      · rw [kept]
        exact same
      · exact commits input handler action reply _ (List.mem_of_getElem? found) (meets handler found) commit

end Rule

/-- In every run each deployment stays what it is and where it belongs, and the log of creations, approvals and
withdrawals only grows. -/
theorem deployments_persist (world : World) (events : List Happening) :
    Throughout machine.step (fun state => (∀ id row, world.db.deployments.find id = some row →
        ∃ next, state.shared.db.deployments.find id = some next ∧ next.identity = row.identity) ∧
      gateLog world.db <+: gateLog state.shared.db) (idle world) events := by
  refine throughout_of_invariant (fun state event persists _ => ?_) (fun _ persists => persists) _ events
    ⟨fun id row found => ⟨row,found,rfl⟩,List.prefix_refl _⟩ (along_true _ events)
  refine @step_property (fun _ _ _ => True) state event (fun db => (∀ id row, world.db.deployments.find id = some row →
    ∃ next, db.deployments.find id = some next ∧ next.identity = row.identity) ∧ gateLog world.db <+: gateLog db)
    persists ?_ (acting_true state event)
  intro input handler action reply after _ _ commit
  obtain ⟨demoted,effect⟩ := commit.effect
  refine ⟨fun id row found => ?_,?_⟩
  · obtain ⟨middle,there,same⟩ := persists.1 id row found
    obtain ⟨next,later,identity,_⟩ := effect.rows.kept id middle there
    exact ⟨next,later,identity.trans same⟩
  · rw [effect.gate]
    exact persists.2.trans (List.prefix_append _ _)

def Avoids (kind : Database → Action → Bool) (input : Input) (world : World) (handler : Handler) : Prop :=
  input.databaseFails = false → handler.action.any (kind world.db) = false

instance (kind : Database → Action → Bool) (input : Input) (world : World) (handler : Handler) :
    Decidable (Avoids kind input world handler) := inferInstanceAs (Decidable (_ → _))

theorem Avoids.commit {kind : Database → Action → Bool} {input : Input} {world : World} {handler : Handler}
    {action : Action} {reply : Reply} {after : Database} (avoids : Avoids kind input world handler)
    (commit : Commit input world.db handler action reply after) : kind world.db action = false := by
  have permitted := avoids commit.running
  rwa [commit.acts] at permitted

def Spares (kind : Database → Action → Bool) (input : Input) (world : World) (handler : Handler) : Prop :=
  (handler.action.any fun action => kind world.db action && (transact input action world.db).isOk) = false

instance (kind : Database → Action → Bool) (input : Input) (world : World) (handler : Handler) :
    Decidable (Spares kind input world handler) := inferInstanceAs (Decidable (_ = _))

theorem Spares.commit {kind : Database → Action → Bool} {input : Input} {world : World} {handler : Handler}
    {action : Action} {reply : Reply} {after : Database} (spares : Spares kind input world handler)
    (commit : Commit input world.db handler action reply after) : kind world.db action = false := by
  unfold Spares at spares
  rw [commit.acts,Option.any_some,commit.result] at spares
  simpa [Except.isOk,Except.toBool] using spares

def targets (db : Database) (action : Action) (test : Deployment → Bool) : Bool :=
  action.target.any fun id => (db.deployments.find id).any test

theorem targets_false {db : Database} {action : Action} {test : Deployment → Bool} {row : Deployment}
    (passes : targets db action test = false) (found : db.deployments.find row.id = some row)
    (aimed : action.target = some row.id) : test row = false := by
  simpa [targets,aimed,found] using passes

theorem Effect.target_row {instant : Instant} {action : Action} {reply : Reply} {demoted : Option Uuid}
    {db after : Database} {row : Deployment} (effect : Effect instant action reply demoted db after)
    (found : db.deployments.find row.id = some row) (aimed : action.target = some row.id) :
    ∃ next mid, after.deployments.find row.id = some next ∧ next.identity = row.identity ∧
      Step (modeOf db row.identity) row.lifecycle action reply mid ∧ Settles mid next.lifecycle := by
  obtain ⟨next,reached,identity,mid,changes,settles⟩ := effect.rows.kept row.id row found
  unfold Changes at changes
  rw [if_pos aimed] at changes
  exact ⟨next,mid,reached,identity,changes,settles⟩

/-- The row rule: a property of each row is looked at one step at a time. It may be about
something the transaction changes, so it is given before and after. -/
theorem Effect.rows_transfer {good good' : Identity → Lifecycle → Prop} {instant : Instant} {action : Action}
    {reply : Reply} {demoted : Option Uuid} {db after : Database}
    (effect : Effect instant action reply demoted db after)
    (born : ∀ row, Born instant action reply row → good' row.identity row.lifecycle)
    (target : ∀ row mid, db.deployments.find row.id = some row → action.target = some row.id →
      good row.identity row.lifecycle → Step (modeOf db row.identity) row.lifecycle action reply mid →
      good' row.identity mid)
    (others : ∀ row, row ∈ db.deployments.rows → action.target ≠ some row.id → good row.identity row.lifecycle →
      good' row.identity row.lifecycle)
    (demotes : ∀ row : Deployment, row.releaseStatus = .active → good' row.identity row.lifecycle →
      good' row.identity { row.lifecycle with release := .approved })
    (retires : ∀ identity lifecycle, inProgress lifecycle.build = false → lifecycle.pending = none →
      good' identity lifecycle → good' identity { lifecycle with serve := .retired, node := none })
    (all : ∀ row ∈ db.deployments.rows, good row.identity row.lifecycle) :
    ∀ row ∈ after.deployments.rows, good' row.identity row.lifecycle := by
  intro next member
  rcases effect.rows.origin (Table.find_of_mem member) with ⟨row,found,identity,mid,changes,settles⟩ | ⟨_,fresh⟩
  · have was := all row (Table.find_mem found)
    have key : row.id = next.id := Table.find_key found
    have middle : good' row.identity mid := by
      unfold Changes at changes
      split at changes
      · rename_i aimed
        exact target row mid (by rwa [key]) aimed was changes
      · rename_i other
        have kept := others row (Table.find_mem found) other was
        split at changes
        · rename_i previous
          obtain ⟨_,active,held,status⟩ := effect.demotes row.id previous
          rw [key,found] at held
          cases held
          rw [changes]
          exact demotes row status kept
        · rwa [changes]
    rw [identity]
    rcases settles with same | ⟨idle,free,same⟩
    · rwa [same]
    · rw [same]
      exact retires row.identity mid idle free middle
  · exact born next fresh

theorem Effect.rows_invariant {good : Lifecycle → Prop} {instant : Instant} {action : Action} {reply : Reply}
    {demoted : Option Uuid} {db after : Database} (effect : Effect instant action reply demoted db after)
    (born : ∀ row, Born instant action reply row → good row.lifecycle)
    (target : ∀ row mid, db.deployments.find row.id = some row → action.target = some row.id → good row.lifecycle →
      Step (modeOf db row.identity) row.lifecycle action reply mid → good mid)
    (demotes : ∀ lifecycle, lifecycle.release = .active → good lifecycle → good { lifecycle with release := .approved })
    (retires : ∀ lifecycle, inProgress lifecycle.build = false → lifecycle.pending = none → good lifecycle →
      good { lifecycle with serve := .retired, node := none })
    (all : ∀ row ∈ db.deployments.rows, good row.lifecycle) : ∀ row ∈ after.deployments.rows, good row.lifecycle :=
  @Effect.rows_transfer (fun _ => good) (fun _ => good) _ _ _ _ _ _ effect born target (fun _ _ _ was => was)
    (fun row => demotes row.lifecycle) (fun _ => retires) all

/-! A small installation, for concrete runs. -/
namespace Sample

def node : Node where
  id := 7
  region := "eu"
  status := .active
  buildEnabled := true
  serveEnabled := true
  baseUrl := some "http://node-7"
  capacityCpuMillicores := 4000
  capacityMemoryMb := 8192
  capacityDiskMb := 65536
  maxDeployments := 50
  lastHeartbeatAt := some 0

def project : Project := { id := 3, teamId := 2, slug := "shop" }

def deployment : Deployment where
  id := 1
  projectId := 3
  teamId := 2
  region := "eu"
  buildNodeId := some 7
  serveNodeId := some 7
  environment := .production
  runtimeKind := .static
  serveCpuMillicores := 50
  serveMemoryMb := 64
  serveDiskMb := 256
  overcommitted := false
  previewHost := none
  createdAt := 0

def teams : Table Team (·.id) unindexed := .single { id := 2 } List.nodup_nil

def projects : Table Project (·.id) Project.entries := ⟨[project],by decide,by decide⟩

def nodes : Table Node (·.id) unindexed := ⟨[node],by decide,by decide⟩

def database : Database := { teams, projects, nodes }

def holding (row : Deployment) (entries : row.entries.Nodup := by decide) : World where
  db := { database with deployments := ⟨[row],List.nodup_singleton _,by simpa using entries⟩ }

def reviewed (mode : String) (world : World) : World :=
  { world with db := { world.db with releaseReviewPolicy := some ⟨some mode,some mode⟩ } }

def steps (index count : Nat) : List Happening := List.replicate count (.resume index {})

/-- A request that is answered before any other step, with an identifier for the row it creates. -/
def serially (request : Request) (id : Uuid) (count : Nat) : List Happening :=
  .arrive request :: List.replicate count (.resume 0 { instant := { now := id, uuid := id } })

def creates (project id : Uuid) : List Happening := serially (.project project (.create .production none none 9)) id 3

def claims : List Happening := .arrive (.node 7 (.claim 1)) :: steps 0 7

def buildsAndServes (index : Nat) (id : Uuid) : List Happening :=
  .arrive (.node 7 (.stage id { status := some .building })) :: steps index 8 ++
    .arrive (.node 7 (.stage id { status := some .ready })) :: steps index 8 ++
    .arrive (.node 7 (.reportServe id { status := .syncing })) :: steps index 2 ++
    .arrive (.node 7 (.reportServe id { status := .ready })) :: steps index 2

def opened : World := reviewed "auto" { db := { teams, nodes } }

def createsSource (baseDomain : String) : List Happening :=
  serially (.createSource ⟨.wildcard,baseDomain,"eu",true,true,true⟩) 5 2

def createsProject (slug : String) (id : Uuid) : List Happening := serially (.createProject 2 slug .static 9) id 6

def publishes (slug : String) (project deployment : Uuid) : List Happening :=
  createsProject slug project ++ creates project deployment ++ claims ++ buildsAndServes 0 deployment

end Sample

end GrassWorker.ControlPlane
