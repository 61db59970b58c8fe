import GrassWorker.Domain.Quotas
import GrassWorker.Foundations.Mutexes
import GrassWorker.Foundations.Table

/-! Stored build outputs: uploads, retention sweeps and the deletion of projects, with the
objects, the artifact rows and the quota events they leave. Every action may fail, and a
call may stop between any two of them. -/
namespace GrassWorker.ArtifactStore
open Interleaving Quotas

abbrev Bytes := List UInt8

/-- `artifact_relative_path`: all uploads of a deployment have the same one. -/
structure ObjectKey where
  projectId : Uuid
  deploymentId : Uuid
deriving DecidableEq

structure Project where
  id : Uuid
  deletedAt : Option Timestamp := none
deriving DecidableEq

structure Deployment where
  id : Uuid
  projectId : Uuid
  teamId : Uuid
  buildNodeId : Option Uuid
deriving DecidableEq

/-- An artifact of the kind `GrassOutput`. -/
structure Artifact where
  id : Uuid
  deploymentId : Uuid
  storagePath : ObjectKey
  checksumSha256 : Option String
  sizeBytes : Option Int
  deletedAt : Option Timestamp
deriving DecidableEq

abbrev Projects := Table Project Project.id fun _ => ([] : List Unit)

abbrev Deployments := Table Deployment Deployment.id fun _ => ([] : List Unit)

/-- `uq_deployment_artifacts_deployment_kind`. -/
abbrev Artifacts := Table Artifact Artifact.id fun artifact => [artifact.deploymentId]

/-- The checksum, and what the `update` of a sweep writes. It is given a whole row turned into an
active model, whose columns are not marked as set, so that it may write none of them. -/
structure Setting where
  calendar : Calendar
  sha256 : Bytes → String
  tombstone : Timestamp → Artifact → Artifact
  tombstones : ∀ now row, tombstone now row = row ∨ tombstone now row = { row with deletedAt := some now }

theorem Setting.tombstone_id (setting : Setting) (now : Timestamp) (row : Artifact) : (setting.tombstone now row).id = row.id := by
  rcases setting.tombstones now row with same | marked
  · rw [same]
  · rw [marked]

def bytesPerMb : Int := 1024 * 1024

def sizeMb (sizeBytes : Int) : Int := (max sizeBytes 0 + bytesPerMb - 1) / bytesPerMb

structure Upload where
  node : Uuid
  deploymentId : Uuid
  packedSizeBytes : Nat
  checksumSha256 : String
  bytes : Bytes
deriving DecidableEq

/-- An upload whose body is in a temporary object, which no other call touches. -/
structure Pending where
  deployment : Deployment
  upload : Upload
deriving DecidableEq

structure Swept where
  artifact : Artifact
  teamId : Uuid
deriving DecidableEq

inductive Lock
  | placement
  | deployment (id : Uuid)
  | artifact (id : Uuid)
deriving DecidableEq

structure Shared where
  projects : Projects
  deployments : Deployments
  artifacts : Artifacts := ∅
  objects : ObjectKey → Option Bytes := fun _ => none
  ledger : Ledger := {}
  locks : Multiset Lock := 0
  drawn : Nat := 0

inductive Request
  | upload (upload : Upload)
  | sweep
  | softDelete (projectId : Uuid)
  | hardDelete (projectId : Uuid)

inductive Handler
  | readOwned (upload : Upload)
  | receive (pending : Pending)
  | reserve (pending : Pending)
  | lockPlacement (pending : Pending)
  | check (pending : Pending)
  | finalize (pending : Pending)
  | findExisting (pending : Pending)
  | writeRow (pending : Pending) (existing : Option Uuid)
  | audit (pending : Pending) (id : Uuid) (exists' : Bool)
  | commit (pending : Pending) (id : Uuid) (exists' : Bool)
  | charge (pending : Pending) (id : Uuid)
  | readArtifacts
  | mark (swept : Swept) (others : List Swept)
  | release (swept : Swept) (others : List Swept)
  | remove (swept : Swept) (others : List Swept)
  | softDelete (projectId : Uuid)
  | readDeleted (projectId : Uuid)
  | deleteRows (projectId : Uuid)
deriving DecidableEq

structure Input where
  now : Timestamp
  fails : Bool := false
  /-- The process ends before the action. -/
  crashes : Bool := false
  /-- A rename that fails may have replaced its target. -/
  replaces : Bool := false
  /-- The artifacts the policy has given up. -/
  expired : List Uuid := []

def Pending.key (pending : Pending) : ObjectKey := ⟨pending.deployment.projectId,pending.deployment.id⟩

def Pending.locks (pending : Pending) : Multiset Lock := {.deployment pending.deployment.id,.placement}

def Handler.guards : Handler → Multiset Lock
  | .check _ => {.placement}
  | .finalize pending | .findExisting pending | .writeRow pending _ => pending.locks
  | .audit pending id _ | .commit pending id _ => .artifact id ::ₘ pending.locks
  | _ => 0

def Shared.leave (s : Shared) (handler : Handler) : Shared := { s with locks := s.locks - handler.guards }

def locking (s : Shared) (lock : Lock) (waiting next : Handler) : Shared × Option Handler :=
  if lock ∈ s.locks then (s,some waiting) else ({ s with locks := lock ::ₘ s.locks },some next)

def going (input : Input) (s : Shared) (handler next : Handler) : Shared × Option Handler :=
  if input.fails then (s.leave handler,none) else (s,some next)

def setObject (objects : ObjectKey → Option Bytes) (key : ObjectKey) (value : Option Bytes) : ObjectKey → Option Bytes :=
  fun other => if other = key then value else objects other

def buildOwnedDeployment (s : Shared) (node deploymentId : Uuid) : Option Deployment :=
  (s.deployments.find deploymentId).filter fun row => row.buildNodeId = some node

def Upload.complete (setting : Setting) (upload : Upload) : Bool :=
  upload.bytes.length ≠ 0 ∧ upload.bytes.length = upload.packedSizeBytes ∧ setting.sha256 upload.bytes = upload.checksumSha256

def stored (setting : Setting) (pending : Pending) (row : Artifact) : Artifact :=
  { row with
    storagePath := pending.key
    checksumSha256 := some (setting.sha256 pending.upload.bytes)
    sizeBytes := some pending.upload.bytes.length
    deletedAt := none }

def newArtifact (pending : Pending) (id : Uuid) : Artifact := ⟨id,pending.deployment.id,pending.key,none,none,none⟩

def written (setting : Setting) (s : Shared) (pending : Pending) (id : Uuid) (exists' : Bool) : Option Artifacts :=
  if exists' then (s.artifacts.find id).bind fun _ => s.artifacts.update id (stored setting pending) fun _ => rfl
  else s.artifacts.insert (stored setting pending (newArtifact pending id))

/-- The charge of an upload, which `commit` of its reservation records. -/
def chargeParams (pending : Pending) (id : Uuid) : RecordEventParams where
  teamId := pending.deployment.teamId
  dimension := .storageMb
  kind := .consume
  deltaValue := sizeMb pending.upload.packedSizeBytes
  resourceType := some "deployment_artifact"
  resourceId := some id

def releaseKey (id : Uuid) : IdempotencyKey := .release "deployment_artifact" id .storageMb none

def releaseParams (swept : Swept) (sizeBytes : Int) : RecordEventParams where
  teamId := swept.teamId
  dimension := .storageMb
  kind := .release
  deltaValue := -sizeMb sizeBytes
  resourceType := some "deployment_artifact"
  resourceId := some swept.artifact.id

def charged (setting : Setting) (ledger : Ledger) (params : RecordEventParams) (now : Timestamp) : Ledger :=
  (ledger.recordEvent setting.calendar params now).getD ledger

def releasedOnce (setting : Setting) (ledger : Ledger) (key : IdempotencyKey) (params : RecordEventParams) (now : Timestamp) : Ledger :=
  ((ledger.recordEventOnce setting.calendar key params now).map Prod.snd).getD ledger

def releasing (setting : Setting) (ledger : Ledger) (swept : Swept) (now : Timestamp) : Ledger :=
  match swept.artifact.sizeBytes with
  | some sizeBytes =>
    if 0 < sizeMb sizeBytes then releasedOnce setting ledger (releaseKey swept.artifact.id) (releaseParams swept sizeBytes) now
    else ledger
  | none => ledger

/-- The artifacts a sweep goes through: the tombstoned ones, and those the policy has given up. -/
def candidates (s : Shared) (expired : List Uuid) : List Swept :=
  s.artifacts.rows.filterMap fun artifact =>
    if artifact.deletedAt.isSome || decide (artifact.id ∈ expired) then
      (s.deployments.find artifact.deploymentId).map fun deployment => ⟨artifact,deployment.teamId⟩
    else none

def proceed : List Swept → Option Handler
  | [] => none
  | swept :: others => some (.mark swept others)

def ofProject (s : Shared) (projectId deploymentId : Uuid) : Bool :=
  (s.deployments.find deploymentId).any fun deployment => deployment.projectId = projectId

def deletedRows (s : Shared) (projectId : Uuid) : Shared :=
  { s with
    projects := s.projects.deleteWhere fun project => project.id = projectId
    deployments := s.deployments.deleteWhere fun deployment => deployment.projectId = projectId
    artifacts := s.artifacts.deleteWhere fun artifact => ofProject s projectId artifact.deploymentId = true }

def inUse (s : Shared) (projectId : Uuid) : Bool :=
  s.deployments.rows.any (fun deployment => deployment.projectId = projectId ∧ .deployment deployment.id ∈ s.locks) ||
    s.artifacts.rows.any fun artifact => ofProject s projectId artifact.deploymentId ∧ .artifact artifact.id ∈ s.locks

section Machine
variable (setting : Setting)

def advance (input : Input) (s : Shared) (handler : Handler) : Shared × Option Handler :=
  match handler with
  | .readOwned upload =>
    match buildOwnedDeployment s upload.node upload.deploymentId with
    | some deployment => going input s handler (.receive ⟨deployment,upload⟩)
    | none => (s,none)
  | .receive pending => if pending.upload.complete setting then going input s handler (.reserve pending) else (s,none)
  | .reserve pending => going input s handler (.lockPlacement pending)
  | .lockPlacement pending => if input.fails then (s,none) else locking s .placement handler (.check pending)
  | .check pending =>
    if input.fails || (buildOwnedDeployment s pending.upload.node pending.deployment.id).isNone then (s.leave handler,none)
    else locking s (.deployment pending.deployment.id) handler (.finalize pending)
  | .finalize pending =>
    let replaced := { s with objects := setObject s.objects pending.key (some pending.upload.bytes) }
    if input.fails then ((if input.replaces then replaced else s).leave handler,none) else (replaced,some (.findExisting pending))
  | .findExisting pending =>
    going input s handler (.writeRow pending ((s.artifacts.rows.find? fun row => row.deploymentId = pending.deployment.id).map Artifact.id))
  | .writeRow pending existing =>
    if input.fails then (s.leave handler,none)
    else
      match existing with
      | some id => locking s (.artifact id) handler (.audit pending id true)
      | none => locking { s with drawn := s.drawn + 1 } (.artifact s.drawn) handler (.audit pending s.drawn false)
  | .audit pending id exists' => going input s handler (.commit pending id exists')
  | .commit pending id exists' =>
    match if input.fails then none else written setting s pending id exists' with
    | some artifacts => ({ s.leave handler with artifacts },some (.charge pending id))
    | none => (s.leave handler,none)
  | .charge pending id => ({ s with ledger := charged setting s.ledger (chargeParams pending id) input.now },none)
  | .readArtifacts => (s,if input.fails then none else proceed (candidates s input.expired))
  | .mark swept others =>
    if swept.artifact.deletedAt.isSome then (s,some (.release swept others))
    else if input.fails || (s.artifacts.find swept.artifact.id).isNone then (s,none)
    else if .artifact swept.artifact.id ∈ s.locks then (s,some handler)
    else
      match s.artifacts.updateWhere (fun row => row.id = swept.artifact.id) (setting.tombstone input.now) (setting.tombstone_id input.now) with
      | some artifacts => ({ s with artifacts },some (.release swept others))
      | none => (s,none)
  | .release swept others =>
    ({ s with ledger := if input.fails then s.ledger else releasing setting s.ledger swept input.now },some (.remove swept others))
  | .remove swept others =>
    ({ s with objects := if input.fails then s.objects else setObject s.objects swept.artifact.storagePath none },proceed others)
  | .softDelete projectId =>
    match s.projects.update projectId (fun project => { project with deletedAt := some (project.deletedAt.getD input.now) }) fun _ => rfl with
    | some projects => (if input.fails then s else { s with projects },none)
    | none => (s,none)
  | .readDeleted projectId =>
    (s,if input.fails || !(s.projects.find projectId).any fun project => project.deletedAt.isSome then none else some (.deleteRows projectId))
  | .deleteRows projectId =>
    if input.fails then (s,none) else if inUse s projectId then (s,some handler) else (deletedRows s projectId,none)

def act (input : Input) (s : Shared) : Handler → Shared × Option Handler
  | .charge pending id => advance setting input s (.charge pending id)
  | handler => if input.crashes then (s.leave handler,none) else advance setting input s handler

def enter : Request → Handler
  | .upload upload => .readOwned upload
  | .sweep => .readArtifacts
  | .softDelete projectId => .softDelete projectId
  | .hardDelete projectId => .readDeleted projectId

def machine : Machine Shared Handler Request Input := ⟨enter,act setting⟩

end Machine

def idle (projects : Projects) (deployments : Deployments) : Config Shared Handler := ⟨{ projects, deployments },[]⟩

/-- The upload a handler has a transaction for, once its deployment is locked. -/
def Handler.locked : Handler → Option Pending
  | .finalize pending | .findExisting pending | .writeRow pending _ | .audit pending _ _ | .commit pending _ _ => some pending
  | _ => none

def Handler.replaced : Handler → Option Pending
  | .findExisting pending | .writeRow pending _ | .audit pending _ _ | .commit pending _ _ => some pending
  | _ => none

def Handler.pending : Handler → Option Pending
  | .receive pending | .reserve pending | .lockPlacement pending | .check pending | .finalize pending | .findExisting pending
  | .writeRow pending _ | .audit pending _ _ | .commit pending _ _ | .charge pending _ => some pending
  | _ => none

def Handler.received : Handler → Option Pending
  | .receive _ => none
  | handler => handler.pending

def Handler.charges : Handler → Bool
  | .charge _ _ => true
  | _ => false

def Handler.swept : Handler → List Swept
  | .mark swept others | .release swept others | .remove swept others => swept :: others
  | _ => []

def Handler.target : Handler → Option Uuid
  | .writeRow _ existing => existing
  | .audit _ id true | .commit _ id true => some id
  | _ => none

/-- A step of a handler that leaves the rows, the objects and the quota alone. -/
structure Goes (handler next : Handler) : Prop where
  guards : next.guards = handler.guards
  pending : ∀ upload ∈ next.pending, upload ∈ handler.pending
  received : ∀ upload ∈ next.received, upload ∈ handler.received
  uncharged : handler.charges = false ∧ next.charges = false
  replaced : next.replaced = handler.replaced
  locked : next.locked = handler.locked
  target : ∀ id ∈ next.target, id ∈ handler.target
  swept : next.swept ⊆ handler.swept

inductive Acts (setting : Setting) (input : Input) (s : Shared) : Handler → Shared → Option Handler → Prop
  | waits (handler : Handler) : Acts setting input s handler s (some handler)
  | gives (handler : Handler) (gives : input.crashes ∨ input.fails) (uncharged : handler.charges = false) :
      Acts setting input s handler (s.leave handler) none
  | ends (handler : Handler) (unlocked : handler.locked = none) (uncharged : handler.charges = false) :
      Acts setting input s handler (s.leave handler) none
  | stops (handler : Handler) (unguarded : handler.guards = 0) (uncharged : handler.charges = false) : Acts setting input s handler s none
  | goes (handler next : Handler) (goes : Goes handler next) : Acts setting input s handler s (some next)
  | owned (upload : Upload) (deployment : Deployment) (found : s.deployments.find upload.deploymentId = some deployment) :
      Acts setting input s (.readOwned upload) s (some (.receive ⟨deployment,upload⟩))
  | received (pending : Pending) (complete : pending.upload.complete setting) :
      Acts setting input s (.receive pending) s (some (.reserve pending))
  | lockedPlacement (pending : Pending) (free : .placement ∉ s.locks) :
      Acts setting input s (.lockPlacement pending) { s with locks := .placement ::ₘ s.locks } (some (.check pending))
  | lockedDeployment (pending : Pending) (deployment : Deployment) (found : s.deployments.find pending.deployment.id = some deployment)
      (free : .deployment pending.deployment.id ∉ s.locks) : Acts setting input s (.check pending)
        { s with locks := .deployment pending.deployment.id ::ₘ s.locks } (some (.finalize pending))
  | replaced (pending : Pending) : Acts setting input s (.finalize pending)
      { s with objects := setObject s.objects pending.key (some pending.upload.bytes) } (some (.findExisting pending))
  | replacedOnly (pending : Pending) (crash : input.crashes = false) (fails : input.fails = true) (replaces : input.replaces = true) :
      Acts setting input s (.finalize pending)
        { s with locks := s.locks - pending.locks, objects := setObject s.objects pending.key (some pending.upload.bytes) } none
  | found (pending : Pending) (existing : Option Uuid)
      (rows : ∀ id ∈ existing, ∃ row, s.artifacts.find id = some row ∧ row.deploymentId = pending.deployment.id) :
      Acts setting input s (.findExisting pending) s (some (.writeRow pending existing))
  | lockedArtifact (pending : Pending) (existing : Option Uuid) (id drawn : Nat) (exists' : Bool)
      (target : exists' = true → existing = some id) (free : .artifact id ∉ s.locks) : Acts setting input s (.writeRow pending existing)
        { s with locks := .artifact id ::ₘ s.locks, drawn } (some (.audit pending id exists'))
  | drawn (pending : Pending) (existing : Option Uuid) :
      Acts setting input s (.writeRow pending existing) { s with drawn := s.drawn + 1 } (some (.writeRow pending existing))
  | refused (pending : Pending) (id : Uuid) (exists' : Bool) (refused : written setting s pending id exists' = none) :
      Acts setting input s (.commit pending id exists') (s.leave (.commit pending id exists')) none
  | committed (pending : Pending) (id : Uuid) (exists' : Bool) (artifacts : Artifacts)
      (written : written setting s pending id exists' = some artifacts) (succeeds : input.fails = false ∧ input.crashes = false) :
      Acts setting input s (.commit pending id exists')
        { s with locks := s.locks - Handler.guards (.commit pending id exists'), artifacts } (some (.charge pending id))
  | charged (pending : Pending) (id : Uuid) : Acts setting input s (.charge pending id)
      { s with ledger := charged setting s.ledger (chargeParams pending id) input.now } none
  | listed : Acts setting input s .readArtifacts s (proceed (candidates s input.expired))
  | marked (swept : Swept) (others : List Swept) (artifacts : Artifacts) (live : swept.artifact.deletedAt = none)
      (free : .artifact swept.artifact.id ∉ s.locks) (succeeds : input.fails = false ∧ input.crashes = false)
      (updated : s.artifacts.updateWhere (fun row => row.id = swept.artifact.id) (setting.tombstone input.now)
        (setting.tombstone_id input.now) = some artifacts) :
      Acts setting input s (.mark swept others) { s with artifacts } (some (.release swept others))
  | released (swept : Swept) (others : List Swept) (succeeds : input.fails = false ∧ input.crashes = false) :
      Acts setting input s (.release swept others) { s with ledger := releasing setting s.ledger swept input.now }
        (some (.remove swept others))
  | removed (swept : Swept) (others : List Swept) (succeeds : input.fails = false ∧ input.crashes = false) :
      Acts setting input s (.remove swept others) { s with objects := setObject s.objects swept.artifact.storagePath none } (proceed others)
  | kept (swept : Swept) (others : List Swept) : Acts setting input s (.remove swept others) s (proceed others)
  | softDeleted (projectId : Uuid) (projects : Projects) : Acts setting input s (.softDelete projectId) { s with projects } none
  | deleted (projectId : Uuid) (free : inUse s projectId = false) (succeeds : input.fails = false ∧ input.crashes = false) :
      Acts setting input s (.deleteRows projectId) (deletedRows s projectId) none

section Acts
variable {setting : Setting} {input : Input} {s : Shared}

theorem acts_locking {handler next : Handler} {lock : Lock}
    (free : lock ∉ s.locks → Acts setting input s handler { s with locks := lock ::ₘ s.locks } (some next)) :
    Acts setting input s handler (locking s lock handler next).1 (locking s lock handler next).2 := by
  unfold locking
  split
  · exact .waits handler
  · rename_i unlocked
    exact free unlocked

theorem acts_going {handler next : Handler} (uncharged : handler.charges = false)
    (acts : Acts setting input s handler s (some next)) :
    Acts setting input s handler (going input s handler next).1 (going input s handler next).2 := by
  unfold going
  split
  · rename_i fails
    exact .gives handler (.inr fails) uncharged
  · exact acts

theorem forall_mem_none {α : Type} {p : α → Prop} : ∀ x ∈ (none : Option α), p x := fun _ member => by cases member

theorem advance_acts (handler : Handler) (steady : input.crashes = false) :
    Acts setting input s handler (advance setting input s handler).1 (advance setting input s handler).2 := by
  cases handler with
  | readOwned upload =>
    unfold advance
    dsimp only
    split
    · rename_i deployment found
      exact acts_going rfl (.owned upload deployment (Option.filter_eq_some_iff.mp found).1)
    · exact .stops _ rfl rfl
  | receive pending =>
    unfold advance
    dsimp only
    split
    · rename_i complete
      exact acts_going rfl (.received pending complete)
    · exact .stops _ rfl rfl
  | reserve pending =>
    exact acts_going rfl (.goes _ _ ⟨rfl,fun _ same => same,fun _ same => same,⟨rfl,rfl⟩,rfl,rfl,forall_mem_none,List.Subset.refl _⟩)
  | lockPlacement pending =>
    unfold advance
    dsimp only
    split
    · exact .stops _ rfl rfl
    · exact acts_locking (.lockedPlacement pending)
  | check pending =>
    unfold advance
    dsimp only
    split
    · exact .ends _ rfl rfl
    · rename_i passes
      have owned : buildOwnedDeployment s pending.upload.node pending.deployment.id ≠ none := by
        intro none'
        rw [none'] at passes
        simp at passes
      obtain ⟨deployment,found⟩ := Option.ne_none_iff_exists'.mp owned
      exact acts_locking (.lockedDeployment pending deployment (Option.filter_eq_some_iff.mp found).1)
  | finalize pending =>
    unfold advance
    dsimp only
    split
    · rename_i fails
      split
      · rename_i replaces
        exact .replacedOnly pending steady fails replaces
      · exact .gives _ (.inr fails) rfl
    · exact .replaced pending
  | findExisting pending =>
    refine acts_going rfl (.found pending _ ?_)
    intro id member
    obtain ⟨row,found,rfl⟩ := Option.map_eq_some_iff.mp member
    exact ⟨row,Table.find_of_mem (List.mem_of_find?_eq_some found),by simpa using List.find?_some found⟩
  | writeRow pending existing =>
    unfold advance
    dsimp only
    split
    · rename_i fails
      exact .gives _ (.inr fails) rfl
    · cases existing with
      | some id => exact acts_locking (.lockedArtifact pending (some id) id s.drawn true fun _ => rfl)
      | none =>
        unfold locking
        dsimp only
        split
        · exact .drawn pending none
        · rename_i free
          exact .lockedArtifact pending none s.drawn (s.drawn + 1) false (fun there => by cases there) free
  | audit pending id exists' =>
    refine acts_going rfl (.goes _ _ ⟨rfl,fun _ same => same,fun _ same => same,⟨rfl,rfl⟩,rfl,rfl,?_,List.Subset.refl _⟩)
    cases exists' with
    | true => exact fun _ same => same
    | false => exact forall_mem_none
  | commit pending id exists' =>
    unfold advance
    dsimp only
    cases fails : input.fails with
    | true => exact .gives _ (.inr fails) rfl
    | false =>
      cases writes : written setting s pending id exists' with
      | none =>
        simp only [Bool.false_eq_true,if_false]
        exact .refused pending id exists' writes
      | some artifacts =>
        simp only [Bool.false_eq_true,if_false]
        exact .committed pending id exists' artifacts writes ⟨fails,steady⟩
  | charge pending id => exact .charged pending id
  | readArtifacts =>
    unfold advance
    dsimp only
    split
    · exact .stops _ rfl rfl
    · exact .listed
  | mark swept others =>
    unfold advance
    dsimp only
    split
    · exact .goes _ _ ⟨rfl,forall_mem_none,forall_mem_none,⟨rfl,rfl⟩,rfl,rfl,forall_mem_none,List.Subset.refl _⟩
    · rename_i live
      split
      · exact .stops _ rfl rfl
      · rename_i there
        split
        · exact .waits _
        · rename_i free
          split
          · rename_i artifacts updated
            have succeeds : input.fails = false := by
              cases fails : input.fails with
              | true => simp [fails] at there
              | false => rfl
            exact .marked swept others artifacts (Option.not_isSome_iff_eq_none.mp live) free ⟨succeeds,steady⟩ updated
          · exact .stops _ rfl rfl
  | release swept others =>
    unfold advance
    dsimp only
    cases fails : input.fails with
    | true => exact .goes _ _ ⟨rfl,forall_mem_none,forall_mem_none,⟨rfl,rfl⟩,rfl,rfl,forall_mem_none,List.Subset.refl _⟩
    | false => exact .released swept others ⟨fails,steady⟩
  | remove swept others =>
    unfold advance
    dsimp only
    cases fails : input.fails with
    | true => exact .kept swept others
    | false => exact .removed swept others ⟨fails,steady⟩
  | softDelete projectId =>
    unfold advance
    dsimp only
    split
    · split
      · exact .stops _ rfl rfl
      · exact .softDeleted projectId _
    · exact .stops _ rfl rfl
  | readDeleted projectId =>
    unfold advance
    dsimp only
    split
    · exact .stops _ rfl rfl
    · exact .goes _ _ ⟨rfl,forall_mem_none,forall_mem_none,⟨rfl,rfl⟩,rfl,rfl,forall_mem_none,List.Subset.refl _⟩
  | deleteRows projectId =>
    unfold advance
    dsimp only
    cases fails : input.fails with
    | true => exact .stops _ rfl rfl
    | false =>
      cases busy : inUse s projectId with
      | true => exact .waits _
      | false => exact .deleted projectId busy ⟨fails,steady⟩

theorem act_acts (input : Input) (s : Shared) (handler : Handler) :
    Acts setting input s handler (act setting input s handler).1 (act setting input s handler).2 := by
  cases crash : input.crashes with
  | false =>
    have same : act setting input s handler = advance setting input s handler := by
      unfold act
      split
      · rfl
      · rw [crash]
        rfl
    rw [same]
    exact advance_acts handler crash
  | true =>
    unfold act
    split
    · exact .charged _ _
    · rename_i uncharged
      rw [if_pos crash]
      refine .gives handler (.inl crash) ?_
      cases handler with
      | charge pending id => exact absurd rfl (uncharged pending id)
      | _ => rfl

end Acts

end GrassWorker.ArtifactStore
