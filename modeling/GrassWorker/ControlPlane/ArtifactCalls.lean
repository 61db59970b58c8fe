import GrassWorker.ControlPlane.ArtifactStore

/-! What uploads and sweeps know of the rows they are about: a deployment that is locked
is there, and so is the artifact row that an upload has found. -/
namespace GrassWorker.ArtifactStore
open Interleaving

/-- Deployments are as they were at the start, and an artifact is stored where its deployment's uploads go. -/
structure Sound (start s : Shared) : Prop where
  deployments : ∀ row ∈ s.deployments.rows, row ∈ start.deployments.rows
  owned : ∀ row ∈ s.artifacts.rows, ∃ deployment, s.deployments.find row.deploymentId = some deployment ∧
    row.storagePath = ⟨deployment.projectId,deployment.id⟩

def Swept.Known (start : Shared) (swept : Swept) : Prop :=
  ∃ deployment ∈ start.deployments.rows, deployment.id = swept.artifact.deploymentId ∧ deployment.teamId = swept.teamId ∧
    swept.artifact.storagePath = ⟨deployment.projectId,deployment.id⟩

structure Relies (start s : Shared) (handler : Handler) : Prop where
  known : ∀ pending ∈ handler.pending, pending.deployment ∈ start.deployments.rows
  locked : ∀ pending ∈ handler.locked, s.deployments.find pending.deployment.id = some pending.deployment
  target : ∀ pending ∈ handler.locked, ∀ id ∈ handler.target,
    ∃ row, s.artifacts.find id = some row ∧ row.deploymentId = pending.deployment.id
  swept : ∀ swept ∈ handler.swept, swept.Known start

section Steps
variable {setting : Setting} {start : Shared} {input : Input} {s s' : Shared} {handler other : Handler} {remaining : Option Handler}

theorem Sound.same (sound : Sound start s) {row known : Deployment} {id : Uuid} (found : s.deployments.find id = some row)
    (member : known ∈ start.deployments.rows) (same : known.id = id) : row = known := by
  have there := sound.deployments row (Table.find_mem found)
  exact start.deployments.same_of_key there member ((Table.find_key found).trans same.symm)

theorem Handler.locked_guards {pending : Pending} (locked : handler.locked = some pending) : pending.locks ≤ handler.guards := by
  cases handler with
  | finalize | findExisting | writeRow =>
    cases locked
    exact le_refl _
  | audit | commit =>
    cases locked
    exact Multiset.le_cons_self _ _
  | _ => cases locked

theorem Pending.mem_locks (pending : Pending) :
    Lock.deployment pending.deployment.id ∈ pending.locks ∧ Lock.placement ∈ pending.locks := by
  simp [Pending.locks]

theorem locked_alone (apart : Apart Handler.guards Shared.locks s handler other) {pending upload : Pending}
    (mine : handler.locked = some pending) (theirs : other.locked = some upload) : False := by
  have held := Multiset.mem_of_le (Handler.locked_guards mine) pending.mem_locks.2
  have also := Multiset.mem_of_le (Handler.locked_guards theirs) upload.mem_locks.2
  exact Multiset.disjoint_left.mp apart.2 held also

theorem find_updateWhere_key {table after : Artifacts} {id : Uuid} {change : Artifact → Artifact} {keeps : ∀ row, (change row).id = row.id}
    (updated : table.updateWhere (fun row => row.id = id) change keeps = some after) {key : Uuid} {row : Artifact}
    (found : table.find key = some row) : after.find key = some (if row.id = id then change row else row) :=
  Table.find_updateWhere updated found

theorem tombstone_deployment (setting : Setting) (now : Timestamp) (row : Artifact) :
    (setting.tombstone now row).deploymentId = row.deploymentId ∧ (setting.tombstone now row).storagePath = row.storagePath := by
  rcases setting.tombstones now row with same | marked
  · rw [same]
    exact ⟨rfl,rfl⟩
  · rw [marked]
    exact ⟨rfl,rfl⟩

theorem deletedRows_locked {projectId : Uuid} (free : inUse s projectId = false) {deployment : Deployment} {id : Uuid}
    (found : s.deployments.find id = some deployment) (locked : .deployment id ∈ s.locks) :
    deployment.projectId ≠ projectId ∧ (deletedRows s projectId).deployments.find id = some deployment := by
  have different : deployment.projectId ≠ projectId := by
    intro same
    have used : inUse s projectId = true := by
      unfold inUse
      apply Bool.or_eq_true_iff.mpr
      left
      rw [List.any_eq_true]
      refine ⟨deployment,Table.find_mem found,decide_eq_true ⟨same,?_⟩⟩
      rw [Table.find_key found]
      exact locked
    rw [free] at used
    cases used
  exact ⟨different,(Table.find_deleteWhere _ _).mpr ⟨found,different⟩⟩

theorem ofProject_eq {projectId id : Uuid} {deployment : Deployment} (owner : s.deployments.find id = some deployment) :
    ofProject s projectId id = decide (deployment.projectId = projectId) := by
  unfold ofProject
  rw [owner]
  rfl

theorem deletedRows_artifact {projectId : Uuid} {row : Artifact} {id : Uuid} (found : s.artifacts.find id = some row)
    {deployment : Deployment} (owner : s.deployments.find row.deploymentId = some deployment) (different : deployment.projectId ≠ projectId) :
    (deletedRows s projectId).artifacts.find id = some row := by
  refine (Table.find_deleteWhere _ _).mpr ⟨found,?_⟩
  rw [ofProject_eq owner]
  simpa using different

theorem sound_written (sound : Sound start s) {pending : Pending} {id : Uuid} {exists' : Bool} {artifacts : Artifacts}
    (relies : Relies start s (.commit pending id exists')) (writes : written setting s pending id exists' = some artifacts) :
    ∀ row ∈ artifacts.rows, ∃ deployment, s.deployments.find row.deploymentId = some deployment ∧
      row.storagePath = ⟨deployment.projectId,deployment.id⟩ := by
  have locked : s.deployments.find pending.deployment.id = some pending.deployment := relies.locked pending rfl
  intro row member
  unfold written at writes
  cases exists' with
  | false =>
    rw [if_neg Bool.false_ne_true] at writes
    rw [Table.rows_insert writes] at member
    rcases List.mem_append.mp member with old | new
    · exact sound.owned row old
    · rw [List.mem_singleton.mp new]
      exact ⟨pending.deployment,locked,rfl⟩
  | true =>
    rw [if_pos rfl] at writes
    obtain ⟨_,_,updated⟩ := Option.bind_eq_some_iff.mp writes
    rw [Table.rows_update updated] at member
    obtain ⟨old,inside,rfl⟩ := List.mem_map.mp member
    split
    · rename_i chosen
      obtain ⟨target,found,same⟩ := relies.target pending rfl id rfl
      have again := Table.find_of_mem inside
      rw [chosen,found] at again
      obtain rfl := Option.some.inj again
      refine ⟨pending.deployment,?_,rfl⟩
      change s.deployments.find target.deploymentId = _
      rw [same]
      exact locked
    · exact sound.owned old inside

theorem acts_sound (acts : Acts setting input s handler s' remaining) (sound : Sound start s) (relies : Relies start s handler) :
    Sound start s' := by
  cases acts with
  | committed pending id exists' artifacts writes => exact ⟨sound.deployments,sound_written sound relies writes⟩
  | marked swept others artifacts live free succeeds updated =>
    refine ⟨sound.deployments,fun row member => ?_⟩
    have member : row ∈ artifacts.rows := member
    rw [Table.rows_updateWhere updated] at member
    obtain ⟨old,inside,rfl⟩ := List.mem_map.mp member
    split
    · rw [(tombstone_deployment setting input.now old).1,(tombstone_deployment setting input.now old).2]
      exact sound.owned old inside
    · exact sound.owned old inside
  | deleted projectId free =>
    constructor
    · intro row member
      exact sound.deployments row (List.mem_filter.mp member).1
    · intro row member
      obtain ⟨inside,kept⟩ := List.mem_filter.mp member
      obtain ⟨deployment,owner,path⟩ := sound.owned row inside
      refine ⟨deployment,(Table.find_deleteWhere _ _).mpr ⟨owner,?_⟩,path⟩
      have kept := of_decide_eq_true kept
      dsimp only at kept
      rw [ofProject_eq owner] at kept
      simpa using kept
  | _ => exact ⟨sound.deployments,sound.owned⟩

theorem proceed_handler {list : List Swept} {next : Handler} (goes : proceed list = some next) :
    next.pending = none ∧ next.locked = none ∧ next.swept = list := by
  cases list with
  | nil => cases goes
  | cons swept others =>
    cases goes
    exact ⟨rfl,rfl,rfl⟩

theorem proceed_relies {list : List Swept} (known : ∀ swept ∈ list, swept.Known start) {next : Handler}
    (goes : proceed list = some next) : Relies start s' next := by
  obtain ⟨pending,locked,swept⟩ := proceed_handler goes
  constructor
  · rw [pending]
    nofun
  · rw [locked]
    nofun
  · rw [locked]
    nofun
  · rw [swept]
    exact known

theorem candidates_known (sound : Sound start s) (expired : List Uuid) : ∀ swept ∈ candidates s expired, swept.Known start := by
  intro swept member
  obtain ⟨row,inside,chosen⟩ := List.mem_filterMap.mp member
  split at chosen
  · obtain ⟨deployment,found,rfl⟩ := Option.map_eq_some_iff.mp chosen
    obtain ⟨owner,same,path⟩ := sound.owned row inside
    rw [found] at same
    obtain rfl := Option.some.inj same
    exact ⟨deployment,sound.deployments deployment (Table.find_mem found),Table.find_key found,rfl,path⟩
  · cases chosen

theorem acts_relies (acts : Acts setting input s handler s' remaining) (sound : Sound start s) (relies : Relies start s handler) :
    ∀ next, remaining = some next → Relies start s' next := by
  intro next goes
  cases acts with
  | waits =>
    cases goes
    exact relies
  | gives | ends | stops | replacedOnly | refused | charged | softDeleted | deleted => cases goes
  | goes handler next same =>
    cases goes
    refine ⟨fun pending member => relies.known pending (same.pending pending member),?_,?_,
      fun swept member => relies.swept swept (same.swept member)⟩
    · rw [same.locked]
      exact relies.locked
    · rw [same.locked]
      exact fun pending member id wanted => relies.target pending member id (same.target id wanted)
  | owned upload deployment found =>
    cases goes
    refine ⟨?_,nofun,nofun,nofun⟩
    rintro pending ⟨⟩
    exact sound.deployments deployment (Table.find_mem found)
  | received pending complete =>
    cases goes
    exact ⟨relies.known,nofun,nofun,nofun⟩
  | lockedPlacement pending free =>
    cases goes
    exact ⟨relies.known,nofun,nofun,nofun⟩
  | lockedDeployment pending deployment found free =>
    cases goes
    refine ⟨relies.known,?_,nofun,nofun⟩
    rintro upload ⟨⟩
    have same := sound.same found (relies.known pending rfl) rfl
    rw [same] at found
    exact found
  | replaced pending =>
    cases goes
    exact ⟨relies.known,relies.locked,nofun,nofun⟩
  | found pending existing rows =>
    cases goes
    refine ⟨relies.known,relies.locked,?_,nofun⟩
    rintro upload ⟨⟩
    exact rows
  | lockedArtifact pending existing id drawn exists' target free =>
    cases goes
    refine ⟨relies.known,relies.locked,?_,nofun⟩
    rintro upload ⟨⟩ wanted member
    cases exists' with
    | false => cases member
    | true =>
      cases member
      exact relies.target pending rfl id (target rfl)
  | drawn pending existing =>
    cases goes
    exact ⟨relies.known,relies.locked,relies.target,nofun⟩
  | committed pending id exists' artifacts writes =>
    cases goes
    exact ⟨relies.known,nofun,nofun,nofun⟩
  | listed => exact proceed_relies (candidates_known sound input.expired) goes
  | marked swept others =>
    cases goes
    exact ⟨nofun,nofun,nofun,relies.swept⟩
  | released swept others =>
    cases goes
    exact ⟨nofun,nofun,nofun,relies.swept⟩
  | removed swept others => exact proceed_relies (fun swept member => relies.swept swept (List.mem_cons_of_mem _ member)) goes
  | kept swept others => exact proceed_relies (fun swept member => relies.swept swept (List.mem_cons_of_mem _ member)) goes

theorem Relies.apart (acts : Acts setting input s handler s' remaining) (apart : Apart Handler.guards Shared.locks s handler other)
    (relies : Relies start s other) : Relies start s' other := by
  cases theirs : other.locked with
  | none =>
    refine ⟨relies.known,?_,?_,relies.swept⟩
    · rw [theirs]
      nofun
    · rw [theirs]
      nofun
  | some upload =>
    have found := relies.locked upload theirs
    have target := relies.target upload theirs
    have held : Lock.deployment upload.deployment.id ∈ s.locks :=
      Multiset.mem_of_le apart.1 (Multiset.mem_of_le (Handler.locked_guards theirs) upload.mem_locks.1)
    have kept : s'.deployments.find upload.deployment.id = some upload.deployment ∧ ∀ id ∈ other.target,
        ∃ row, s'.artifacts.find id = some row ∧ row.deploymentId = upload.deployment.id := by
      cases acts with
      | committed pending id exists' artifacts writes => exact (locked_alone apart rfl theirs).elim
      | marked swept others artifacts live free succeeds updated =>
        refine ⟨found,fun id member => ?_⟩
        obtain ⟨row,present,same⟩ := target id member
        refine ⟨_,find_updateWhere_key updated present,?_⟩
        split
        · rw [(tombstone_deployment setting input.now row).1]
          exact same
        · exact same
      | deleted projectId free =>
        obtain ⟨different,still⟩ := deletedRows_locked free found held
        refine ⟨still,fun id member => ?_⟩
        obtain ⟨row,present,same⟩ := target id member
        refine ⟨row,deletedRows_artifact present ?_ different,same⟩
        rw [same]
        exact found
      | _ => exact ⟨found,target⟩
    constructor
    · exact relies.known
    · intro pending member
      rw [theirs] at member
      cases member
      exact kept.1
    · intro pending member
      rw [theirs] at member
      cases member
      exact kept.2
    · exact relies.swept

theorem act_locking (held : handler.guards ≤ s.locks) (acts : Acts setting input s handler s' remaining) :
    Locking s.locks handler.guards s'.locks (rest Handler.guards remaining) := by
  have proceeds : ∀ list, rest Handler.guards (proceed list) = 0 := by
    intro list
    cases list <;> rfl
  cases acts with
  | gives | ends | replacedOnly | refused | committed => exact .leave _ (Multiset.sub_add_cancel held)
  | stops handler unguarded =>
    rw [unguarded]
    exact .keep
  | goes handler next goes =>
    rw [rest_some,goes.guards]
    exact .keep
  | lockedPlacement pending free => exact .take _ free
  | lockedDeployment pending deployment found free =>
    have guards : Handler.guards (.finalize pending) = .deployment pending.deployment.id ::ₘ Handler.guards (.check pending) := rfl
    rw [rest_some,guards]
    exact .take _ free
  | lockedArtifact pending existing id drawn exists' target free => exact .take _ free
  | listed | removed | kept =>
    rw [proceeds]
    exact .keep
  | _ => exact .keep

end Steps

/-- In every run an artifact is that of a deployment there is, and is stored under the path of this deployment. -/
theorem artifacts_owned (setting : Setting) (projects : Projects) (deployments : Deployments) (events : List (Event Request Input)) :
    Runs.Throughout (machine setting).step (fun config => ∀ row ∈ config.shared.artifacts.rows,
      ∃ deployment, config.shared.deployments.find row.deploymentId = some deployment ∧ deployment ∈ deployments.rows ∧
        row.storagePath = ⟨deployment.projectId,deployment.id⟩) (idle projects deployments) events := by
  let Kept (config : Config Shared Handler) : Prop :=
    Holds (Sound { projects, deployments }) (Relies { projects, deployments }) config ∧ Guarded Handler.guards Shared.locks config
  have start : Kept (idle projects deployments) := by
    refine ⟨⟨⟨fun row member => member,?_⟩,?_⟩,⟨rfl,Multiset.nodup_zero⟩⟩ <;>
    · intro _ member
      cases member
  have kept : ∀ config event, Kept config → True → Kept ((machine setting).step config event) := by
    rintro config event ⟨holds,guarded⟩ _
    refine ⟨?_,guarded.step_locking ?_ (fun input s handler held => act_locking held (act_acts input s handler)) event⟩
    · refine Holds.step_apart ?_ ?_ ?_ config event holds (guarded.acting_apart event (acting_true config event))
      · intro s request _
        cases request <;> (constructor <;> intro _ member <;> cases member)
      · intro input s handler _ sound relies
        have acts := @act_acts setting input s handler
        exact ⟨acts_sound acts sound relies,acts_relies acts sound relies⟩
      · exact fun input s handler other _ apart _ _ relied => Relies.apart (act_acts input s handler) apart relied
    · intro request
      cases request <;> rfl
  refine Runs.throughout_of_invariant kept (fun config kept row member => ?_) _ events start (Runs.along_true _ events)
  obtain ⟨deployment,found,path⟩ := kept.1.state.owned row member
  exact ⟨deployment,found,kept.1.state.deployments deployment (Table.find_mem found),path⟩

end GrassWorker.ArtifactStore
