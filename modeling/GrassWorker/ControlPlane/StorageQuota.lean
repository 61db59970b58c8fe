import GrassWorker.ControlPlane.StoredArtifacts
import GrassWorker.Foundations.Obligations

/-! The storage quota and what is stored. An upload is charged once it is committed and a tombstone
is released once for ever, by the id of its row, so that a row that is written again counts twice or
is never released, and one that is deleted with its project may stay charged. -/
namespace GrassWorker.ArtifactStore
open Interleaving Quotas Runs

section Definitions
variable (setting : Setting)

def storageEvents (s : Shared) (team : Uuid) : Int := s.ledger.total setting.calendar ⟨team,.storageMb,none⟩

def rowMb (row : Artifact) : Int := row.sizeBytes.elim 0 sizeMb

def ofTeam (s : Shared) (team : Uuid) (row : Artifact) : Bool :=
  (s.deployments.find row.deploymentId).any fun deployment => deployment.teamId = team

def storedMb (s : Shared) (team : Uuid) : Int :=
  s.artifacts.total fun row => if row.deletedAt = none ∧ ofTeam s team row then rowMb row else 0

def Released (s : Shared) : Prop :=
  ∀ row ∈ s.artifacts.rows, row.deletedAt ≠ none → s.ledger.recorded (releaseKey row.id)

/-- Once no call is in flight and the tombstones are released, a team is charged for what it stores. -/
def StorageCharged (config : Config Shared Handler) : Prop :=
  config.inflight = [] → Released config.shared → ∀ team, storageEvents setting config.shared team = storedMb config.shared team

def Spent (s : Shared) (row : Artifact) : Prop := row.deletedAt ≠ none ∧ s.ledger.recorded (releaseKey row.id)

def Input.succeeds (input : Input) : Prop := input.fails = false ∧ input.crashes = false

def stillTombstone (s : Shared) (swept : Swept) : Bool :=
  (s.artifacts.find swept.artifact.id).any fun row =>
    row.deletedAt ≠ none ∧ row.sizeBytes = swept.artifact.sizeBytes ∧ row.deploymentId = swept.artifact.deploymentId

/-- An upload is committed over no row or a released tombstone, no row that was released before is marked,
what is released is a tombstone, and a project is deleted with released tombstones only. -/
def Orderly (input : Input) (s : Shared) : Handler → Prop
  | .commit pending id exists' => input.succeeds → written setting s pending id exists' ≠ none →
      ∀ row ∈ s.artifacts.rows, row.deploymentId = pending.deployment.id → Spent s row
  | .mark swept _ => input.succeeds → swept.artifact.deletedAt = none → .artifact swept.artifact.id ∉ s.locks →
      ∀ row ∈ s.artifacts.rows, row.id = swept.artifact.id → row.deletedAt = none → ¬s.ledger.recorded (releaseKey row.id)
  | .release swept _ => input.succeeds → 0 < rowMb swept.artifact → ¬s.ledger.recorded (releaseKey swept.artifact.id) →
      stillTombstone s swept
  | .deleteRows projectId => input.succeeds → inUse s projectId = false →
      ∀ row ∈ s.artifacts.rows, ofProject s projectId row.deploymentId = true → Spent s row
  | _ => True

instance (input : Input) : Decidable input.succeeds := inferInstanceAs (Decidable (_ ∧ _))

instance (s : Shared) (row : Artifact) : Decidable (Spent s row) := inferInstanceAs (Decidable (_ ∧ _))

instance (input : Input) (s : Shared) (handler : Handler) : Decidable (Orderly setting input s handler) := by
  unfold Orderly
  split
  · infer_instance
  · exact @forall_prop_decidable _ _ inferInstance fun _ => inferInstance
  · infer_instance
  · infer_instance
  · infer_instance

def heldMb (s : Shared) (team : Uuid) (row : Artifact) : Int := if ¬Spent s row ∧ ofTeam s team row then rowMb row else 0

def uncharged (s : Shared) (team : Uuid) : Int := s.artifacts.total (heldMb s team) - storageEvents setting s team

def Handler.owes (team : Uuid) : Handler → Int
  | .charge pending _ => if pending.deployment.teamId = team then sizeMb pending.upload.packedSizeBytes else 0
  | _ => 0

def Complete (handler : Handler) : Prop := ∀ pending ∈ handler.received, pending.upload.complete setting

end Definitions

section Steps
variable {setting : Setting} {start : Shared} {input : Input} {s s' : Shared} {handler other : Handler} {remaining : Option Handler}

theorem owes_charge (pending : Pending) (id team : Uuid) : Handler.owes team (.charge pending id) =
    if pending.deployment.teamId = team then sizeMb pending.upload.packedSizeBytes else 0 := rfl

theorem owes_uncharged (team : Uuid) (uncharged : handler.charges = false) : handler.owes team = 0 := by
  cases handler with
  | charge => cases uncharged
  | _ => rfl

theorem proceed_owes (team : Uuid) (list : List Swept) : rest (Handler.owes team) (proceed list) = 0 := by
  cases list <;> rfl

theorem Upload.complete_size {upload : Upload} (complete : upload.complete setting) :
    (upload.bytes.length : Int) = upload.packedSizeBytes := by
  unfold Upload.complete at complete
  obtain ⟨_,same,_⟩ := of_decide_eq_true complete
  exact congrArg Int.ofNat same

theorem acts_complete (acts : Acts setting input s handler s' remaining) (complete : Complete setting handler) :
    ∀ next, remaining = some next → Complete setting next := by
  intro next goes
  have proceeds : ∀ list, proceed list = some next → Complete setting next := by
    intro list same
    cases list with
    | nil => cases same
    | cons swept others =>
      cases same
      exact nofun
  cases acts with
  | waits =>
    cases goes
    exact complete
  | gives | ends | stops | replacedOnly | refused | charged | softDeleted | deleted => cases goes
  | goes handler next same =>
    cases goes
    exact fun pending member => complete pending (same.received pending member)
  | owned =>
    cases goes
    exact nofun
  | received pending whole =>
    cases goes
    rintro upload ⟨⟩
    exact whole
  | listed | removed | kept => exact proceeds _ goes
  | marked | released =>
    cases goes
    exact nofun
  | _ =>
    cases goes
    exact complete

theorem heldMb_stored {pending : Pending} {team : Uuid} (locked : s.deployments.find pending.deployment.id = some pending.deployment)
    {row : Artifact} (owner : row.deploymentId = pending.deployment.id) : heldMb s team (stored setting pending row) =
      if pending.deployment.teamId = team then sizeMb pending.upload.bytes.length else 0 := by
  have live : ¬Spent s (stored setting pending row) := fun spent => spent.1 rfl
  have same : ofTeam s team (stored setting pending row) = decide (pending.deployment.teamId = team) := by
    unfold ofTeam
    change (s.deployments.find row.deploymentId).any _ = _
    rw [owner,locked]
    rfl
  unfold heldMb
  rw [same]
  simp only [live,not_false_eq_true,true_and,decide_eq_true_eq]
  rfl

theorem heldMb_same {team : Uuid} {row next : Artifact} (spent : Spent s' next ↔ Spent s row) (mine : ofTeam s' team next = ofTeam s team row)
    (size : rowMb next = rowMb row) : heldMb s' team next = heldMb s team row := by
  unfold heldMb
  rw [mine,size]
  exact if_congr (by rw [spent]) rfl rfl

theorem heldMb_spent {team : Uuid} {row : Artifact} (spent : Spent s row) : heldMb s team row = 0 := if_neg fun both => both.1 spent

theorem total_written (team : Uuid) {pending : Pending} {id : Uuid} {exists' : Bool} {artifacts : Artifacts}
    (relies : Relies start s (.commit pending id exists')) (writes : written setting s pending id exists' = some artifacts)
    (spent : ∀ row ∈ s.artifacts.rows, row.deploymentId = pending.deployment.id → Spent s row) :
    artifacts.total (heldMb s team) = s.artifacts.total (heldMb s team) +
      if pending.deployment.teamId = team then sizeMb pending.upload.bytes.length else 0 := by
  have locked := relies.locked pending rfl
  unfold written at writes
  cases exists' with
  | false =>
    rw [if_neg Bool.false_ne_true] at writes
    rw [Table.total_insert writes,heldMb_stored locked rfl]
  | true =>
    rw [if_pos rfl] at writes
    obtain ⟨_,_,updated⟩ := Option.bind_eq_some_iff.mp writes
    obtain ⟨target,found,owner⟩ := relies.target pending rfl id rfl
    have reached : artifacts.find id = some (stored setting pending target) := by
      rw [Table.find_update updated,if_pos rfl,found]
      rfl
    have evolves : Table.Evolves _ (fun _ => False) s.artifacts artifacts := Table.evolves_update updated
    have moved := evolves.total_one (f := heldMb s team) found reached
      (fun old _ new different becomes => by rw [becomes,if_neg different]) (fun _ impossible => impossible.elim)
    rw [heldMb_spent (spent target (Table.find_mem found) owner),add_zero,heldMb_stored locked owner] at moved
    exact moved

theorem total_marked (team : Uuid) {id : Uuid} {artifacts : Artifacts}
    (updated : s.artifacts.updateWhere (fun row => row.id = id) (setting.tombstone input.now) (setting.tombstone_id input.now) = some artifacts)
    (fresh : ∀ row ∈ s.artifacts.rows, row.id = id → row.deletedAt = none → ¬s.ledger.recorded (releaseKey row.id)) :
    artifacts.total (heldMb s team) = s.artifacts.total (heldMb s team) := by
  have evolves : Table.Evolves _ (fun _ => False) s.artifacts artifacts := Table.evolves_updateWhere updated
  refine evolves.total_eq ?_ fun _ impossible => impossible.elim
  rintro row member _ rfl
  split
  · rename_i chosen
    rcases setting.tombstones input.now row with same | marked
    · rw [same]
    · have spent : Spent s { row with deletedAt := some input.now } ↔ Spent s row := by
        constructor
        · intro spent
          refine ⟨fun live => fresh row member chosen live spent.2,spent.2⟩
        · exact fun spent => ⟨nofun,spent.2⟩
      rw [marked]
      exact heldMb_same spent rfl rfl
  · rfl

theorem total_deletedRows (team : Uuid) {projectId : Uuid} (sound : Sound start s)
    (spent : ∀ row ∈ s.artifacts.rows, ofProject s projectId row.deploymentId = true → Spent s row) :
    (deletedRows s projectId).artifacts.total (heldMb (deletedRows s projectId) team) = s.artifacts.total (heldMb s team) := by
  have removed : (deletedRows s projectId).artifacts.total (heldMb s team) = s.artifacts.total (heldMb s team) :=
    s.artifacts.total_deleteWhere fun row member chosen => heldMb_spent (spent row member chosen)
  rw [← removed]
  apply Table.total_congr
  intro row member
  obtain ⟨inside,kept⟩ := List.mem_filter.mp member
  obtain ⟨deployment,owner,_⟩ := sound.owned row inside
  have kept := of_decide_eq_true kept
  dsimp only at kept
  rw [ofProject_eq owner] at kept
  have still : (deletedRows s projectId).deployments.find row.deploymentId = some deployment :=
    (Table.find_deleteWhere _ _).mpr ⟨owner,by simpa using kept⟩
  have same : ofTeam (deletedRows s projectId) team row = ofTeam s team row := by
    unfold ofTeam
    rw [still,owner]
  exact heldMb_same Iff.rfl same rfl

theorem storageEvents_recorded (setting : Setting) {ledger : Ledger} {event : QuotaEvent} (events : ledger.events = s.ledger.events ++ [event])
    (storage : event.dimension = .storageMb) (counts : event.kind.counts) (team : Uuid) :
    ledger.total setting.calendar ⟨team,.storageMb,none⟩ = storageEvents setting s team + if event.teamId = team then event.deltaValue else 0 := by
  have same : ledger.total setting.calendar ⟨team,.storageMb,none⟩ = (s.ledger.insertEvent event).total setting.calendar ⟨team,.storageMb,none⟩ :=
    total_of_events events
  have window : event.window setting.calendar = ⟨event.teamId,.storageMb,none⟩ := by
    unfold QuotaEvent.window windowAt
    rw [storage]
    rfl
  rw [same,total_insertEvent,window]
  unfold storageEvents
  congr 1
  by_cases mine : event.teamId = team
  · rw [if_pos mine,if_pos ⟨counts,by rw [mine]⟩]
  · rw [if_neg mine,if_neg fun both => mine (congrArg Window.teamId both.2).symm]

theorem charged_events (setting : Setting) (params : RecordEventParams) (now : Timestamp) (ledger : Ledger) (counts : params.kind.counts) :
    (charged setting ledger params now).events = ledger.events ++ [params.event none now] := by
  obtain ⟨after,recorded,_⟩ := @recordEvent_used ledger setting.calendar params now counts
  unfold charged
  rw [recorded]
  exact recordEvent_events recorded

theorem releasedOnce_events (setting : Setting) (key : IdempotencyKey) (params : RecordEventParams) (now : Timestamp) (ledger : Ledger) :
    (releasedOnce setting ledger key params now).events =
      if ledger.recorded key then ledger.events else ledger.events ++ [params.event (some key) now] := by
  unfold releasedOnce
  by_cases known : ledger.recorded key
  · rw [if_pos known,recordEventOnce_known known]
    rfl
  · obtain ⟨fresh,after,recorded⟩ := @recordEventOnce_some ledger setting.calendar key params now
    rw [if_neg known,recorded]
    exact recordEventOnce_events known recorded

theorem recorded_append {ledger : Ledger} {event : QuotaEvent} (events : ledger.events = s.ledger.events ++ [event]) (key : IdempotencyKey) :
    ledger.recorded key ↔ s.ledger.recorded key ∨ event.idempotencyKey = some key := by
  unfold Ledger.recorded
  rw [events,List.any_append,Bool.or_eq_true]
  simp

theorem Swept.Known.ofTeam {swept : Swept} (known : swept.Known start) (sound : Sound start s) {row : Artifact} (member : row ∈ s.artifacts.rows)
    (owner : row.deploymentId = swept.artifact.deploymentId) (team : Uuid) : ArtifactStore.ofTeam s team row = decide (swept.teamId = team) := by
  obtain ⟨deployment,inside,id,sameTeam,_⟩ := known
  obtain ⟨found,there,_⟩ := sound.owned row member
  have same := sound.same there inside (id.trans owner.symm)
  unfold ArtifactStore.ofTeam
  rw [there,same,← sameTeam]
  rfl

theorem total_released (team : Uuid) {ledger : Ledger} {event : QuotaEvent} (events : ledger.events = s.ledger.events ++ [event]) {row : Artifact}
    (key : event.idempotencyKey = some (releaseKey row.id)) (member : row ∈ s.artifacts.rows) (marked : row.deletedAt ≠ none)
    (fresh : ¬s.ledger.recorded (releaseKey row.id)) :
    s.artifacts.total (heldMb { s with ledger } team) + (if ofTeam s team row then rowMb row else 0) = s.artifacts.total (heldMb s team) := by
  have others : ∀ other ∈ s.artifacts.rows, other ≠ row → heldMb { s with ledger } team other = heldMb s team other := by
    intro other inside different
    refine heldMb_same ?_ rfl rfl
    unfold Spent
    rw [recorded_append events,key]
    have apart : some (releaseKey row.id) ≠ some (releaseKey other.id) := by
      intro same
      injection Option.some.inj same with _ id
      exact different (s.artifacts.same_of_key inside member id.symm)
    simp only [apart,or_false]
  have before : heldMb s team row = if ofTeam s team row then rowMb row else 0 := by
    unfold heldMb
    simp only [show ¬Spent s row from fun spent => fresh spent.2,not_false_eq_true,true_and]
  have after : heldMb { s with ledger } team row = 0 :=
    heldMb_spent ⟨marked,(recorded_append events _).mpr (.inr key)⟩
  have moved := Table.sum_map_one s.artifacts.nodup_rows member others
  rw [before,after,add_zero] at moved
  exact moved

theorem total_of_recorded {ledger : Ledger} (same : ∀ id, ledger.recorded (releaseKey id) ↔ s.ledger.recorded (releaseKey id)) (team : Uuid) :
    s.artifacts.total (heldMb { s with ledger } team) = s.artifacts.total (heldMb s team) := by
  apply Table.total_congr
  intro row _
  refine heldMb_same ?_ rfl rfl
  unfold Spent
  rw [same row.id]

theorem uncharged_of_events {ledger : Ledger} (events : ledger.events = s.ledger.events) (team : Uuid) :
    uncharged setting { s with ledger } team = uncharged setting s team := by
  have rows : s.artifacts.total (heldMb { s with ledger } team) = s.artifacts.total (heldMb s team) := by
    apply total_of_recorded
    intro id
    unfold Ledger.recorded
    rw [events]
  have total : storageEvents setting { s with ledger } team = storageEvents setting s team := total_of_events events
  unfold uncharged
  rw [total]
  exact congrArg (fun sum => sum - storageEvents setting s team) rows

theorem uncharged_released (team : Uuid) (swept : Swept) (known : swept.Known start) (sound : Sound start s)
    (still : 0 < rowMb swept.artifact → ¬s.ledger.recorded (releaseKey swept.artifact.id) → stillTombstone s swept) (now : Timestamp) :
    uncharged setting { s with ledger := releasing setting s.ledger swept now } team = uncharged setting s team := by
  unfold releasing
  cases size : swept.artifact.sizeBytes with
  | none => rfl
  | some sizeBytes =>
    dsimp only
    by_cases large : 0 < sizeMb sizeBytes
    · rw [if_pos large]
      have amount : rowMb swept.artifact = sizeMb sizeBytes := by
        unfold rowMb
        rw [size]
        rfl
      have events := releasedOnce_events setting (releaseKey swept.artifact.id) (releaseParams swept sizeBytes) now s.ledger
      generalize releasedOnce setting s.ledger (releaseKey swept.artifact.id) (releaseParams swept sizeBytes) now = ledger at events ⊢
      by_cases released : s.ledger.recorded (releaseKey swept.artifact.id)
      · rw [if_pos released] at events
        exact uncharged_of_events events team
      · rw [if_neg released] at events
        obtain ⟨row,found,there⟩ := (Option.any_eq_true _ _).mp (still (amount ▸ large) released)
        obtain ⟨marked,same,owner⟩ := of_decide_eq_true there
        have member := Table.find_mem found
        have id := Table.find_key found
        rw [← id] at released
        have rows := total_released team events (congrArg (fun id => some (releaseKey id)) id.symm) member marked released
        have rowSize : rowMb row = sizeMb sizeBytes := by
          unfold rowMb
          rw [same,size]
          rfl
        have spent := storageEvents_recorded setting events rfl rfl team
        rw [known.ofTeam sound member owner,rowSize] at rows
        unfold uncharged
        change s.artifacts.total (heldMb { s with ledger } team) - ledger.total setting.calendar ⟨team,.storageMb,none⟩ = _
        rw [spent,← rows]
        change _ - (_ + if swept.teamId = team then -sizeMb sizeBytes else 0) = _
        by_cases mine : swept.teamId = team
        · simp only [mine,decide_true,if_true]
          omega
        · simp only [mine,decide_false,if_false,Bool.false_eq_true]
          omega
    · rw [if_neg large]

/-- What the rows are charged with and the events do not show is what uploads are about to charge. -/
theorem act_uncharged (acts : Acts setting input s handler s' remaining) (orderly : Orderly setting input s handler) (sound : Sound start s)
    (relies : Relies start s handler) (complete : Complete setting handler) (team : Uuid) :
    uncharged setting s' team + handler.owes team = uncharged setting s team + rest (Handler.owes team) remaining := by
  cases acts with
  | waits => rfl
  | gives handler _ uncharged | ends handler _ uncharged | stops handler _ uncharged =>
    rw [owes_uncharged team uncharged]
    rfl
  | goes handler next goes => rw [rest_some,owes_uncharged team goes.uncharged.1,owes_uncharged team goes.uncharged.2]
  | committed pending id exists' artifacts writes succeeds =>
    have some' : written setting s pending id exists' ≠ none := by
      rw [writes]
      exact Option.some_ne_none _
    have total := total_written team relies writes (orderly succeeds some')
    have size := Upload.complete_size (complete pending rfl)
    rw [size] at total
    change artifacts.total (heldMb s team) - storageEvents setting s team + 0 = s.artifacts.total (heldMb s team) - storageEvents setting s team + _
    rw [total,rest_some,owes_charge]
    omega
  | charged pending id =>
    have events := charged_events setting (chargeParams pending id) input.now s.ledger rfl
    have total := storageEvents_recorded setting events rfl rfl team
    have rows : s.artifacts.total (heldMb { s with ledger := charged setting s.ledger (chargeParams pending id) input.now } team) = _ :=
      total_of_recorded (fun id => (recorded_append events _).trans (or_iff_left nofun)) team
    rw [owes_charge,rest_none]
    unfold uncharged
    rw [rows]
    change _ - Ledger.total _ _ _ + _ = _
    rw [total]
    change _ - (_ + if pending.deployment.teamId = team then sizeMb pending.upload.packedSizeBytes else 0) + _ = _
    omega
  | listed =>
    rw [proceed_owes]
    rfl
  | marked swept others artifacts live free succeeds updated =>
    have total := total_marked team updated (orderly succeeds live free)
    rw [rest_some]
    exact congrArg (fun sum => sum - storageEvents setting s team + 0) total
  | released swept others succeeds =>
    rw [uncharged_released team swept (relies.swept swept List.mem_cons_self) sound (orderly succeeds)]
    rfl
  | removed swept others =>
    rw [proceed_owes]
    rfl
  | kept swept others =>
    rw [proceed_owes]
    rfl
  | deleted projectId free succeeds =>
    have total := total_deletedRows team sound (orderly succeeds free)
    exact congrArg (fun sum => sum - storageEvents setting s team + 0) total
  | _ => rfl

end Steps

section Runs
variable (setting : Setting) (start : Shared)

structure Accounted (config : Config Shared Handler) : Prop where
  holds : Holds (Sound start) (fun s handler => Relies start s handler ∧ Complete setting handler) config
  guarded : Guarded Handler.guards Shared.locks config
  balanced : ∀ team, owed (Handler.owes team) config = uncharged setting config.shared team

variable {setting start}

theorem total_of_released {s : Shared} (released : Released s) (team : Uuid) : s.artifacts.total (heldMb s team) = storedMb s team := by
  apply Table.total_congr
  intro row member
  refine if_congr (and_congr_left fun _ => ?_) rfl rfl
  constructor
  · intro unspent
    by_contra marked
    exact unspent ⟨marked,released row member marked⟩
  · exact fun live spent => spent.1 live

theorem Accounted.storageCharged {config : Config Shared Handler} (accounted : Accounted setting start config) :
    StorageCharged setting config := by
  intro idle released team
  have balanced := accounted.balanced team
  have nothing : owed (Handler.owes team) config = 0 := by
    unfold owed
    rw [idle]
    rfl
  rw [nothing] at balanced
  unfold uncharged at balanced
  rw [total_of_released released team] at balanced
  omega

theorem Accounted.step {config : Config Shared Handler} (accounted : Accounted setting start config) (event : Event Request Input)
    (orderly : Acting (Orderly setting) config event) : Accounted setting start ((machine setting).step config event) := by
  constructor
  · refine Holds.step_apart ?_ ?_ ?_ config event accounted.holds (accounted.guarded.acting_apart event orderly)
    · intro s request _
      cases request <;> exact ⟨⟨nofun,nofun,nofun,nofun⟩,nofun⟩
    · intro input s handler _ sound relies
      have acts := @act_acts setting input s handler
      refine ⟨acts_sound acts sound relies.1,fun next goes => ?_⟩
      exact ⟨acts_relies acts sound relies.1 next goes,acts_complete acts relies.2 next goes⟩
    · intro input s handler other _ apart sound relies relied
      exact ⟨Relies.apart (@act_acts setting input s handler) apart relied.1,relied.2⟩
  · refine Guarded.step_locking ?_ (fun input s handler held => act_locking held (@act_acts setting input s handler)) event accounted.guarded
    intro request
    cases request <;> rfl
  · intro team
    cases event with
    | arrive request =>
      rw [owed_arrive]
      have nothing : Handler.owes team (enter request) = 0 := by
        cases request <;> rfl
      change _ + Handler.owes team (enter request) = _
      rw [nothing,add_zero]
      exact accounted.balanced team
    | resume index input =>
      cases found : config.inflight[index]? with
      | none =>
        simp only [Machine.step,found]
        exact accounted.balanced team
      | some handler =>
        have relies := accounted.holds.handlers handler (List.mem_of_getElem? found)
        apply balanced_resume (machine setting) (Handler.owes team) (fun s => uncharged setting s team) input found (accounted.balanced team)
        exact act_uncharged (@act_acts setting input config.shared handler) (orderly handler found) accounted.holds.state relies.1 relies.2 team

end Runs

theorem storage_charged_as_stored (setting : Setting) (projects : Projects) (deployments : Deployments)
    (events : List (Event Request Input)) (orderly : Along (machine setting).step (Acting (Orderly setting)) (idle projects deployments) events) :
    Throughout (machine setting).step (StorageCharged setting) (idle projects deployments) events := by
  have start : Accounted setting { projects, deployments } (idle projects deployments) := by
    refine ⟨⟨⟨fun row member => member,?_⟩,?_⟩,⟨rfl,Multiset.nodup_zero⟩,fun _ => rfl⟩
    · exact fun row member => absurd member List.not_mem_nil
    · exact fun handler member => absurd member List.not_mem_nil
  exact throughout_of_invariant (fun config event accounted orderly => accounted.step event orderly)
    (fun config accounted => accounted.storageCharged) _ events start orderly

section Examples

/-- A second upload of a deployment is charged once more, and its row replaces the first. -/
theorem upload_charged_again :
    let events := .arrive (uploading [1] "one") :: steps 11 ++ .arrive (uploading [1,2] "other") :: steps 11
    let final := run (machine counting).step (idle oneProject built) events
    ¬Throughout (machine counting).step (StorageCharged counting) (idle oneProject built) events ∧ final.inflight = [] ∧
      (final.shared.artifacts.rows.map fun row => (row.sizeBytes,row.deletedAt)) = [(some 2,none)] ∧
      storageEvents counting final.shared 2 = 2 ∧ storedMb final.shared 2 = 1 := by
  refine ⟨fun charged => ?_,by decide,by decide,by decide,by decide⟩
  have last := charged.last (by decide) (by unfold Released; decide) 2
  revert last
  decide

/-- The tombstone of an upload is released at a second attempt, and another upload is stored in its place. -/
theorem storage_charged_over_sweeps : Throughout (machine counting).step (StorageCharged counting) (idle oneProject built)
    (.arrive (uploading [1] "one") :: steps 11 ++ .arrive .sweep :: .resume 0 { now := 3, expired := [0] } :: .resume 0 { now := 3 } ::
      .resume 0 { now := 3, fails := true } :: .resume 0 { now := 3 } :: .arrive .sweep :: steps 4 ++
      .arrive (uploading [1,2] "other") :: steps 11) := by
  apply storage_charged_as_stored
  decide

end Examples

end GrassWorker.ArtifactStore
