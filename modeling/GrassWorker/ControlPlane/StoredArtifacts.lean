import GrassWorker.ControlPlane.ArtifactCalls

/-! A stored artifact is what its row says. The object is replaced before the row is
committed, and a sweep removes it by its path, so that either may leave bytes and row apart. -/
namespace GrassWorker.ArtifactStore
open Interleaving Runs

section Definitions
variable (setting : Setting)

def Matches (s : Shared) (row : Artifact) : Prop :=
  match s.objects row.storagePath with
  | some bytes => row.checksumSha256 = some (setting.sha256 bytes) ∧ row.sizeBytes = some (bytes.length : Int)
  | none => False

instance (s : Shared) (row : Artifact) : Decidable (Matches setting s row) := by
  unfold Matches
  split
  · infer_instance
  · infer_instance

def StoredAsRecorded (config : Config Shared Handler) : Prop :=
  config.inflight = [] → ∀ row ∈ config.shared.artifacts.rows, row.deletedAt = none → Matches setting config.shared row

/-- No live row of the deployment says anything else than what the upload has stored. -/
def Fits (s : Shared) (pending : Pending) : Prop :=
  ∀ row ∈ s.artifacts.rows, row.deploymentId = pending.deployment.id → row.deletedAt = none →
    row.checksumSha256 = some (setting.sha256 pending.upload.bytes) ∧ row.sizeBytes = some (pending.upload.bytes.length : Int)

/-- An upload ends after it has replaced the object and before its row is committed. -/
def givesUp (input : Input) (s : Shared) : Handler → Bool
  | .finalize _ => input.fails && input.replaces && !input.crashes
  | .findExisting _ | .writeRow _ _ | .audit _ _ _ => input.crashes || input.fails
  | .commit pending id exists' => input.crashes || input.fails || (written setting s pending id exists').isNone
  | _ => false

def removes (input : Input) : Handler → Option ObjectKey
  | .remove swept _ => if input.fails || input.crashes then none else some swept.artifact.storagePath
  | _ => none

/-- No upload leaves another object to a live row, and no sweep removes the object of one. -/
structure Keeps (input : Input) (s : Shared) (handler : Handler) : Prop where
  uploads : givesUp setting input s handler = true → ∀ pending ∈ handler.locked, Fits setting s pending
  sweeps : ∀ key ∈ removes input handler, ∀ row ∈ s.artifacts.rows, row.storagePath = key → row.deletedAt ≠ none

/-- No sweep removes the object that an upload has put there and not committed yet. -/
def Undisturbed (input : Input) (_ : Shared) (handler other : Handler) : Prop :=
  ∀ key ∈ removes input handler, ∀ pending ∈ other.replaced, pending.key ≠ key

instance (s : Shared) (pending : Pending) : Decidable (Fits setting s pending) :=
  inferInstanceAs (Decidable (∀ row ∈ s.artifacts.rows, _ → _ → _))

instance (input : Input) (s : Shared) (handler : Handler) : Decidable (Keeps setting input s handler) :=
  decidable_of_iff ((givesUp setting input s handler = true → ∀ pending ∈ handler.locked, Fits setting s pending) ∧
    ∀ key ∈ removes input handler, ∀ row ∈ s.artifacts.rows, row.storagePath = key → row.deletedAt ≠ none)
    ⟨fun both => ⟨both.1,both.2⟩,fun keeps => ⟨keeps.uploads,keeps.sweeps⟩⟩

instance (input : Input) (s : Shared) (handler other : Handler) : Decidable (Undisturbed input s handler other) :=
  inferInstanceAs (Decidable (∀ key ∈ removes input handler, ∀ pending ∈ other.replaced, pending.key ≠ key))

/-- The upload that has locked its deployment and not replaced the object yet. -/
def Handler.waiting (handler : Handler) : Option Pending :=
  match handler.replaced with
  | some _ => none
  | none => handler.locked

def Recorded (s : Shared) : Prop :=
  ∀ row ∈ s.artifacts.rows, row.deletedAt = none → .deployment row.deploymentId ∉ s.locks → Matches setting s row

structure Stores (s : Shared) (handler : Handler) : Prop where
  replaced : ∀ pending ∈ handler.replaced, s.objects pending.key = some pending.upload.bytes
  waiting : ∀ pending ∈ handler.waiting, ∀ row ∈ s.artifacts.rows, row.deploymentId = pending.deployment.id →
    row.deletedAt = none → Matches setting s row

end Definitions

section Steps
variable {setting : Setting} {start : Shared} {input : Input} {s s' : Shared} {handler other : Handler} {remaining : Option Handler}

theorem matches_of_object {row : Artifact} {bytes : Bytes} (object : s.objects row.storagePath = some bytes)
    (checksum : row.checksumSha256 = some (setting.sha256 bytes)) (size : row.sizeBytes = some (bytes.length : Int)) :
    Matches setting s row := by
  unfold Matches
  rw [object]
  exact ⟨checksum,size⟩

theorem Matches.same {row : Artifact} (recorded : Matches setting s row) (same : s'.objects row.storagePath = s.objects row.storagePath) :
    Matches setting s' row := by
  unfold Matches
  rw [same]
  exact recorded

theorem setObject_other (objects : ObjectKey → Option Bytes) {key other : ObjectKey} (value : Option Bytes) (different : other ≠ key) :
    setObject objects key value other = objects other := if_neg different

theorem setObject_same (objects : ObjectKey → Option Bytes) (key : ObjectKey) (value : Option Bytes) :
    setObject objects key value key = value := if_pos rfl

theorem locked_of_replaced {pending : Pending} (replaced : handler.replaced = some pending) : handler.locked = some pending := by
  cases handler with
  | findExisting | writeRow | audit | commit => exact replaced
  | _ => cases replaced

theorem deployment_guards {id : Uuid} (member : Lock.deployment id ∈ handler.guards) :
    ∃ pending, handler.locked = some pending ∧ pending.deployment.id = id := by
  have ofLocks : ∀ pending : Pending, Lock.deployment id ∈ pending.locks → pending.deployment.id = id := by
    intro pending inside
    simp only [Pending.locks,Multiset.insert_eq_cons,Multiset.mem_cons,Multiset.mem_singleton,Lock.deployment.injEq,reduceCtorEq,
      or_false] at inside
    exact inside.symm
  cases handler with
  | check pending => cases Multiset.mem_singleton.mp member
  | finalize pending => exact ⟨pending,rfl,ofLocks pending member⟩
  | findExisting pending => exact ⟨pending,rfl,ofLocks pending member⟩
  | writeRow pending existing => exact ⟨pending,rfl,ofLocks pending member⟩
  | audit pending id' exists' =>
    exact ⟨pending,rfl,ofLocks pending ((Multiset.mem_cons.mp member).resolve_left (by simp))⟩
  | commit pending id' exists' =>
    exact ⟨pending,rfl,ofLocks pending ((Multiset.mem_cons.mp member).resolve_left (by simp))⟩
  | _ => exact absurd member (Multiset.notMem_zero _)

theorem free_before {lock : Lock} {mine : Multiset Lock} (free : lock ∉ s.locks - mine) : lock ∈ mine ∨ lock ∉ s.locks := by
  by_cases own : lock ∈ mine
  · exact .inl own
  · right
    intro taken
    apply free
    rw [← Multiset.count_pos,Multiset.count_sub,Multiset.count_eq_zero_of_notMem own,Nat.sub_zero,Multiset.count_pos]
    exact taken

theorem path_of_locked (sound : Sound start s) (relies : Relies start s handler) {pending : Pending} (locked : handler.locked = some pending)
    {row : Artifact} (member : row ∈ s.artifacts.rows) : row.storagePath = pending.key ↔ row.deploymentId = pending.deployment.id := by
  obtain ⟨deployment,found,path⟩ := sound.owned row member
  constructor
  · intro same
    rw [path] at same
    have ids := congrArg ObjectKey.deploymentId same
    exact (Table.find_key found).symm.trans ids
  · intro same
    rw [same,relies.locked pending locked] at found
    obtain rfl := Option.some.inj found
    exact path

theorem written_rows {pending : Pending} {id : Uuid} {exists' : Bool} (relies : Relies start s (.commit pending id exists')) {artifacts : Artifacts}
    (writes : written setting s pending id exists' = some artifacts) : ∀ row ∈ artifacts.rows,
      (∃ old, row = stored setting pending old) ∨ (row ∈ s.artifacts.rows ∧ row.deploymentId ≠ pending.deployment.id) := by
  have last : ∃ old, stored setting pending old ∈ artifacts.rows ∧ old.deploymentId = pending.deployment.id ∧
      ∀ row ∈ artifacts.rows, row = stored setting pending old ∨ row ∈ s.artifacts.rows := by
    unfold written at writes
    cases exists' with
    | false =>
      rw [if_neg Bool.false_ne_true] at writes
      refine ⟨newArtifact pending id,?_,rfl,fun row member => ?_⟩
      · rw [Table.rows_insert writes]
        exact List.mem_append_right _ (List.mem_singleton_self _)
      · rw [Table.rows_insert writes] at member
        rcases List.mem_append.mp member with old | new
        · exact .inr old
        · exact .inl (List.mem_singleton.mp new)
    | true =>
      rw [if_pos rfl] at writes
      obtain ⟨_,_,updated⟩ := Option.bind_eq_some_iff.mp writes
      obtain ⟨target,found,same⟩ := relies.target pending rfl id rfl
      refine ⟨target,?_,same,fun row member => ?_⟩
      · have reached : artifacts.find id = some (stored setting pending target) := by
          rw [Table.find_update updated,if_pos rfl,found]
          rfl
        exact Table.find_mem reached
      · rw [Table.rows_update updated] at member
        obtain ⟨old,inside,rfl⟩ := List.mem_map.mp member
        split
        · rename_i chosen
          have again := Table.find_of_mem inside
          rw [chosen,found] at again
          rw [Option.some.inj again]
          exact .inl rfl
        · exact .inr inside
  obtain ⟨old,inside,owner,rows⟩ := last
  intro row member
  rcases rows row member with new | before
  · exact .inl ⟨old,new⟩
  · by_cases same : row.deploymentId = pending.deployment.id
    · have shared : row = stored setting pending old := by
        apply @Table.same_of_entry _ _ _ _ _ artifacts _ _ pending.deployment.id member inside
        · rw [same]
          exact List.mem_singleton_self _
        · change pending.deployment.id ∈ [old.deploymentId]
          rw [owner]
          exact List.mem_singleton_self _
      exact .inl ⟨old,shared⟩
    · exact .inr ⟨before,same⟩

theorem marked_live {artifacts : Artifacts} {id : Uuid}
    (updated : s.artifacts.updateWhere (fun row => row.id = id) (setting.tombstone input.now) (setting.tombstone_id input.now) = some artifacts)
    {row : Artifact} (member : row ∈ artifacts.rows) (live : row.deletedAt = none) : row ∈ s.artifacts.rows := by
  rw [Table.rows_updateWhere updated] at member
  obtain ⟨old,inside,rfl⟩ := List.mem_map.mp member
  split
  · rename_i chosen
    rw [if_pos chosen] at live
    rcases setting.tombstones input.now old with same | marked
    · rw [same]
      exact inside
    · rw [marked] at live
      cases live
  · exact inside

theorem recorded_left (recorded : Recorded setting s)
    (own : ∀ row ∈ s.artifacts.rows, row.deletedAt = none → .deployment row.deploymentId ∈ handler.guards → Matches setting s row) :
    Recorded setting (s.leave handler) := by
  intro row member live free
  have matching : Matches setting s row := by
    rcases free_before free with mine | before
    · exact own row member live mine
    · exact recorded row member live before
  exact matching.same rfl

/-- What an upload leaves behind is what the rows say, if it has not replaced the object or fits them. -/
theorem given_up (sound : Sound start s) (relies : Relies start s handler) (stores : Stores setting s handler)
    (fits : ∀ pending ∈ handler.replaced, Fits setting s pending) :
    ∀ row ∈ s.artifacts.rows, row.deletedAt = none → .deployment row.deploymentId ∈ handler.guards → Matches setting s row := by
  intro row member live mine
  obtain ⟨pending,locked,same⟩ := deployment_guards mine
  cases replaced : handler.replaced with
  | none =>
    have waiting : handler.waiting = some pending := by
      unfold Handler.waiting
      rw [replaced]
      exact locked
    exact stores.waiting pending waiting row member same.symm live
  | some upload =>
    have here := locked_of_replaced replaced
    rw [locked] at here
    obtain rfl := Option.some.inj here
    obtain ⟨checksum,size⟩ := fits pending replaced row member same.symm live
    apply matches_of_object _ checksum size
    rw [(path_of_locked sound relies locked member).mpr same.symm]
    exact stores.replaced pending replaced

theorem matches_replaced (sound : Sound start s) (relies : Relies start s handler) {pending : Pending} (locked : handler.locked = some pending)
    {row : Artifact} (member : row ∈ s.artifacts.rows) (elsewhere : row.deploymentId ≠ pending.deployment.id)
    (matching : Matches setting s row) (same : s'.objects = setObject s.objects pending.key (some pending.upload.bytes)) : Matches setting s' row := by
  apply matching.same
  rw [same]
  apply setObject_other
  intro path
  exact elsewhere ((path_of_locked sound relies locked member).mp path)

theorem acts_recorded (acts : Acts setting input s handler s' remaining) (keeps : Keeps setting input s handler)
    (held : handler.guards ≤ s.locks) (sound : Sound start s) (relies : Relies start s handler) (recorded : Recorded setting s)
    (stores : Stores setting s handler) : Recorded setting s' := by
  have others : ∀ pending, handler.locked = some pending → ∀ row ∈ s.artifacts.rows, .deployment row.deploymentId ∉ s.locks →
      row.deploymentId ≠ pending.deployment.id := by
    intro pending locked row _ free same
    rw [same] at free
    exact free (Multiset.mem_of_le held (Multiset.mem_of_le (Handler.locked_guards locked) pending.mem_locks.1))
  cases acts with
  | waits | stops | goes | owned | received | found | drawn | listed | charged | released | kept | softDeleted => exact recorded
  | gives handler gives uncharged =>
    apply recorded_left recorded
    apply given_up sound relies stores
    intro pending replaced
    refine keeps.uploads ?_ pending (locked_of_replaced replaced)
    cases handler with
    | findExisting | writeRow | audit =>
      unfold givesUp
      simpa using gives
    | commit =>
      unfold givesUp
      simp only [Bool.or_eq_true]
      exact .inl gives
    | _ => cases replaced
  | ends handler unlocked uncharged =>
    apply recorded_left recorded
    intro row member live mine
    obtain ⟨pending,locked,_⟩ := deployment_guards mine
    rw [unlocked] at locked
    cases locked
  | lockedPlacement pending free =>
    exact fun row member live unlocked => recorded row member live fun taken => unlocked (Multiset.mem_cons_of_mem taken)
  | lockedDeployment pending deployment found free =>
    exact fun row member live unlocked => recorded row member live fun taken => unlocked (Multiset.mem_cons_of_mem taken)
  | lockedArtifact pending existing id drawn exists' target free =>
    exact fun row member live unlocked => recorded row member live fun taken => unlocked (Multiset.mem_cons_of_mem taken)
  | replaced pending =>
    intro row member live free
    exact matches_replaced sound relies rfl member (others pending rfl row member free) (recorded row member live free) rfl
  | replacedOnly pending crash fails replaces =>
    intro row member live free
    by_cases mine : row.deploymentId = pending.deployment.id
    · have gives : givesUp setting input s (.finalize pending) = true := by
        unfold givesUp
        rw [fails,replaces,crash]
        rfl
      obtain ⟨checksum,size⟩ := keeps.uploads gives pending rfl row member mine live
      apply matches_of_object _ checksum size
      have path : row.storagePath = pending.key := (path_of_locked sound relies rfl member).mpr mine
      rw [path]
      exact setObject_same _ _ _
    · have before : Lock.deployment row.deploymentId ∉ s.locks := by
        refine (free_before free).resolve_left fun own => ?_
        obtain ⟨upload,locked,same⟩ := @deployment_guards (.finalize pending) _ own
        cases locked
        exact mine same.symm
      exact matches_replaced sound relies rfl member mine (recorded row member live before) rfl
  | refused pending id exists' refused =>
    apply recorded_left recorded
    apply given_up sound relies stores
    intro upload replaced
    refine keeps.uploads ?_ upload (locked_of_replaced replaced)
    simp only [givesUp,refused,Option.isNone_none,Bool.or_true]
  | committed pending id exists' artifacts writes =>
    intro row member live free
    rcases written_rows relies writes row member with ⟨old,rfl⟩ | ⟨before,elsewhere⟩
    · exact matches_of_object (stores.replaced pending rfl) rfl rfl
    · have unlocked : Lock.deployment row.deploymentId ∉ s.locks := by
        refine (free_before free).resolve_left fun own => ?_
        obtain ⟨upload,locked,same⟩ := deployment_guards own
        cases locked
        exact elsewhere same.symm
      exact (recorded row before live unlocked).same rfl
  | marked swept others' artifacts live' free succeeds updated =>
    intro row member live unlocked
    exact (recorded row (marked_live updated member live) live unlocked).same rfl
  | removed swept others' succeeds =>
    intro row member live unlocked
    apply (recorded row member live unlocked).same
    apply setObject_other
    intro path
    have removed : removes input (.remove swept others') = some swept.artifact.storagePath := by
      unfold removes
      rw [succeeds.1,succeeds.2]
      rfl
    exact keeps.sweeps _ removed row member path live
  | deleted projectId free =>
    intro row member live unlocked
    exact (recorded row (List.mem_filter.mp member).1 live unlocked).same rfl

theorem acts_stores (acts : Acts setting input s handler s' remaining) (held : handler.guards ≤ s.locks) (recorded : Recorded setting s)
    (stores : Stores setting s handler) : ∀ next, remaining = some next → Stores setting s' next := by
  intro next goes
  have proceeds : ∀ list, proceed list = some next → Stores setting s' next := by
    intro list same
    cases list with
    | nil => cases same
    | cons swept others =>
      cases same
      exact ⟨nofun,nofun⟩
  cases acts with
  | waits =>
    cases goes
    exact stores
  | gives | ends | stops | replacedOnly | refused | charged | softDeleted | deleted => cases goes
  | goes handler next same =>
    cases goes
    have waiting : next.waiting = handler.waiting := by
      unfold Handler.waiting
      rw [same.replaced,same.locked]
    refine ⟨?_,?_⟩
    · rw [same.replaced]
      exact stores.replaced
    · rw [waiting]
      exact stores.waiting
  | lockedDeployment pending deployment found free =>
    cases goes
    refine ⟨nofun,?_⟩
    rintro upload ⟨⟩ row member same live
    have matching : Matches setting s row := by
      apply recorded row member live
      rw [same]
      exact free
    exact matching.same rfl
  | replaced pending =>
    cases goes
    refine ⟨?_,nofun⟩
    rintro upload ⟨⟩
    exact setObject_same _ _ _
  | found pending existing rows =>
    cases goes
    exact ⟨stores.replaced,nofun⟩
  | lockedArtifact pending existing id drawn exists' target free =>
    cases goes
    exact ⟨stores.replaced,nofun⟩
  | drawn pending existing =>
    cases goes
    exact ⟨stores.replaced,nofun⟩
  | listed | removed | kept => exact proceeds _ goes
  | _ =>
    cases goes
    exact ⟨nofun,nofun⟩

theorem Stores.apart (acts : Acts setting input s handler s' remaining) (keeps : Keeps setting input s handler)
    (undisturbed : Undisturbed input s handler other) (apart : Apart Handler.guards Shared.locks s handler other)
    (stores : Stores setting s other) : Stores setting s' other := by
  have unlocked : ∀ pending, handler.locked = some pending → other.locked = none := by
    intro pending mine
    cases theirs : other.locked with
    | none => rfl
    | some upload => exact (locked_alone apart mine theirs).elim
  have alone : other.locked = none → Stores setting s' other := by
    intro none'
    have replaced : other.replaced = none := by
      cases theirs : other.replaced with
      | none => rfl
      | some upload =>
        rw [locked_of_replaced theirs] at none'
        cases none'
    have waiting : other.waiting = none := by
      unfold Handler.waiting
      rw [replaced,none']
    constructor
    · rw [replaced]
      nofun
    · rw [waiting]
      nofun
  cases acts with
  | replaced pending => exact alone (unlocked pending rfl)
  | replacedOnly pending => exact alone (unlocked pending rfl)
  | committed pending id exists' => exact alone (unlocked pending rfl)
  | marked swept others artifacts live' free succeeds updated =>
    refine ⟨stores.replaced,fun pending waiting row member same live => ?_⟩
    exact (stores.waiting pending waiting row (marked_live updated member live) same live).same rfl
  | removed swept others succeeds =>
    have removed : removes input (.remove swept others) = some swept.artifact.storagePath := by
      unfold removes
      rw [succeeds.1,succeeds.2]
      rfl
    constructor
    · intro pending replaced
      have different := undisturbed _ removed pending replaced
      exact (setObject_other _ _ different).trans (stores.replaced pending replaced)
    · intro pending waiting row member same live
      apply (stores.waiting pending waiting row member same live).same
      apply setObject_other
      exact fun path => keeps.sweeps _ removed row member path live
  | deleted projectId free =>
    refine ⟨stores.replaced,fun pending waiting row member same live => ?_⟩
    exact (stores.waiting pending waiting row (List.mem_filter.mp member).1 same live).same rfl
  | _ => exact ⟨stores.replaced,stores.waiting⟩

end Steps

section Runs
variable (setting : Setting) (start : Shared)

structure Kept (config : Config Shared Handler) : Prop where
  holds : Holds (fun s => Sound start s ∧ Recorded setting s) (fun s handler => Relies start s handler ∧ Stores setting s handler) config
  guarded : Guarded Handler.guards Shared.locks config

variable {setting start}

theorem Kept.stored {config : Config Shared Handler} (kept : Kept setting start config) : StoredAsRecorded setting config := by
  intro idle row member live
  apply kept.holds.state.2 row member live
  have free := kept.guarded.held
  unfold owed at free
  rw [idle] at free
  rw [← free]
  exact Multiset.notMem_zero _

theorem Kept.step {config : Config Shared Handler} (kept : Kept setting start config) (event : Event Request Input)
    (keeps : ActingApart (Keeps setting) Undisturbed config event) : Kept setting start ((machine setting).step config event) := by
  constructor
  · refine Holds.step_apart ?_ ?_ ?_ config event kept.holds (kept.guarded.acting_held event keeps)
    · intro s request _
      cases request <;> exact ⟨⟨nofun,nofun,nofun,nofun⟩,⟨nofun,nofun⟩⟩
    · intro input s handler permitted sound relies
      have acts := @act_acts setting input s handler
      obtain ⟨keeps,held⟩ := permitted
      refine ⟨⟨acts_sound acts sound.1 relies.1,acts_recorded acts keeps held sound.1 relies.1 sound.2 relies.2⟩,fun next goes => ?_⟩
      exact ⟨acts_relies acts sound.1 relies.1 next goes,acts_stores acts held sound.2 relies.2 next goes⟩
    · intro input s handler other permitted apart sound relies relied
      have acts := @act_acts setting input s handler
      exact ⟨Relies.apart acts apart.2 relied.1,Stores.apart acts permitted.1 apart.1 apart.2 relied.2⟩
  · refine Guarded.step_locking ?_ (fun input s handler held => act_locking held (act_acts input s handler)) event kept.guarded
    intro request
    cases request <;> rfl

end Runs

theorem artifacts_stored_as_recorded (setting : Setting) (projects : Projects) (deployments : Deployments)
    (events : List (Event Request Input))
    (keeps : Along (machine setting).step (ActingApart (Keeps setting) Undisturbed) (idle projects deployments) events) :
    Throughout (machine setting).step (StoredAsRecorded setting) (idle projects deployments) events := by
  have start : Kept setting { projects, deployments } (idle projects deployments) := by
    refine ⟨⟨⟨⟨fun row member => member,?_⟩,?_⟩,?_⟩,⟨rfl,Multiset.nodup_zero⟩⟩
    · exact fun row member => absurd member List.not_mem_nil
    · exact fun row member => absurd member List.not_mem_nil
    · exact fun handler member => absurd member List.not_mem_nil
  exact throughout_of_invariant (fun config event kept keeps => kept.step event keeps) (fun config kept => kept.stored) _ events start keeps

section Examples

/-- A checksum that tells bodies of different lengths apart, and an update that marks the row. -/
def counting : Setting where
  calendar := fun now => (now,now)
  sha256 := fun bytes => if bytes.length = 1 then "one" else "other"
  tombstone := fun now row => { row with deletedAt := some now }
  tombstones := fun _ _ => .inr rfl

def built : Deployments := ⟨[⟨5,3,2,some 7⟩],by decide,by decide⟩

def oneProject : Projects := ⟨[{ id := 3 }],by decide,by decide⟩

def uploading (bytes : Bytes) (checksum : String) : Request := .upload ⟨7,5,bytes.length,checksum,bytes⟩

def steps (count : Nat) : List (Event Request Input) := List.replicate count (.resume 0 { now := 1 })

/-- A second upload replaces the object and fails before its row is committed. -/
theorem replaced_object_outlives_upload :
    let events := .arrive (uploading [1] "one") :: steps 11 ++ .arrive (uploading [1,2] "other") :: (steps 9 ++ [.resume 0 { now := 2, fails := true }])
    let final := run (machine counting).step (idle oneProject built) events
    ¬Throughout (machine counting).step (StoredAsRecorded counting) (idle oneProject built) events ∧ final.inflight = [] ∧
      (final.shared.artifacts.rows.map fun row => (row.sizeBytes,row.deletedAt)) = [(some 1,none)] ∧
      final.shared.objects ⟨3,5⟩ = some [1,2] := by
  refine ⟨fun stored => ?_,by decide,by decide,by decide⟩
  have last := stored.last (by decide)
  revert last
  decide

/-- The artifact of two uploads is removed by a sweep, whose removal fails once and is repeated by another. -/
theorem artifacts_stored_over_sweeps : Throughout (machine counting).step (StoredAsRecorded counting) (idle oneProject built)
    (.arrive (uploading [1] "one") :: steps 11 ++ .arrive (uploading [1,2] "other") :: steps 11 ++
      .arrive .sweep :: .resume 0 { now := 3, expired := [0] } :: steps 2 ++ .resume 0 { now := 4, fails := true } ::
      .arrive .sweep :: steps 4) := by
  apply artifacts_stored_as_recorded
  decide

end Examples

end GrassWorker.ArtifactStore
