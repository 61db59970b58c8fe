import GrassWorker.Domain.DeletionEffects
import GrassWorker.Foundations.Interleaving

/-! Draining a node while it reports: heartbeats and registrations read their node in
the authentication step and write it later, between the transactions of its deletion. -/
namespace GrassWorker.NodeDrain
open Interleaving Runs Transaction Nodes NodeDeletions Scheduler

inductive NodeActivity
  | heartbeat (report : HeartbeatRequest)
  | register (params : RegisterNodeParams)

inductive Request
  | activity (node : Uuid) (activity : NodeActivity)
  | queueDeletion (node : Uuid) (target : Option Uuid) (actor : Uuid)
  | processPendingJobs
  | markStaleOffline
  /-- A transaction on any other table. -/
  | elsewhere (after : Database)

inductive Handler
  | arrived (request : Request)
  | authenticated (node : Node) (activity : NodeActivity)
  | processing (jobs : List NodeDeletionJob)
  | failing (job : NodeDeletionJob) (error : String) (others : List NodeDeletionJob)

structure Input where
  instant : Instant := { now := 0 }
  migrationIds : Nat → Uuid := id
  databaseFails : Bool := false
  /-- The token is revoked, or a registration does not pass its checks. -/
  refused : Bool := false

def authenticatedNode (input : Input) (db : Database) (nodeId : Uuid) : Option Node :=
  if input.refused || input.databaseFails then none
  else (getById db nodeId).filter fun node => node.status ≠ .disabled

def authenticate (input : Input) (db : Database) (nodeId : Uuid) (activity : NodeActivity) : Option Handler :=
  (authenticatedNode input db nodeId).map (.authenticated · activity)

def registered (node : Node) : Transaction Database String Unit :=
  modify fun db => { db with audit := db.audit ++ [⟨none,none,"node.registered",some node.id,none,.platform⟩] }

def report (input : Input) (node : Node) : NodeActivity → Transaction Database String Unit
  | .heartbeat heartbeat => do
    let _ ← recordHeartbeat node heartbeat input.instant.now
  | .register params => do
    require (input.refused = false) "registration is refused"
    let updated ← applyRegistration input.instant.now node params
    registered updated

def queueDeletion (input : Input) (nodeId : Uuid) (target : Option Uuid) (actor : Uuid) :
    Transaction Database String Unit := do
  let source ← orElse (← query (getById · nodeId)) "node not found"
  let _ ← enqueue input.instant input.migrationIds source target actor

def attempt (input : Input) (transaction : Transaction Database String Unit) (db : Database) : Database :=
  if input.databaseFails then db else commit transaction db

def outcome (input : Input) (jobId : Uuid) (db : Database) : Except String (Bool × Database) :=
  if input.databaseFails then .error databaseError else processJob input.instant jobId db

def arrive (input : Input) (db : Database) : Request → Database × Option Handler
  | .activity nodeId activity => (db,authenticate input db nodeId activity)
  | .queueDeletion nodeId target actor => (attempt input (queueDeletion input nodeId target actor) db,none)
  | .processPendingJobs => (db,if input.databaseFails then none else some (.processing (pendingJobs db)))
  | .markStaleOffline =>
    (attempt input (do let _ ← markStaleOffline input.instant.now heartbeatStaleSeconds) db,none)
  | .elsewhere after => ({ after with nodes := db.nodes, deletionJobs := db.deletionJobs },none)

def advance (input : Input) (db : Database) : Handler → Database × Option Handler
  | .arrived request => arrive input db request
  | .authenticated node activity => (attempt input (report input node activity) db,none)
  | .processing [] => (db,none)
  | .processing (job :: others) =>
    match outcome input job.id db with
    | .ok (true,after) => (after,some (.processing others))
    | .ok (false,_) => (db,some (.processing others))
    | .error error => (db,some (.failing job error others))
  | .failing job error others =>
    if input.databaseFails then (db,none)
    else match failCurrent input.instant job error db with
      | .ok (_,after) => (after,some (.processing others))
      | .error _ => (db,none)

def machine : Machine Database Handler Request Input := ⟨Handler.arrived,advance⟩

def passes (config : Config Database Handler) : Event Request Input → Prop
  | .arrive _ => False
  | .resume index _ => ∃ jobs, config.inflight[index]? = some (.processing jobs)

def KeepsDraining (config : Config Database Handler) (event : Event Request Input) : Prop :=
  ∀ node ∈ config.shared.nodes.rows, node.status = .draining →
    ∃ next, (machine.step config event).shared.nodes.find node.id = some next ∧
      (next.status = .draining ∨ next.status = .disabled ∧ passes config event)

/-- No placement that could be made now selects a node whose deletion is not completed. -/
def SparesDeletion (config : Config Database Handler) : Prop :=
  ∀ now choice requested selected region placement,
    placeDeploymentInRegion now choice requested selected region config.shared = .ok placement →
      ∀ job ∈ config.shared.deletionJobs.rows, job.status ≠ .completed → placement.nodeId ≠ job.nodeId

/-- A node that is draining by the time of a report was draining when the report was authenticated. -/
def current (_ : Input) (db : Database) : Handler → Prop
  | .authenticated node _ => ∀ row, db.nodes.find node.id = some row → row.status = .draining → node.status = .draining
  | _ => True

instance : ∀ input db handler, Decidable (current input db handler)
  | _, db, .authenticated node _ =>
    decidable_of_iff (∀ row ∈ db.nodes.find node.id, row.status = .draining → node.status = .draining) Iff.rfl
  | _, _, .arrived _ | _, _, .processing _ | _, _, .failing .. => isTrue trivial

def Emptying (db : Database) : Prop :=
  ∀ job ∈ db.deletionJobs.rows, job.status ≠ .completed →
    ∃ node, db.nodes.find job.nodeId = some node ∧ node.status = .draining

/-- What a step does to draining nodes; `ends` where it may disable one. -/
def Drains (ends : Prop) (db after : Database) : Prop :=
  ∀ node ∈ db.nodes.rows, node.status = .draining →
    ∃ next, after.nodes.find node.id = some next ∧ (next.status = .draining ∨ next.status = .disabled ∧ ends)

structure Kept (ends : Prop) (db after : Database) : Prop where
  drains : Drains ends db after
  emptying : Emptying db → Emptying after

section Effects
variable {ends : Prop} {db after : Database}

theorem Drains.mono {ends' : Prop} (drains : Drains ends db after) (wider : ends → ends') : Drains ends' db after := by
  intro node member draining
  obtain ⟨next,found,status⟩ := drains node member draining
  exact ⟨next,found,status.imp_right fun ⟨disabled,holds⟩ => ⟨disabled,wider holds⟩⟩

theorem Kept.mono {ends' : Prop} (kept : Kept ends db after) (wider : ends → ends') : Kept ends' db after :=
  ⟨kept.drains.mono wider,kept.emptying⟩

theorem Drains.of_evolves {becomes : Node → Node → Prop} {born : Node → Prop}
    (evolves : Table.Evolves becomes born db.nodes after.nodes)
    (keeps : ∀ row next, db.nodes.find row.id = some row → becomes row next → row.status = .draining → next.status = .draining) :
    Drains False db after := by
  intro node member draining
  obtain ⟨next,found,step⟩ := evolves.kept node.id node (Table.find_of_mem member)
  exact ⟨next,found,.inl (keeps node next (Table.find_of_mem member) step draining)⟩

theorem Kept.of_jobs (drains : Drains False db after)
    (jobs : ∀ job ∈ after.deletionJobs.rows, job.status ≠ .completed →
      (∃ old ∈ db.deletionJobs.rows, old.status ≠ .completed ∧ old.nodeId = job.nodeId) ∨
        ∃ node, after.nodes.find job.nodeId = some node ∧ node.status = .draining) : Kept False db after := by
  refine ⟨drains,fun emptying job member unfinished => ?_⟩
  rcases jobs job member unfinished with ⟨old,inside,open',same⟩ | draining
  · obtain ⟨node,found,draining⟩ := emptying old inside open'
    obtain ⟨next,reached,status⟩ := drains node (Table.find_mem found) draining
    rw [Table.find_key found,same] at reached
    exact ⟨next,reached,status.elim id fun impossible => impossible.2.elim⟩
  · exact draining

theorem Kept.of_nodes (drains : Drains False db after) (jobs : after.deletionJobs = db.deletionJobs) : Kept False db after := by
  refine .of_jobs drains ?_
  rw [jobs]
  exact fun job member unfinished => .inl ⟨job,member,unfinished,rfl⟩

theorem Kept.of_aside (aside : Aside db after) : Kept False db after := by
  refine .of_nodes ?_ aside.jobs
  intro node member draining
  rw [aside.nodes]
  exact ⟨node,Table.find_of_mem member,.inl draining⟩

theorem Kept.frame {middle : Database} (kept : Kept ends db middle) (aside : Aside middle after) : Kept ends db after := by
  obtain ⟨drains,emptying⟩ := kept
  unfold Drains at drains
  unfold Emptying at emptying
  rw [← aside.nodes] at drains emptying
  rw [← aside.jobs] at emptying
  exact ⟨drains,emptying⟩

theorem Kept.of_queued {sourceId : Uuid} (queued : Queued sourceId db after) : Kept False db after := by
  refine .of_jobs (.of_evolves queued.nodes ?_) ?_
  · rintro row next _ rfl draining
    split
    · rfl
    · exact draining
  · intro job member unfinished
    have source : job.nodeId = sourceId → ∃ node, after.nodes.find job.nodeId = some node ∧ node.status = .draining := by
      intro same
      obtain ⟨old,present⟩ := Option.isSome_iff_exists.mp queued.present
      obtain ⟨next,found,rfl⟩ := queued.nodes.kept sourceId old present
      refine ⟨_,by rw [same,found],?_⟩
      rw [if_pos (Table.find_key present)]
    rcases queued.jobs.origin (Table.find_of_mem member) with ⟨old,found,rfl | node⟩ | ⟨_,node⟩
    · exact .inl ⟨job,Table.find_mem found,unfinished,rfl⟩
    · exact .inr (source node)
    · exact .inr (source node)

theorem unfinished_before {job : NodeDeletionJob} (found : db.deletionJobs.find job.id = some job)
    (unfinished : job.status ≠ .completed)
    (jobs : Table.Evolves (Advances job.id) (fun _ => False) db.deletionJobs after.deletionJobs)
    {next : NodeDeletionJob} (member : next ∈ after.deletionJobs.rows) (open' : next.status ≠ .completed) :
    ∃ old ∈ db.deletionJobs.rows, old.status ≠ .completed ∧ old.nodeId = next.nodeId := by
  rcases jobs.origin (Table.find_of_mem member) with ⟨old,present,advances⟩ | ⟨_,impossible⟩
  · by_cases same : old.id = job.id
    · obtain rfl := db.deletionJobs.same_of_key (Table.find_mem present) (Table.find_mem found) same
      exact ⟨old,Table.find_mem present,unfinished,advances.node.symm⟩
    · rw [advances.others same] at open' ⊢
      exact ⟨old,Table.find_mem present,open',rfl⟩
  · exact impossible.elim

theorem Kept.of_pass {job : NodeDeletionJob} (found : db.deletionJobs.find job.id = some job)
    (unfinished : job.status ≠ .completed) (pass : Pass job.id db after) : Kept False db after := by
  refine .of_jobs ?_ fun next member open' => .inl (unfinished_before found unfinished pass.jobs member open')
  intro node member draining
  rw [pass.nodes]
  exact ⟨node,Table.find_of_mem member,.inl draining⟩

theorem Kept.of_disabled {job : NodeDeletionJob} (found : db.deletionJobs.find job.id = some job)
    (unfinished : job.status ≠ .completed) (disabled : Disabled job db after) : Kept True db after := by
  refine ⟨?_,?_⟩
  · intro node member draining
    obtain ⟨next,reached,step⟩ := disabled.nodes.kept node.id node (Table.find_of_mem member)
    refine ⟨next,reached,?_⟩
    split at step
    · exact .inr ⟨step,trivial⟩
    · exact .inl (by rw [step,draining])
  · intro emptying next member open'
    rcases disabled.jobs.origin (Table.find_of_mem member) with ⟨old,present,advances,completed⟩ | ⟨_,impossible⟩
    · have other : old.id ≠ job.id := fun same => open' (completed same)
      rw [advances.others other] at member open' ⊢
      obtain ⟨node,reached,draining⟩ := emptying old (Table.find_mem present) open'
      -- one unfinished job a node, so the node that was disabled is another one
      have apart : old.nodeId ≠ job.nodeId := by
        intro same
        have held : old.nodeId ∈ old.entries := by simp [NodeDeletionJob.entries,open']
        have shared : old.nodeId ∈ job.entries := by simp [NodeDeletionJob.entries,unfinished,same]
        exact other (congrArg NodeDeletionJob.id
          (db.deletionJobs.same_of_entry (Table.find_mem present) (Table.find_mem found) held shared))
      obtain ⟨last,final,step⟩ := disabled.nodes.kept old.nodeId node reached
      rw [if_neg (by rwa [Table.find_key reached])] at step
      exact ⟨last,final,by rw [step,draining]⟩
    · exact impossible.elim

theorem Kept.of_attempt {input : Input} {transaction : Transaction Database String Unit}
    (ensured : Ensures transaction db fun _ after => Kept False db after) : Kept False db (attempt input transaction db) := by
  unfold attempt
  split
  · exact .of_aside ⟨rfl,rfl⟩
  · rcases commit_ensures ensured with unchanged | ⟨_,kept⟩
    · rw [unchanged]
      exact .of_aside ⟨rfl,rfl⟩
    · exact kept

end Effects

section Steps
variable (input : Input) (db : Database)

theorem updateNode_kept (nodeId : Uuid) (change : Node → Node) (keeps : ∀ row, (change row).id = row.id)
    (drains : ∀ row, db.nodes.find nodeId = some row → row.status = .draining → (change row).status = .draining) :
    Ensures (updateNode nodeId change keeps) db fun _ after => Kept False db after := by
  rw [ensures_updateNode]
  intro nodes row updated found
  have evolves : Table.Evolves (fun row next => next = if row.id = nodeId then change row else row) (fun _ => False)
      db.nodes nodes := Table.evolves_update updated
  refine .of_nodes (.of_evolves evolves ?_) rfl
  rintro old next present rfl draining
  by_cases chosen : old.id = nodeId
  · rw [if_pos chosen]
    exact drains old (by rw [← chosen,present]) draining
  · rw [if_neg chosen]
    exact draining

theorem report_kept (node : Node) (activity : NodeActivity) (fresh : current input db (.authenticated node activity)) :
    Ensures (report input node activity) db fun _ after => Kept False db after := by
  have drains : ∀ row, db.nodes.find node.id = some row → row.status = .draining →
      statusAfterNodeActivity node.status = .draining := by
    intro row found draining
    rw [fresh row found draining]
    rfl
  cases activity with
  | heartbeat heartbeat =>
    simp only [report,recordHeartbeat,ensures_bind,ensures_ofExcept,ensures_pure]
    intro revision _
    exact updateNode_kept db _ _ _ drains
  | register params =>
    simp only [report,applyRegistration,ensures_bind,ensures_require,ensures_ofExcept,registered,ensures_modify]
    intro _ config _ resources _
    refine (updateNode_kept db _ _ _ drains).mono ?_
    exact fun _ _ kept => kept.frame ⟨rfl,rfl⟩

theorem markStaleOffline_kept (now : Timestamp) (seconds : Int) :
    Ensures (markStaleOffline now seconds) db fun _ after => Kept False db after := by
  unfold markStaleOffline
  rw [ensures_write]
  intro flipped after written
  obtain ⟨nodes,updated,written⟩ := Option.bind_eq_some_iff.mp written
  cases written
  have evolves : Table.Evolves _ (fun _ => False) db.nodes nodes := Table.evolves_updateWhere updated
  refine .of_nodes (.of_evolves evolves ?_) rfl
  rintro row next _ rfl draining
  rw [if_neg (by simp [draining]),draining]

theorem queueDeletion_kept (nodeId : Uuid) (target : Option Uuid) (actor : Uuid) :
    Ensures (queueDeletion input nodeId target actor) db fun _ after => Kept False db after := by
  simp only [queueDeletion,ensures_bind,ensures_query,ensures_orElse,ensures_pure]
  intro source _
  exact (enqueue_effect _ _ _ _ _ db).mono fun _ _ queued => .of_queued queued

theorem arrive_kept (request : Request) : Kept False db (arrive input db request).1 := by
  cases request with
  | activity => exact .of_aside ⟨rfl,rfl⟩
  | queueDeletion nodeId target actor => exact .of_attempt (queueDeletion_kept input db nodeId target actor)
  | processPendingJobs => exact .of_aside ⟨rfl,rfl⟩
  | markStaleOffline =>
    refine .of_attempt ?_
    simp only [ensures_bind,ensures_pure]
    exact markStaleOffline_kept db _ _
  | elsewhere other => exact .of_aside ⟨rfl,rfl⟩

theorem advance_kept (handler : Handler) (fresh : current input db handler) :
    Kept (∃ jobs, handler = .processing jobs) db (advance input db handler).1 := by
  have never : ∀ {after}, Kept False db after → Kept (∃ jobs, handler = .processing jobs) db after :=
    fun kept => kept.mono False.elim
  have unchanged := never (.of_aside ⟨rfl,rfl⟩)
  cases handler with
  | arrived request => exact never (arrive_kept input db request)
  | authenticated node activity => exact never (.of_attempt (report_kept input db node activity fresh))
  | processing jobs =>
    cases jobs with
    | nil => exact unchanged
    | cons job others =>
      simp only [advance]
      cases passed : outcome input job.id db with
      | error error => exact unchanged
      | ok result =>
        obtain ⟨done,after⟩ := result
        cases done with
        | false => exact unchanged
        | true =>
          have ran : processJob input.instant job.id db = .ok (true,after) := by
            unfold outcome at passed
            split at passed
            · cases passed
            · exact passed
          obtain ⟨row,found,unfinished,effect⟩ := processJob_effect _ _ db true after ran rfl
          rw [← Table.find_key found] at found
          rcases effect with pass | disabled
          · exact never (.of_pass found unfinished pass)
          · exact (Kept.of_disabled found unfinished disabled).mono fun _ => ⟨_,rfl⟩
  | failing job error others =>
    simp only [advance]
    split
    · exact unchanged
    · split
      · rename_i after ran
        rcases failCurrent_effect _ job error db _ after ran with rfl | ⟨row,found,unfinished,pass⟩
        · exact unchanged
        · rw [← Table.find_key found] at found
          exact never (.of_pass found unfinished pass)
      · exact unchanged

end Steps

theorem step_kept (config : Config Database Handler) (event : Event Request Input) (fresh : Acting current config event) :
    Kept (passes config event) config.shared (machine.step config event).shared := by
  cases event with
  | arrive request => exact .mono (.of_aside ⟨rfl,rfl⟩) False.elim
  | resume index input =>
    cases found : config.inflight[index]? with
    | none =>
      simp only [Machine.step,found]
      exact .mono (.of_aside ⟨rfl,rfl⟩) False.elim
    | some handler =>
      simp only [Machine.step,found]
      refine (advance_kept input config.shared handler (fresh handler found)).mono ?_
      rintro ⟨jobs,rfl⟩
      exact ⟨jobs,found⟩

theorem Emptying.spares {config : Config Database Handler} (emptying : Emptying config.shared) : SparesDeletion config := by
  intro now choice requested selected region placement placed job member unfinished same
  obtain ⟨node,inside,key,fit⟩ := placed_eligible placed
  obtain ⟨source,found,draining⟩ := emptying job member unfinished
  obtain rfl := config.shared.nodes.same_of_key inside (Table.find_mem found)
    ((key.trans same).trans (Table.find_key found).symm)
  simp [eligible,draining] at fit

/-- A drain that is begun is only ended by its deletion, if no report of the node is
authenticated before the drain begins and written after it. -/
theorem drain_is_kept (start : Database) (events : List (Event Request Input)) (fresh : start.deletionJobs = ∅)
    (meets : Along machine.step (Acting current) ⟨start,[]⟩ events) :
    Along machine.step KeepsDraining ⟨start,[]⟩ events ∧ Throughout machine.step SparesDeletion ⟨start,[]⟩ events := by
  have kept : ∀ config event, Emptying config.shared → Acting current config event →
      Emptying (machine.step config event).shared :=
    fun config event emptying permitted => (step_kept config event permitted).emptying emptying
  have begun : Emptying start := by
    rintro job member
    rw [fresh] at member
    cases member
  refine ⟨?_,throughout_of_invariant kept (fun _ => Emptying.spares) _ _ begun meets⟩
  exact along_of_invariant kept (fun config event _ permitted => (step_kept config event permitted).drains)
    _ _ begun meets

def worker : Node where
  id := 1
  region := "default"
  status := .active
  buildEnabled := true
  serveEnabled := true
  baseUrl := some "http://worker"
  capacityCpuMillicores := 1000
  capacityMemoryMb := 1000
  capacityDiskMb := 1000
  maxDeployments := 10
  lastHeartbeatAt := some 0

def oneWorker : Database := { nodes := ((∅ : Table Node (·.id) unindexed).insert worker).getD ∅ }

def arriveAndRun (request : Request) (index : Nat) : List (Event Request Input) :=
  [.arrive request,.resume index { instant := { now := 1, uuid := 9 } }]

/-- The deletion of an idle node, which reports before and during it: two passes end it. -/
theorem drain_is_kept_until_disabled :
    let events := arriveAndRun (.queueDeletion 1 none 7) 0 ++ arriveAndRun (.activity 1 (.heartbeat {})) 0 ++
      arriveAndRun .processPendingJobs 1 ++ [.resume 0 {},.resume 0 {}] ++ arriveAndRun .processPendingJobs 1 ++
      [.resume 1 {}]
    ((run machine.step ⟨oneWorker,[]⟩ events).shared.nodes.find 1).map Node.status = some .disabled ∧
      Along machine.step KeepsDraining ⟨oneWorker,[]⟩ events ∧ Throughout machine.step SparesDeletion ⟨oneWorker,[]⟩ events :=
  ⟨by decide,drain_is_kept oneWorker _ rfl (by decide)⟩

/-- A heartbeat authenticated while the node was active is written after its deletion was queued. -/
theorem late_heartbeat_ends_drain : ¬∀ (start : Database) (events : List (Event Request Input)), start.deletionJobs = ∅ →
    Along machine.step KeepsDraining ⟨start,[]⟩ events ∧ Throughout machine.step SparesDeletion ⟨start,[]⟩ events := by
  intro claimed
  let before := arriveAndRun (.activity 1 (.heartbeat {})) 0 ++ arriveAndRun (.queueDeletion 1 none 7) 1
  let write : Event Request Input := .resume 0 { instant := { now := 2 } }
  have kept := ((along_append _ before [write]).mp (claimed oneWorker (before ++ [write]) rfl).1).2.1
  have draining : { worker with status := .draining } ∈ (run machine.step ⟨oneWorker,[]⟩ before).shared.nodes.rows := by
    decide
  obtain ⟨next,found,status⟩ := kept _ draining rfl
  have active : ((machine.step (run machine.step ⟨oneWorker,[]⟩ before) write).shared.nodes.find 1).map Node.status =
      some .active := by decide +kernel
  rw [show ({ worker with status := .draining } : Node).id = 1 from rfl] at found
  rw [found] at active
  have active := Option.some.inj active
  rcases status with draining | ⟨disabled,_⟩
  · rw [draining] at active
    cases active
  · rw [disabled] at active
    cases active

end GrassWorker.NodeDrain
