import GrassWorker.ControlPlane.NodeDrain
import GrassWorker.Features.NodeSettings

/-! Configuring a node while it reports: an update reads and writes its row under a
lock, a registration writes back the desired configuration its authentication read. -/
namespace GrassWorker.NodeConfigurations
open Interleaving Runs Transaction Nodes NodeSettings
open NodeDrain (NodeActivity authenticatedNode report)

inductive Request
  | activity (node : Uuid) (activity : NodeActivity)
  | updateConfiguration (node : Uuid) (configuration : NodeConfiguration) (actor : Uuid)
  | updateCapacity (node : Uuid) (body : CapacityRequest) (actor : Uuid)
  | markStaleOffline
  /-- A transaction on any other table. -/
  | elsewhere (after : Database)

inductive Handler
  | arrived (request : Request)
  | authenticated (node : Node) (activity : NodeActivity)

structure Input extends NodeDrain.Input where
  /-- The region catalogue by then. -/
  regions : List String := []

section Machine
variable (parsers : Parsers)

def arrive (input : Input) (db : Database) : Request → Database × Option Handler
  | .activity nodeId activity => (db,(authenticatedNode input.toInput db nodeId).map (.authenticated · activity))
  | .updateConfiguration nodeId configuration actor =>
    (NodeDrain.attempt input.toInput (do
      let _ ← updateConfiguration parsers input.regions actor nodeId configuration input.instant.now) db,none)
  | .updateCapacity nodeId body actor =>
    (NodeDrain.attempt input.toInput (do let _ ← updateCapacity actor nodeId body) db,none)
  | .markStaleOffline =>
    (NodeDrain.attempt input.toInput (do
      let _ ← markStaleOffline input.instant.now heartbeatStaleSeconds) db,none)
  | .elsewhere after => ({ after with nodes := db.nodes },none)

def advance (input : Input) (db : Database) : Handler → Database × Option Handler
  | .arrived request => arrive parsers input db request
  | .authenticated node activity => (NodeDrain.attempt input.toInput (report input.toInput node activity) db,none)

def machine : Machine Database Handler Request Input := ⟨Handler.arrived,advance parsers⟩

end Machine

structure Desired where
  configuration : NodeConfiguration
  revision : Int
deriving DecidableEq

def committed (parsers : Parsers) (nodeId : Uuid) (config : Config Database Handler) : Event Request Input → Option Desired
  | .arrive _ => none
  | .resume index input =>
    match config.inflight[index]? with
    | some (.arrived (.updateConfiguration chosen configuration actor)) =>
      if input.databaseFails ∨ chosen ≠ nodeId then none
      else match updateConfiguration parsers input.regions actor nodeId configuration input.instant.now config.shared with
        | .ok (row,_) => some ⟨configuration,row.desiredConfigRevision⟩
        | .error _ => none
    | _ => none

def told (nodeId : Uuid) (config : Config Database Handler) : Event Request Input → Option Desired
  | .arrive _ => none
  | .resume index input =>
    match config.inflight[index]? with
    | some (.authenticated node (.heartbeat heartbeat)) =>
      if input.databaseFails ∨ node.id ≠ nodeId then none
      else match recordHeartbeat node heartbeat input.instant.now config.shared with
        | .ok (row,_) =>
          match desiredConfigForHeartbeat row heartbeat with
          | .ok (some revision,some configuration) => some ⟨configuration,revision⟩
          | _ => none
        | .error _ => none
    | _ => none

def desired (row : Node) : Option Desired := row.desiredConfig.map (⟨·,row.desiredConfigRevision⟩)

def brought (params : RegisterNodeParams) : Option Desired := params.effectiveConfig.map (⟨·,params.configRevision⟩)

/-- What a registration is going to write is what is desired by then: its node was read
since the last update, or had nothing desired and registers just that. -/
def current (input : Input) (db : Database) : Handler → Prop
  | .authenticated node (.register params) =>
    input.refused = true ∨ input.databaseFails = true ∨ ∀ row ∈ db.nodes.find node.id, (desired row).isSome = true →
      desired node = desired row ∨ desired node = none ∧ brought params = desired row
  | _ => True

instance : ∀ input db handler, Decidable (current input db handler)
  | input, db, .authenticated node (.register params) =>
    inferInstanceAs (Decidable (input.refused = true ∨ input.databaseFails = true ∨
      ∀ row ∈ db.nodes.find node.id, (desired row).isSome = true →
        desired node = desired row ∨ desired node = none ∧ brought params = desired row))
  | _, _, .authenticated _ (.heartbeat _) | _, _, .arrived _ => isTrue trivial

def Keeps (row next : Node) : Prop := (desired row).isSome = true → desired next = desired row

def Replaces (update : Desired) (row next : Node) : Prop :=
  desired next = some update ∧ ∀ old, desired row = some old → old.revision < update.revision

def KeepsAll (db after : Database) : Prop := Table.Evolves Keeps (fun _ => False) db.nodes after.nodes

section Steps
variable {db after : Database}

theorem KeepsAll.of_same (same : after.nodes = db.nodes) : KeepsAll db after := by
  unfold KeepsAll
  rw [same]
  exact Table.evolves_refl (fun _ _ => rfl) db.nodes

theorem updateNode_keeps (nodeId : Uuid) (change : Node → Node) (keeps : ∀ row, (change row).id = row.id)
    (kept : ∀ row, db.nodes.find nodeId = some row → Keeps row (change row)) :
    Ensures (updateNode nodeId change keeps) db fun _ after => KeepsAll db after := by
  rw [ensures_updateNode]
  intro nodes _ updated _
  refine (Table.evolves_update updated).mono ?_ fun _ impossible => impossible
  rintro row next present rfl
  by_cases chosen : row.id = nodeId
  · rw [if_pos chosen]
    refine kept row ?_
    rw [← chosen]
    exact Table.find_of_mem present
  · rw [if_neg chosen]
    exact fun _ => rfl

theorem registrationConfigState_desired {now : Timestamp} {node : Node} {params : RegisterNodeParams}
    {config : RegistrationConfigState}
    (prepared : registrationConfigState now node params.configRevision params.effectiveConfig params.nodeTokenConfigured =
      .ok config) :
    config.desired.map (fun configuration => (⟨configuration,config.desiredRevision⟩ : Desired)) =
      (desired node).or (brought params) := by
  unfold registrationConfigState at prepared
  cases bringing : params.effectiveConfig with
  | none =>
    rw [bringing] at prepared
    cases prepared
    simp [unchangedConfigState,desired,brought,bringing]
  | some effective =>
    rw [bringing] at prepared
    obtain ⟨revision,converted,prepared⟩ := Checks.bind_eq_ok.mp prepared
    have same : revision = params.configRevision := by
      unfold tryFrom at converted
      split at converted
      · exact (Except.ok.inj converted).symm
      · cases converted
    cases wanted : node.desiredConfig with
    | none =>
      rw [wanted] at prepared
      cases prepared
      simp [desired,brought,bringing,wanted,same]
    | some configuration =>
      rw [wanted] at prepared
      cases prepared
      simp [unchangedConfigState,desired,wanted]

theorem report_keeps (input : Input) (node : Node) (activity : NodeActivity)
    (fresh : current input db (.authenticated node activity)) (running : input.databaseFails = false) :
    Ensures (report input.toInput node activity) db fun _ after => KeepsAll db after := by
  cases activity with
  | heartbeat heartbeat =>
    simp only [report,recordHeartbeat,ensures_bind,ensures_ofExcept,ensures_pure]
    intro revision _
    exact updateNode_keeps _ _ _ fun _ _ _ => rfl
  | register params =>
    simp only [report,applyRegistration,ensures_bind,ensures_require,ensures_ofExcept,NodeDrain.registered,ensures_modify]
    intro accepted config prepared resources _
    refine updateNode_keeps _ _ _ fun row found wanted => ?_
    have written := registrationConfigState_desired prepared
    have same := (fresh.resolve_left (by simp [accepted])).resolve_left (by simp [running]) row found wanted
    refine Eq.trans written ?_
    rcases same with read | ⟨nothing,brings⟩
    · rw [read,Option.or_of_isSome wanted]
    · rw [nothing,brings,Option.none_or]

theorem updateCapacity_keeps (actor nodeId : Uuid) (body : CapacityRequest) (db : Database) :
    Ensures (updateCapacity actor nodeId body) db fun _ after => KeepsAll db after := by
  simp only [updateCapacity,ensures_bind,ensures_query,ensures_orElse,ensures_require,ensures_ofExcept,
    ensures_modify,ensures_pure]
  intro node _ _ usage _ capacity _
  exact updateNode_keeps _ _ _ fun _ _ _ => rfl

theorem markStaleOffline_keeps (now : Timestamp) (seconds : Int) (db : Database) :
    Ensures (markStaleOffline now seconds) db fun _ after => KeepsAll db after := by
  unfold markStaleOffline
  rw [ensures_write]
  intro flipped after written
  obtain ⟨nodes,updated,written⟩ := Option.bind_eq_some_iff.mp written
  cases written
  refine (Table.evolves_updateWhere updated).mono ?_ fun _ impossible => impossible
  rintro row next _ rfl _
  split <;> rfl

theorem nextRevision_lt {node : Node} {revision : Int} (next : nextRevision node = .ok revision) :
    node.desiredConfigRevision < revision := by
  unfold nextRevision at next
  split at next
  · cases next
    omega
  · cases next

theorem updateConfiguration_replaces (parsers : Parsers) (regions : List String) (actor nodeId : Uuid)
    (configuration : NodeConfiguration) (now : Timestamp) (db : Database) :
    Ensures (updateConfiguration parsers regions actor nodeId configuration now) db fun updated after =>
      Table.Evolves (fun row next => if row.id = nodeId then Replaces ⟨configuration,updated.desiredConfigRevision⟩ row next
        else Keeps row next) (fun _ => False) db.nodes after.nodes := by
  simp only [updateConfiguration,ensures_bind,ensures_query,ensures_orElse,ensures_require,ensures_ofExcept,
    ensures_modify,ensures_pure]
  intro _ _ node present _ usage _ _ _ prepared prepares
  rw [ensures_updateNode]
  intro nodes updated written found
  obtain ⟨_,_,prepares⟩ := Checks.bind_eq_ok.mp prepares
  obtain ⟨revision,next,prepares⟩ := Checks.bind_eq_ok.mp prepares
  cases prepares
  obtain ⟨present,_⟩ := Option.filter_eq_some_iff.mp present
  rw [Table.find_update written,if_pos rfl,present] at found
  cases found
  refine (Table.evolves_update written).mono ?_ fun _ impossible => impossible
  rintro row next member rfl
  by_cases chosen : row.id = nodeId
  · rw [if_pos chosen,if_pos chosen]
    refine ⟨rfl,fun old wanted => ?_⟩
    obtain rfl : row = node := by
      have same := Table.find_of_mem member
      rw [chosen,present] at same
      exact (Option.some.inj same).symm
    obtain ⟨_,_,rfl⟩ := Option.map_eq_some_iff.mp wanted
    exact nextRevision_lt next
  · rw [if_neg chosen,if_neg chosen]
    exact fun _ => rfl

theorem KeepsAll.of_attempt {input : NodeDrain.Input} {transaction : Transaction Database String Unit}
    (ensured : Ensures transaction db fun _ after => KeepsAll db after) :
    KeepsAll db (NodeDrain.attempt input transaction db) := by
  unfold NodeDrain.attempt
  split
  · exact .of_same rfl
  · rcases commit_ensures ensured with unchanged | ⟨_,kept⟩
    · rw [unchanged]
      exact .of_same rfl
    · exact kept

end Steps

/-- What a step does to the row of a node: it replaces what is desired, or keeps it. -/
def Moves (update : Option Desired) (row next : Node) : Prop :=
  match update with
  | some update => Replaces update row next
  | none => Keeps row next

section Runs
variable (parsers : Parsers) {nodeId : Uuid}

theorem KeepsAll.moves {db after : Database} {row : Node} (kept : KeepsAll db after)
    (found : db.nodes.find nodeId = some row) : ∃ next, after.nodes.find nodeId = some next ∧ Moves none row next :=
  kept.kept nodeId row found

theorem committed_other {config : Config Database Handler} {index : Nat} {input : Input} {handler : Handler}
    (found : config.inflight[index]? = some handler)
    (other : ∀ configuration actor, handler ≠ .arrived (.updateConfiguration nodeId configuration actor)) :
    committed parsers nodeId config (.resume index input) = none := by
  simp only [committed,found]
  split
  · rename_i chosen configuration actor same
    have different : chosen ≠ nodeId := by
      rintro rfl
      exact other configuration actor (Option.some.inj same)
    rw [if_pos (.inr different)]
  · rfl

theorem update_moves {config : Config Database Handler} {index : Nat} {input : Input} {chosen actor : Uuid}
    {configuration : NodeConfiguration} {row : Node}
    (handler : config.inflight[index]? = some (.arrived (.updateConfiguration chosen configuration actor)))
    (found : config.shared.nodes.find nodeId = some row) :
    ∃ next, (arrive parsers input config.shared (.updateConfiguration chosen configuration actor)).1.nodes.find nodeId =
      some next ∧ Moves (committed parsers nodeId config (.resume index input)) row next := by
  simp only [committed,handler,arrive,NodeDrain.attempt]
  by_cases fails : input.databaseFails = true
  · rw [if_pos fails,if_pos (.inl fails)]
    exact ⟨row,found,fun _ => rfl⟩
  · rw [if_neg fails]
    have effect := updateConfiguration_replaces parsers input.regions actor chosen configuration input.instant.now
      config.shared
    cases ran : updateConfiguration parsers input.regions actor chosen configuration input.instant.now config.shared with
    | error error =>
      have failed : commit (do
          let _ ← updateConfiguration parsers input.regions actor chosen configuration input.instant.now) config.shared =
          config.shared := by
        simp [commit,bind,StateT.bind,ran,Except.bind]
      rw [failed]
      refine ⟨row,found,?_⟩
      by_cases same : chosen = nodeId
      · subst same
        rw [if_neg (by simp [fails]),ran]
        exact fun _ => rfl
      · rw [if_pos (.inr same)]
        exact fun _ => rfl
    | ok result =>
      obtain ⟨updated,after⟩ := result
      have done : commit (do
          let _ ← updateConfiguration parsers input.regions actor chosen configuration input.instant.now) config.shared =
          after := by
        rw [commit,bind_apply,ran]
        rfl
      rw [done]
      obtain ⟨next,reached,step⟩ := (effect updated after ran).kept nodeId row found
      refine ⟨next,reached,?_⟩
      rw [Table.find_key found] at step
      by_cases same : chosen = nodeId
      · subst same
        rw [if_neg (by simp [fails]),ran]
        rwa [if_pos rfl] at step
      · rw [if_pos (.inr same)]
        rwa [if_neg (Ne.symm same)] at step

theorem step_moves (config : Config Database Handler) (event : Event Request Input) (fresh : Acting current config event)
    {row : Node} (found : config.shared.nodes.find nodeId = some row) :
    ∃ next, ((machine parsers).step config event).shared.nodes.find nodeId = some next ∧
      Moves (committed parsers nodeId config event) row next := by
  cases event with
  | arrive request => exact ⟨row,found,fun _ => rfl⟩
  | resume index input =>
    cases present : config.inflight[index]? with
    | none =>
      simp only [Machine.step,committed,present]
      exact ⟨row,found,fun _ => rfl⟩
    | some handler =>
      have kept : ∀ {after}, KeepsAll config.shared after →
          (∀ configuration actor, handler ≠ .arrived (.updateConfiguration nodeId configuration actor)) →
          ∃ next, after.nodes.find nodeId = some next ∧ Moves (committed parsers nodeId config (.resume index input)) row next := by
        intro after kept other
        rw [committed_other parsers present other]
        exact kept.moves found
      simp only [Machine.step,present]
      cases handler with
      | authenticated node activity =>
        refine kept ?_ (by simp)
        by_cases fails : input.databaseFails = true
        · simp only [machine,advance,NodeDrain.attempt,fails,if_true]
          exact .of_same rfl
        · exact .of_attempt (report_keeps input node activity (fresh _ present) (by simpa using fails))
      | arrived request =>
        cases request with
        | activity => exact kept (.of_same rfl) (by simp)
        | updateConfiguration => exact update_moves parsers present found
        | updateCapacity chosen body actor =>
          refine kept (.of_attempt ?_) (by simp)
          simp only [ensures_bind,ensures_pure]
          exact updateCapacity_keeps actor chosen body config.shared
        | markStaleOffline =>
          refine kept (.of_attempt ?_) (by simp)
          simp only [ensures_bind,ensures_pure]
          exact markStaleOffline_keeps _ _ config.shared
        | elsewhere => exact kept (.of_same rfl) (by simp)

/-- The last committed update is what is desired; without one what was desired before is. -/
structure Settled (row : Node) (updates : List Desired) (last : Node) : Prop where
  increasing : updates.Pairwise fun first second => first.revision < second.revision
  above : ∀ old ∈ desired row, ∀ update ∈ updates, old.revision < update.revision
  newest : (desired row).isSome = true ∨ updates ≠ [] → desired last = updates.getLast?.or (desired row)

theorem Settled.cons {row next last : Node} {updates : List Desired} {update : Option Desired} (moves : Moves update row next)
    (settled : Settled next updates last) : Settled row (update.toList ++ updates) last := by
  cases update with
  | none =>
    refine ⟨settled.increasing,fun old wanted => settled.above old ?_,fun known => ?_⟩
    · rwa [moves (by rw [Option.mem_def.mp wanted]; rfl)]
    · change desired last = updates.getLast?.or (desired row)
      cases wanted : desired row with
      | some old =>
        have kept := moves (by rw [wanted]; rfl)
        rw [← wanted,← kept]
        exact settled.newest (.inl (by rw [kept,wanted]; rfl))
      | none =>
        have more : updates ≠ [] := known.resolve_left (by simp [wanted])
        rw [settled.newest (.inr more),Option.or_of_isSome (List.getLast?_isSome.mpr more),
          Option.or_of_isSome (List.getLast?_isSome.mpr more)]
  | some update =>
    obtain ⟨wanted,higher⟩ := moves
    have later := settled.above update wanted
    refine ⟨?_,?_,fun _ => ?_⟩
    · exact List.pairwise_cons.mpr ⟨later,settled.increasing⟩
    · intro old before other member
      rcases List.mem_cons.mp member with rfl | inside
      · exact higher old before
      · exact (higher old before).trans (later other inside)
    · change desired last = (update :: updates).getLast?.or (desired row)
      rw [settled.newest (.inl (by rw [wanted]; rfl)),wanted,List.getLast?_cons]
      cases updates.getLast? <;> rfl

theorem run_settled (events : List (Event Request Input)) :
    ∀ (config : Config Database Handler) {row : Node}, config.shared.nodes.find nodeId = some row →
      Along (machine parsers).step (Acting current) config events →
      ∃ last, (run (machine parsers).step config events).shared.nodes.find nodeId = some last ∧
        Settled row (observed (machine parsers).step (committed parsers nodeId) config events) last := by
  induction events with
  | nil => exact fun config row found _ => ⟨row,found,⟨.nil,by simp [observed],fun _ => rfl⟩⟩
  | cons event rest ih =>
    intro config row found meets
    obtain ⟨next,reached,moves⟩ := step_moves parsers config event meets.1 found
    obtain ⟨last,final,settled⟩ := ih _ reached meets.2
    exact ⟨last,final,settled.cons moves⟩

theorem recordHeartbeat_row (node : Node) (heartbeat : HeartbeatRequest) (now : Timestamp) (db : Database) :
    Ensures (recordHeartbeat node heartbeat now) db fun written _ =>
      ∃ row, db.nodes.find node.id = some row ∧ desired written = desired row := by
  simp only [recordHeartbeat,ensures_bind,ensures_ofExcept]
  intro revision _
  refine (ensures_updateNode _ _ _ _ _).mpr ?_
  intro nodes written updated found
  rw [Table.find_update updated,if_pos rfl] at found
  obtain ⟨row,present,rfl⟩ := Option.map_eq_some_iff.mp found
  exact ⟨row,present,rfl⟩

theorem desiredConfigForHeartbeat_desired {row : Node} {heartbeat : HeartbeatRequest} {revision : Nat}
    {configuration : NodeConfiguration}
    (answers : desiredConfigForHeartbeat row heartbeat = .ok (some revision,some configuration)) :
    desired row = some ⟨configuration,revision⟩ := by
  simp only [desiredConfigForHeartbeat] at answers
  by_cases negative : row.desiredConfigRevision < 0
  · rw [if_pos negative] at answers
    cases answers
  · rw [if_neg negative] at answers
    cases wanted : row.desiredConfig with
    | none =>
      rw [wanted,ite_self] at answers
      cases answers
    | some held =>
      rw [wanted] at answers
      split at answers
      · cases answers
      · cases answers
        simp only [desired,wanted,Option.map_some,Option.some.injEq,Desired.mk.injEq,true_and]
        omega

theorem told_desired (config : Config Database Handler) (event : Event Request Input) {answer : Desired}
    (answered : told nodeId config event = some answer) :
    ∃ row, config.shared.nodes.find nodeId = some row ∧ desired row = some answer := by
  cases event with
  | arrive request => cases answered
  | resume index input =>
    simp only [told] at answered
    split at answered
    · rename_i node heartbeat _
      split at answered
      · cases answered
      · rename_i accepted
        obtain rfl : node.id = nodeId := by
          by_contra other
          exact accepted (.inr other)
        split at answered
        · rename_i written after ran
          obtain ⟨row,present,same⟩ := recordHeartbeat_row _ _ _ _ written after ran
          split at answered
          · rename_i revision configuration answers
            cases answered
            exact ⟨row,present,by rw [← same,desiredConfigForHeartbeat_desired answers]⟩
          · cases answered
        · cases answered
    · cases answered

structure KeepsConfiguration (nodeId : Uuid) (start : Config Database Handler) (events : List (Event Request Input)) : Prop where
  settled : ∀ row, start.shared.nodes.find nodeId = some row →
    ∃ last, (run (machine parsers).step start events).shared.nodes.find nodeId = some last ∧
      Settled row (observed (machine parsers).step (committed parsers nodeId) start events) last
  answers : Along (machine parsers).step (fun config event => ∀ answer, told nodeId config event = some answer →
    ∃ row, config.shared.nodes.find nodeId = some row ∧ desired row = some answer) start events

/-- An administrator's configuration stays the desired one until the next update, if
every registration writes back what is desired by then. -/
theorem configuration_is_kept (nodeId : Uuid) (start : Config Database Handler) (events : List (Event Request Input))
    (meets : Along (machine parsers).step (Acting current) start events) :
    KeepsConfiguration parsers nodeId start events where
  settled _ found := run_settled parsers events start found meets
  answers := along_imp (fun config event _ _ answered => told_desired config event answered) start events meets

end Runs

def sampleParsers : Parsers where
  url text := if "http://".toList.isPrefixOf text then some ⟨"http",true,""⟩ else none
  isIpAddr text := text = "0.0.0.0"
  isEnvFilter text := text = "info".toList

def sampleConfiguration (id : String) : NodeConfiguration where
  node := ⟨id,"http://control","/data/node","default",⟨true,true⟩⟩
  build := ⟨2,1800,false⟩
  serve := { host := "0.0.0.0", port := 8080, publicBaseUrl := "http://worker", metadataCacheTtlSeconds := 30,
             artifactCacheRoot := "/data/cache", capacity := ⟨1000,1000,1000,10⟩, ssr := ⟨300,30⟩ }
  runtime := ⟨"docker-socket","/run/docker.sock","build:1","serve:1","grass",⟨1,512⟩⟩
  security := { privateRepositoryTargets := [] }
  development := ⟨false⟩
  log := ⟨"info",.json⟩

def sampleRegistration (revision : Nat) (configuration : NodeConfiguration) : RegisterNodeParams where
  name := "worker"
  region := "default"
  version := "1.0.0"
  buildEnabled := true
  serveEnabled := true
  buildConcurrency := 2
  baseUrl := some "http://worker"
  resources := some ⟨1000,1000,1000,10⟩
  configRevision := revision
  effectiveConfig := some configuration
  nodeTokenConfigured := true

private def at' (now : Timestamp) : Input := { instant := { now }, regions := ["default"] }

/-- A node registers, is given another configuration and registers again before it has applied it. -/
theorem configuration_is_kept_over_registrations :
    let old := sampleConfiguration "first"
    let new := sampleConfiguration "second"
    let events : List (Event Request Input) :=
      [.arrive (.activity 1 (.register (sampleRegistration 1 old))),.resume 0 (at' 1),.resume 0 (at' 2),
        .arrive (.updateConfiguration 1 new 7),.resume 0 (at' 3),
        .arrive (.activity 1 (.register (sampleRegistration 1 old))),.resume 0 (at' 4),.resume 0 (at' 5)]
    ((run (machine sampleParsers).step ⟨NodeDrain.oneWorker,[]⟩ events).shared.nodes.find 1).map desired =
        some (some ⟨new,2⟩) ∧
      KeepsConfiguration sampleParsers 1 ⟨NodeDrain.oneWorker,[]⟩ events :=
  ⟨by decide,configuration_is_kept sampleParsers 1 _ _ (by decide)⟩

/-- A registration authenticated before an update is written after it and takes it back. -/
theorem late_registration_takes_update_back : ¬∀ (parsers : Parsers) (nodeId : Uuid) (start : Database)
    (events : List (Event Request Input)), KeepsConfiguration parsers nodeId ⟨start,[]⟩ events := by
  intro claimed
  let old := sampleConfiguration "first"
  let new := sampleConfiguration "second"
  let events : List (Event Request Input) :=
    [.arrive (.activity 1 (.register (sampleRegistration 1 old))),.resume 0 (at' 1),.resume 0 (at' 2),
      .arrive (.activity 1 (.register (sampleRegistration 1 old))),.resume 0 (at' 3),
      .arrive (.updateConfiguration 1 new 7),.resume 1 (at' 4),.resume 0 (at' 5)]
  obtain ⟨last,found,settled⟩ := (claimed sampleParsers 1 NodeDrain.oneWorker events).settled NodeDrain.worker rfl
  have updates : observed (machine sampleParsers).step (committed sampleParsers 1) ⟨NodeDrain.oneWorker,[]⟩ events =
      [⟨new,2⟩] := by decide
  have taken : ((run (machine sampleParsers).step ⟨NodeDrain.oneWorker,[]⟩ events).shared.nodes.find 1).map desired =
      some (some ⟨old,1⟩) := by decide
  rw [updates] at settled
  have newest := settled.newest (.inr (by simp))
  rw [found,Option.map_some,newest] at taken
  exact absurd taken (by decide)

end GrassWorker.NodeConfigurations
