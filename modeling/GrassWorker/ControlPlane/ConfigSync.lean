import GrassWorker.ControlPlane.NodeConfigurations

/-! The configuration status of one node, which registers, beats and is configured in
turn. A registration brings a configuration, a heartbeat only the revision of one. -/
namespace GrassWorker.ConfigSync
open Runs Transaction Nodes NodeSettings NodeConfigurations
open NodeDrain (NodeActivity authenticatedNode report)

inductive Request
  | activity (activity : NodeActivity)
  | updateConfiguration (configuration : NodeConfiguration) (actor : Uuid)

structure Event where
  request : Request
  input : Input

structure State where
  database : Database
  /-- The configuration the node registered last. -/
  registered : Option Desired := none

def committing (input : Input) (transaction : Transaction Database String Unit) (db : Database) : Option Database :=
  if input.databaseFails then none else (transaction db).toOption.map Prod.snd

def registers : NodeActivity → Option Desired
  | .heartbeat _ => none
  | .register params => brought params

section Step
variable (parsers : Parsers) (nodeId : Uuid)

def reported (s : State) (input : Input) (activity : NodeActivity) : Option Database :=
  (authenticatedNode input.toInput s.database nodeId).bind fun node =>
    committing input (report input.toInput node activity) s.database

def step (s : State) (event : Event) : State :=
  match event.request with
  | .activity activity =>
    match reported nodeId s event.input activity with
    | some after => ⟨after,(registers activity).or s.registered⟩
    | none => s
  | .updateConfiguration configuration actor =>
    match committing event.input (do
        let _ ← updateConfiguration parsers event.input.regions actor nodeId configuration event.input.instant.now)
        s.database with
    | some after => { s with database := after }
    | none => s

end Step

/-- Applied means that the node registered what is desired of it, under its revision. -/
def Applied (nodeId : Uuid) (s : State) : Prop :=
  ∀ row ∈ s.database.nodes.find nodeId, row.configSyncStatus = .applied → ∀ wanted ∈ desired row,
    s.registered = some wanted ∧ row.effectiveConfig = some wanted.configuration ∧
      row.effectiveConfigRevision = wanted.revision

/-- Failed, and the node registered another configuration under the desired revision. -/
def Mismatch (row : Node) (registered : Option Desired) : Prop :=
  row.configSyncStatus = .failed ∧ ∃ wanted ∈ desired row, ∃ held ∈ registered,
    held.revision = wanted.revision ∧ held.configuration ≠ wanted.configuration

instance (row : Node) (registered : Option Desired) : Decidable (Mismatch row registered) :=
  inferInstanceAs (Decidable (row.configSyncStatus = .failed ∧ ∃ wanted ∈ desired row, ∃ held ∈ registered,
    held.revision = wanted.revision ∧ held.configuration ≠ wanted.configuration))

def resolves (wanted : Option Desired) : Request → Prop
  | .updateConfiguration .. => True
  | .activity activity => (registers activity).isSome ∧ registers activity = wanted

def StaysVisible (parsers : Parsers) (nodeId : Uuid) (s : State) (event : Event) : Prop :=
  ∀ row ∈ s.database.nodes.find nodeId, Mismatch row s.registered → ¬resolves (desired row) event.request →
    ∃ next, (step parsers nodeId s event).database.nodes.find nodeId = some next ∧ next.configSyncStatus = .failed

/-- A heartbeat under the desired revision comes from a node that registered what is desired. While a
mismatch stands, heartbeats only say that the desired revision could not be applied and
registrations stay with that revision. -/
def honest (row : Node) (registered : Option Desired) : Request → Prop
  | .activity (.heartbeat heartbeat) =>
    (row.desiredConfig.isSome ∧ heartbeat.effectiveConfigRevision = row.desiredConfigRevision.toNat →
      registered = desired row) ∧
    (Mismatch row registered →
      heartbeat.applyingConfigRevision = some row.desiredConfigRevision.toNat ∧ heartbeat.applyError.isSome)
  | .activity (.register params) =>
    Mismatch row registered → ∀ configuration ∈ brought params, configuration.revision = row.desiredConfigRevision
  | .updateConfiguration .. => True

instance : ∀ row registered request, Decidable (honest row registered request)
  | row, registered, .activity (.heartbeat heartbeat) =>
    inferInstanceAs (Decidable ((row.desiredConfig.isSome ∧
        heartbeat.effectiveConfigRevision = row.desiredConfigRevision.toNat → registered = desired row) ∧
      (Mismatch row registered →
        heartbeat.applyingConfigRevision = some row.desiredConfigRevision.toNat ∧ heartbeat.applyError.isSome)))
  | row, registered, .activity (.register params) =>
    inferInstanceAs (Decidable (Mismatch row registered →
      ∀ configuration ∈ brought params, configuration.revision = row.desiredConfigRevision))
  | _, _, .updateConfiguration .. => isTrue trivial

def Honest (nodeId : Uuid) (s : State) (event : Event) : Prop :=
  ∀ row ∈ s.database.nodes.find nodeId, honest row s.registered event.request

instance (nodeId : Uuid) (s : State) (event : Event) : Decidable (Honest nodeId s event) :=
  inferInstanceAs (Decidable (∀ row ∈ s.database.nodes.find nodeId, honest row s.registered event.request))

section Rows
variable {nodeId : Uuid} {s : State} {input : Input} {after : Database}

theorem committing_ensures {transaction : Transaction Database String Unit} {db : Database} {post : Database → Prop}
    (ran : committing input transaction db = some after) (ensured : Ensures transaction db fun _ after => post after) :
    post after := by
  unfold committing at ran
  split at ran
  · cases ran
  · cases outcome : transaction db with
    | error error =>
      rw [outcome] at ran
      cases ran
    | ok result =>
      rw [outcome] at ran
      cases ran
      exact ensured _ _ outcome

theorem reported_read {activity : NodeActivity} (ran : reported nodeId s input activity = some after) :
    ∃ row, s.database.nodes.find nodeId = some row ∧ row.id = nodeId ∧
      committing input (report input.toInput row activity) s.database = some after := by
  obtain ⟨row,authenticated,ran⟩ := Option.bind_eq_some_iff.mp ran
  unfold authenticatedNode at authenticated
  split at authenticated
  · cases authenticated
  · obtain ⟨read,_⟩ := Option.filter_eq_some_iff.mp authenticated
    obtain ⟨found,_⟩ := Option.filter_eq_some_iff.mp read
    exact ⟨row,found,Table.find_key found,ran⟩

theorem reported_heartbeat {heartbeat : HeartbeatRequest} (ran : reported nodeId s input (.heartbeat heartbeat) = some after) :
    ∃ row, s.database.nodes.find nodeId = some row ∧
      after.nodes.find nodeId = some (heartbeatColumns row heartbeat input.instant.now heartbeat.effectiveConfigRevision row) := by
  obtain ⟨row,found,rfl,committed⟩ := reported_read ran
  refine ⟨row,found,?_⟩
  apply committing_ensures committed
  simp only [report,recordHeartbeat,ensures_bind,ensures_ofExcept,ensures_pure]
  intro revision converted
  have same : revision = heartbeat.effectiveConfigRevision := by
    unfold tryFrom at converted
    split at converted
    · exact (Except.ok.inj converted).symm
    · cases converted
  refine (ensures_updateNode _ _ _ _ _).mpr ?_
  intro nodes _ updated _
  rw [Table.find_update updated,if_pos rfl,found,same]
  rfl

theorem reported_register {params : RegisterNodeParams} (ran : reported nodeId s input (.register params) = some after) :
    ∃ row, s.database.nodes.find nodeId = some row ∧ ∃ config resources,
      registrationConfigState input.instant.now row params.configRevision params.effectiveConfig params.nodeTokenConfigured =
        .ok config ∧
      after.nodes.find nodeId = some (registrationColumns input.instant.now row params config resources row) := by
  obtain ⟨row,found,rfl,committed⟩ := reported_read ran
  refine ⟨row,found,?_⟩
  apply committing_ensures committed
  simp only [report,applyRegistration,ensures_bind,ensures_require,ensures_ofExcept,NodeDrain.registered,ensures_modify]
  intro _ config prepared resources _
  refine (ensures_updateNode _ _ _ _ _).mpr ?_
  intro nodes _ updated _
  refine ⟨config,resources,prepared,?_⟩
  rw [Table.find_update updated,if_pos rfl,found]
  rfl

end Rows

section States
variable {now : Timestamp} {node row : Node} {heartbeat : HeartbeatRequest}

theorem configSyncStateForHeartbeat_applied (applied : (configSyncStateForHeartbeat node heartbeat).1 = .applied) :
    node.desiredConfig.isSome ∧ heartbeat.effectiveConfigRevision = node.desiredConfigRevision.toNat := by
  simp only [configSyncStateForHeartbeat] at applied
  split at applied
  · assumption
  · split at applied
    · split at applied <;> cases applied
    · cases applied

theorem configSyncStateForHeartbeat_failed
    (other : ¬(node.desiredConfig.isSome ∧ heartbeat.effectiveConfigRevision = node.desiredConfigRevision.toNat))
    (applying : heartbeat.applyingConfigRevision = some node.desiredConfigRevision.toNat)
    (failing : heartbeat.applyError.isSome) : (configSyncStateForHeartbeat node heartbeat).1 = .failed := by
  obtain ⟨error,reported⟩ := Option.isSome_iff_exists.mp failing
  simp only [configSyncStateForHeartbeat]
  rw [if_neg other,if_pos applying,reported]

structure Recorded (node : Node) (held : Desired) (config : RegistrationConfigState) : Prop where
  effective : config.effective = some held.configuration
  revision : config.effectiveRevision = held.revision
  first : node.desiredConfig = none → config.desired = some held.configuration ∧ config.desiredRevision = held.revision
  applied : config.status = .applied → (desired node).isSome → desired node = some held
  failed : ∀ wanted ∈ desired node, held.revision = wanted.revision → held ≠ wanted → config.status = .failed

theorem registrationConfigState_recorded {params : RegisterNodeParams} {config : RegistrationConfigState} {held : Desired}
    (bringing : brought params = some held)
    (prepared : registrationConfigState now node params.configRevision params.effectiveConfig params.nodeTokenConfigured =
      .ok config) : Recorded node held config := by
  obtain ⟨effective,given,rfl⟩ := Option.map_eq_some_iff.mp bringing
  rw [given] at prepared
  obtain ⟨revision,converted,prepared⟩ := Checks.bind_eq_ok.mp prepared
  have same : revision = params.configRevision := by
    unfold tryFrom at converted
    split at converted
    · exact (Except.ok.inj converted).symm
    · cases converted
  subst same
  cases wanted : node.desiredConfig with
  | none =>
    rw [wanted] at prepared
    cases prepared
    have nothing : desired node = none := by simp [desired,wanted]
    exact ⟨rfl,rfl,fun _ => ⟨rfl,rfl⟩,by simp [nothing],by simp [nothing]⟩
  | some configuration =>
    have known : desired node = some ⟨configuration,node.desiredConfigRevision⟩ := by simp [desired,wanted]
    have distinct : ∀ other ∈ desired node, other = ⟨configuration,node.desiredConfigRevision⟩ := by
      intro other member
      rw [known] at member
      exact (Option.some.inj member).symm
    rw [wanted] at prepared
    dsimp only at prepared
    by_cases revision : (params.configRevision : Int) = node.desiredConfigRevision
    · by_cases content : configuration = effective
      · rw [if_pos ⟨revision,content⟩] at prepared
        cases prepared
        refine ⟨rfl,rfl,by simp [wanted],fun _ _ => by rw [known,revision,content],?_⟩
        intro other member _ different
        rw [distinct other member,content,← revision] at different
        exact absurd rfl different
      · rw [if_neg fun both => content both.2,if_pos revision] at prepared
        cases prepared
        exact ⟨rfl,rfl,by simp [wanted],by simp,fun _ _ _ _ => rfl⟩
    · rw [if_neg fun both => revision both.1,if_neg revision] at prepared
      cases prepared
      refine ⟨rfl,rfl,by simp [wanted],by simp,fun other member same => ?_⟩
      rw [distinct other member] at same
      exact absurd same revision

end States

structure Invariant (nodeId : Uuid) (s : State) : Prop where
  nonnegative : ∀ held ∈ s.registered, 0 ≤ held.revision
  effective : ∀ row ∈ s.database.nodes.find nodeId, ∀ held ∈ s.registered, row.effectiveConfig = some held.configuration
  applied : Applied nodeId s

section Steps
variable (parsers : Parsers) {nodeId : Uuid} {s : State} {input : Input} {after : Database}

theorem updateConfiguration_pending (regions : List String) (actor nodeId : Uuid) (configuration : NodeConfiguration)
    (now : Timestamp) (db : Database) :
    Ensures (updateConfiguration parsers regions actor nodeId configuration now) db fun _ after =>
      ∃ row, db.nodes.find nodeId = some row ∧ ∃ next, after.nodes.find nodeId = some next ∧
        next.configSyncStatus = .pending ∧ next.effectiveConfig = row.effectiveConfig := by
  simp only [updateConfiguration,ensures_bind,ensures_query,ensures_orElse,ensures_require,ensures_ofExcept,
    ensures_modify,ensures_pure]
  intro _ _ node read _ usage _ _ _ prepared prepares
  refine (ensures_updateNode _ _ _ _ _).mpr ?_
  intro nodes updated written _
  obtain ⟨_,_,prepares⟩ := Checks.bind_eq_ok.mp prepares
  obtain ⟨revision,_,prepares⟩ := Checks.bind_eq_ok.mp prepares
  cases prepares
  obtain ⟨present,_⟩ := Option.filter_eq_some_iff.mp read
  refine ⟨node,present,preparedColumns ⟨configuration,revision,.pending,none,now⟩ node,?_,rfl,rfl⟩
  rw [Table.find_update written,if_pos rfl,present]
  rfl

theorem heartbeat_invariant {heartbeat : HeartbeatRequest} (holds : Invariant nodeId s)
    (meets : ∀ row ∈ s.database.nodes.find nodeId, honest row s.registered (.activity (.heartbeat heartbeat)))
    (ran : reported nodeId s input (.heartbeat heartbeat) = some after) : Invariant nodeId ⟨after,s.registered⟩ := by
  obtain ⟨row,found,written⟩ := reported_heartbeat ran
  refine ⟨holds.nonnegative,?_,?_⟩
  · intro next member held registered
    rw [written] at member
    cases member
    exact holds.effective row found held registered
  · intro next member applied wanted known
    rw [written] at member
    cases member
    have same := configSyncStateForHeartbeat_applied applied
    have registered : s.registered = some wanted := ((meets row found).1 same).trans known
    have nonnegative := holds.nonnegative wanted registered
    obtain ⟨_,_,rfl⟩ := Option.map_eq_some_iff.mp known
    refine ⟨registered,holds.effective row found _ registered,?_⟩
    change (heartbeat.effectiveConfigRevision : Int) = row.desiredConfigRevision
    rw [same.2]
    exact Int.toNat_of_nonneg nonnegative

theorem register_unchanged {params : RegisterNodeParams} {row : Node} {config : RegistrationConfigState}
    (nothing : brought params = none)
    (prepared : registrationConfigState input.instant.now row params.configRevision params.effectiveConfig
      params.nodeTokenConfigured = .ok config) : config = unchangedConfigState row := by
  have absent := Option.map_eq_none_iff.mp nothing
  rw [absent] at prepared
  exact (Except.ok.inj prepared).symm

theorem register_invariant {params : RegisterNodeParams} (holds : Invariant nodeId s)
    (ran : reported nodeId s input (.register params) = some after) :
    Invariant nodeId ⟨after,(brought params).or s.registered⟩ := by
  obtain ⟨row,found,config,resources,prepared,written⟩ := reported_register ran
  cases bringing : brought params with
  | none =>
    obtain rfl := register_unchanged bringing prepared
    refine ⟨holds.nonnegative,?_,?_⟩
    · intro next member held registered
      rw [written] at member
      cases member
      exact holds.effective row found held registered
    · intro next member applied wanted known
      rw [written] at member
      cases member
      exact holds.applied row found applied wanted known
  | some held =>
    have recorded := registrationConfigState_recorded bringing prepared
    refine ⟨?_,?_,?_⟩
    · intro other same
      cases same
      obtain ⟨_,_,rfl⟩ := Option.map_eq_some_iff.mp bringing
      exact Int.natCast_nonneg _
    · intro next member other same
      rw [written] at member
      cases member
      cases same
      exact recorded.effective
    · intro next member applied wanted known
      rw [written] at member
      cases member
      have before := registrationConfigState_desired prepared
      have same : held = wanted := by
        cases already : desired row with
        | none =>
          rw [already,Option.none_or,bringing] at before
          exact Option.some.inj (before.symm.trans known)
        | some other =>
          have matched := recorded.applied applied (by rw [already]; rfl)
          rw [matched,Option.some_or] at before
          exact Option.some.inj (before.symm.trans known)
      exact ⟨by rw [same]; rfl,by rw [← same]; exact recorded.effective,by rw [← same]; exact recorded.revision⟩

theorem step_invariant (s : State) (event : Event) (holds : Invariant nodeId s) (meets : Honest nodeId s event) :
    Invariant nodeId (step parsers nodeId s event) := by
  obtain ⟨request,input⟩ := event
  cases request with
  | activity activity =>
    simp only [step]
    cases ran : reported nodeId s input activity with
    | none => exact holds
    | some after =>
      cases activity with
      | heartbeat heartbeat => exact heartbeat_invariant holds meets ran
      | register params => exact register_invariant holds ran
  | updateConfiguration configuration actor =>
    simp only [step]
    split
    · rename_i after ran
      obtain ⟨row,found,next,written,pending,same⟩ : ∃ row, s.database.nodes.find nodeId = some row ∧
          ∃ next, after.nodes.find nodeId = some next ∧ next.configSyncStatus = .pending ∧
            next.effectiveConfig = row.effectiveConfig := by
        apply committing_ensures ran
        simp only [ensures_bind,ensures_pure]
        exact updateConfiguration_pending parsers _ actor nodeId configuration _ s.database
      refine ⟨holds.nonnegative,?_,?_⟩
      · intro other member held registered
        rw [written] at member
        cases member
        rw [same]
        exact holds.effective row found held registered
      · intro other member applied
        rw [written] at member
        cases member
        rw [pending] at applied
        cases applied
    · exact holds

theorem step_visible (s : State) (event : Event) (meets : Honest nodeId s event) : StaysVisible parsers nodeId s event := by
  intro row found mismatch unresolved
  obtain ⟨request,input⟩ := event
  have honest := meets row found
  cases request with
  | updateConfiguration => exact absurd trivial unresolved
  | activity activity =>
    simp only [step]
    cases ran : reported nodeId s input activity with
    | none => exact ⟨row,found,mismatch.1⟩
    | some after =>
      cases activity with
      | heartbeat heartbeat =>
        obtain ⟨read,present,written⟩ := reported_heartbeat ran
        obtain rfl := Option.some.inj (found.symm.trans present)
        refine ⟨_,written,?_⟩
        obtain ⟨applying,failing⟩ := honest.2 mismatch
        refine configSyncStateForHeartbeat_failed (fun same => ?_) applying failing
        obtain ⟨_,wanted,known,held,registered,_,different⟩ := mismatch
        rw [honest.1 same,known] at registered
        exact different (congrArg Desired.configuration (Option.some.inj registered).symm)
      | register params =>
        obtain ⟨read,present,config,resources,prepared,written⟩ := reported_register ran
        obtain rfl := Option.some.inj (found.symm.trans present)
        refine ⟨_,written,?_⟩
        cases bringing : brought params with
        | none =>
          rw [register_unchanged bringing prepared]
          exact mismatch.1
        | some held =>
          obtain ⟨_,wanted,known,_⟩ := id mismatch
          have revision : held.revision = wanted.revision := by
            rw [honest mismatch held bringing]
            obtain ⟨_,_,rfl⟩ := Option.map_eq_some_iff.mp known
            rfl
          refine (registrationConfigState_recorded bringing prepared).failed wanted known revision ?_
          rintro rfl
          exact unresolved ⟨by rw [registers,bringing]; rfl,by rw [registers,bringing,known]⟩

/-- Applied means applied, and a mismatch that was recorded stays in sight, if heartbeats name
the desired revision only when what is desired was registered. -/
theorem applied_means_applied (nodeId : Uuid) (start : Database) (events : List Event)
    (unset : ∀ row ∈ start.nodes.find nodeId, row.desiredConfig = none)
    (meets : Along (step parsers nodeId) (Honest nodeId) ⟨start,none⟩ events) :
    Throughout (step parsers nodeId) (Applied nodeId) ⟨start,none⟩ events ∧
      Along (step parsers nodeId) (StaysVisible parsers nodeId) ⟨start,none⟩ events := by
  have begun : Invariant nodeId ⟨start,none⟩ := by
    refine ⟨by simp,by simp,?_⟩
    intro row member _ wanted known
    simp [desired,unset row member] at known
  refine ⟨?_,along_imp (fun s event => step_visible parsers s event) _ _ meets⟩
  exact throughout_of_invariant (step_invariant parsers) (fun _ => Invariant.applied) _ _ begun meets

end Steps

private def registering (revision : Nat) (name : String) : Event :=
  ⟨.activity (.register (sampleRegistration revision (sampleConfiguration name))),{ regions := ["default"] }⟩

private def beating (revision : Nat) : Event :=
  ⟨.activity (.heartbeat { effectiveConfigRevision := revision }),{ regions := ["default"] }⟩

private def configuring (name : String) : Event :=
  ⟨.updateConfiguration (sampleConfiguration name) 7,{ regions := ["default"] }⟩

/-- A node that registers, is configured, restarts with the new configuration and beats under it. -/
theorem applied_means_applied_after_restart :
    let events := [registering 1 "first",beating 1,configuring "second",beating 1,registering 2 "second",beating 2]
    Throughout (step sampleParsers 1) (Applied 1) ⟨NodeDrain.oneWorker,none⟩ events ∧
      Along (step sampleParsers 1) (StaysVisible sampleParsers 1) ⟨NodeDrain.oneWorker,none⟩ events :=
  applied_means_applied sampleParsers 1 NodeDrain.oneWorker _ (by decide) (by decide +kernel)

/-- A node registers its old configuration under the new revision, and then beats under that revision. -/
theorem heartbeat_hides_mismatch : ¬∀ (parsers : Parsers) (nodeId : Uuid) (start : Database) (events : List Event),
    (∀ row ∈ start.nodes.find nodeId, row.desiredConfig = none) →
      Throughout (step parsers nodeId) (Applied nodeId) ⟨start,none⟩ events ∧
        Along (step parsers nodeId) (StaysVisible parsers nodeId) ⟨start,none⟩ events := by
  intro claimed
  have applied := (claimed sampleParsers 1 NodeDrain.oneWorker
    [registering 1 "first",configuring "second",registering 2 "first",beating 2] (by decide)).1.last
  have registered : (run (step sampleParsers 1) ⟨NodeDrain.oneWorker,none⟩
      [registering 1 "first",configuring "second",registering 2 "first",beating 2]).registered =
      some ⟨sampleConfiguration "first",2⟩ := by decide +kernel
  have shown : ((run (step sampleParsers 1) ⟨NodeDrain.oneWorker,none⟩
      [registering 1 "first",configuring "second",registering 2 "first",beating 2]).database.nodes.find 1).map
      (fun row => (row.configSyncStatus,desired row)) = some (.applied,some ⟨sampleConfiguration "second",2⟩) := by
    decide +kernel
  generalize run (step sampleParsers 1) ⟨NodeDrain.oneWorker,none⟩
    [registering 1 "first",configuring "second",registering 2 "first",beating 2] = last at applied registered shown
  obtain ⟨row,found,shown⟩ := Option.map_eq_some_iff.mp shown
  have status : row.configSyncStatus = .applied := congrArg Prod.fst shown
  have wanted : desired row = some ⟨sampleConfiguration "second",2⟩ := congrArg Prod.snd shown
  have same := (applied row found status _ wanted).1
  rw [registered] at same
  exact absurd (congrArg (Option.map (·.configuration.node.id)) same) (by decide)

end GrassWorker.ConfigSync
