import GrassWorker.Node.RouteTable
import GrassWorker.Foundations.Runs

/-! Refreshes and removals one after the other, as the refresh lock orders them, and
the routes a node may look up after any of them. -/
namespace GrassWorker.RouteTable
open Routes Validator Runs

def clear (current : RouteSnapshot) : RouteSnapshot × Bool :=
  ({},current.revision.isSome || !current.routes.isEmpty)

/-- Without its revision the table takes the next snapshot whatever revision that has. -/
def removeDeployment (current : RouteSnapshot) (deploymentId : Uuid) : RouteSnapshot × Bool :=
  let routes := current.routes.filter fun entry => entry.2.deploymentId ≠ deploymentId
  let changed := routes.length ≠ current.routes.length
  ({ revision := if changed then none else current.revision, routes },changed)

def lookup (current : RouteSnapshot) (host : String) : Option ServeRoute :=
  match normalizeHost host with
  | .error _ => none
  | .ok host => current.routes.lookup host

inductive Fetched
  | snapshot (revision : String) (routes : List ServeRoute)
  | authorizationRevoked
  | failed (problem : String)

def refreshRoutes (current : RouteSnapshot) : Fetched → Except String (RouteSnapshot × Bool)
  | .snapshot revision routes => apply current revision routes
  | .authorizationRevoked => .ok (clear current)
  | .failed problem => .error problem

inductive Event
  | refresh (fetched : Fetched)
  | remove (deploymentId : Uuid)

def step (current : RouteSnapshot) : Event → RouteSnapshot
  | .refresh fetched =>
    match refreshRoutes current fetched with
    | .ok (after,_) => after
    | .error _ => current
  | .remove deploymentId => (removeDeployment current deploymentId).1

/-! What a collected table holds. -/

section Collect
variable {table after : List (String × ServeRoute)} {routes : List ServeRoute}

theorem lookup_eq_none_iff_keys {host : String} : table.lookup host = none ↔ host ∉ table.map Prod.fst := by
  rw [List.lookup_eq_none_iff]
  simp only [List.mem_map,not_exists,not_and,bne_iff_ne,ne_eq]
  constructor
  · intro free entry member same
    exact free entry member same.symm
  · intro free entry member same
    exact free entry member same.symm

theorem lookup_iff_mem (keys : (table.map Prod.fst).Nodup) {host : String} {route : ServeRoute} :
    table.lookup host = some route ↔ (host,route) ∈ table := by
  induction table with
  | nil => simp
  | cons entry rest ih =>
    obtain ⟨fresh,distinct⟩ := List.nodup_cons.mp keys
    rw [List.lookup_cons]
    by_cases same : host = entry.1
    · subst same
      simp only [beq_self_eq_true,Option.some.injEq,List.mem_cons]
      constructor
      · intro found
        exact .inl (by rw [← found])
      · intro found
        rcases found with found | later
        · rw [← found]
        · exact absurd (List.mem_map_of_mem later) fresh
    · rw [beq_eq_false_iff_ne.mpr same]
      simp only [ih distinct,List.mem_cons]
      constructor
      · exact .inr
      · intro found
        rcases found with found | later
        · exact absurd (congrArg Prod.fst found) same
        · exact later

theorem collect_spec (ok : collect table routes = .ok after) (keys : (table.map Prod.fst).Nodup) :
    (after.map Prod.fst).Nodup ∧ ∀ host route, (host,route) ∈ after ↔
      (host,route) ∈ table ∨ ∃ sent ∈ routes, normalizeHost sent.host = .ok host ∧ route = { sent with host } := by
  induction routes generalizing table with
  | nil =>
    cases ok
    simp [keys]
  | cons first rest ih =>
    unfold collect at ok
    cases normal : normalizeHost first.host with
    | error problem =>
      rw [normal] at ok
      cases ok
    | ok named =>
      simp only [normal] at ok
      split at ok
      · cases ok
      · rename_i free
        have absent : named ∉ table.map Prod.fst := lookup_eq_none_iff_keys.mp (Option.not_isSome_iff_eq_none.mp free)
        have longer : (((named,{ first with host := named }) :: table).map Prod.fst).Nodup :=
          List.nodup_cons.mpr ⟨absent,keys⟩
        obtain ⟨distinct,content⟩ := ih ok longer
        refine ⟨distinct,fun host route => ?_⟩
        rw [content host route]
        simp only [List.mem_cons,Prod.mk.injEq,exists_eq_or_imp]
        constructor
        · intro found
          rcases found with (⟨rfl,rfl⟩ | held) | later
          · exact .inr (.inl ⟨normal,rfl⟩)
          · exact .inl held
          · exact .inr (.inr later)
        · intro found
          rcases found with held | ⟨same,rfl⟩ | later
          · exact .inl (.inr held)
          · rw [normal] at same
            cases same
            exact .inl (.inl ⟨rfl,rfl⟩)
          · exact .inr later

end Collect

/-! What a node has been told: the last snapshot it took and what was removed since. -/

structure Record where
  revision : Option String := none
  routes : List ServeRoute := []
  removed : List Uuid := []

def Record.Whole (record : Record) : Prop := ∀ sent ∈ record.routes, sent.deploymentId ∉ record.removed

open Classical in
/-- A snapshot is taken if its hosts are in order, except when it has the revision of
a record that is still whole. -/
noncomputable def Record.step (record : Record) : Event → Record
  | .refresh (.snapshot revision routes) =>
    if record.Whole ∧ record.revision = some revision then record
    else if Distinct routes then { revision := some revision, routes }
    else record
  | .refresh .authorizationRevoked => {}
  | .refresh (.failed _) => record
  | .remove deploymentId => { record with removed := deploymentId :: record.removed }

/-- The route a lookup of `host` may answer with. -/
def Record.Serves (record : Record) (host : String) (route : ServeRoute) : Prop :=
  ∃ sent ∈ record.routes, sent.deploymentId ∉ record.removed ∧ normalizeHost sent.host = .ok host ∧ route = { sent with host }

structure Represents (table : RouteSnapshot) (record : Record) : Prop where
  keys : (table.routes.map Prod.fst).Nodup
  distinct : Distinct record.routes
  routes : ∀ host route, (host,route) ∈ table.routes ↔ record.Serves host route
  revision : (record.Whole → table.revision = record.revision) ∧ (¬record.Whole → table.revision = none)

section Simulation
variable {table : RouteSnapshot} {record : Record}

theorem distinct_normal {routes : List ServeRoute} (distinct : Distinct routes) {sent : ServeRoute} (member : sent ∈ routes) :
    ∃ host, normalizeHost sent.host = .ok host := by
  obtain ⟨hosts,same,-⟩ := distinct
  induction same with
  | nil => cases member
  | cons normal _ ih =>
    rcases List.mem_cons.mp member with rfl | later
    · exact ⟨_,normal⟩
    · exact ih later

theorem represents_empty : Represents {} {} where
  keys := List.nodup_nil
  distinct := ⟨[],.nil,List.nodup_nil⟩
  routes := by simp [Record.Serves]
  revision := ⟨fun _ => rfl,fun _ => rfl⟩

theorem represents_snapshot {revision : String} {routes : List ServeRoute} {after : List (String × ServeRoute)}
    (collected : collect [] routes = .ok after) :
    Represents { revision := some revision, routes := after } { revision := some revision, routes } := by
  obtain ⟨keys,content⟩ := collect_spec collected List.nodup_nil
  have distinct : Distinct routes := by
    have found := collect_ok_iff.mp ⟨after,collected⟩
    simpa [Distinct] using found
  refine ⟨keys,distinct,fun host route => ?_,⟨fun _ => rfl,fun broken => ?_⟩⟩
  · rw [content host route]
    simp [Record.Serves]
  · exact absurd (fun sent _ => List.not_mem_nil) broken

theorem Represents.removed (represents : Represents table record) (deploymentId : Uuid) :
    Represents (removeDeployment table deploymentId).1 { record with removed := deploymentId :: record.removed } := by
  have kept : ∀ host route, (host,route) ∈ (removeDeployment table deploymentId).1.routes ↔
      (host,route) ∈ table.routes ∧ route.deploymentId ≠ deploymentId := by
    intro host route
    simp [removeDeployment]
  have unchanged : (removeDeployment table deploymentId).1.routes.length = table.routes.length ↔
      ∀ entry ∈ table.routes, entry.2.deploymentId ≠ deploymentId := by
    simp [removeDeployment,List.length_filter_eq_length_iff]
  refine ⟨?_,represents.distinct,?_,?_⟩
  · exact represents.keys.sublist (List.filter_sublist.map Prod.fst)
  · intro host route
    rw [kept,represents.routes]
    simp only [Record.Serves,List.mem_cons,not_or]
    constructor
    · rintro ⟨⟨sent,member,stays,normal,rfl⟩,other⟩
      exact ⟨sent,member,⟨other,stays⟩,normal,rfl⟩
    · rintro ⟨sent,member,⟨other,stays⟩,normal,rfl⟩
      exact ⟨⟨sent,member,stays,normal,rfl⟩,other⟩
  · by_cases same : (removeDeployment table deploymentId).1.routes.length = table.routes.length
    · -- no route of the deployment was left, so the record is whole exactly if it was before
      have absent := unchanged.mp same
      have stays : (removeDeployment table deploymentId).1.revision = table.revision :=
        if_neg fun changed => changed same
      have whole : ({ record with removed := deploymentId :: record.removed } : Record).Whole ↔ record.Whole := by
        constructor
        · intro whole sent member inside
          exact whole sent member (List.mem_cons_of_mem _ inside)
        · intro whole sent member inside
          rcases List.mem_cons.mp inside with removed | earlier
          · obtain ⟨host,normal⟩ := distinct_normal represents.distinct member
            have entry := (represents.routes host _).mpr ⟨sent,member,whole sent member,normal,rfl⟩
            exact absent _ entry removed
          · exact whole sent member earlier
      rw [stays,whole]
      exact represents.revision
    · have forgotten : (removeDeployment table deploymentId).1.revision = none := if_pos same
      have broken : ¬({ record with removed := deploymentId :: record.removed } : Record).Whole := by
        intro whole
        apply same
        apply unchanged.mpr
        rintro ⟨host,route⟩ member removed
        obtain ⟨sent,inside,_,_,rfl⟩ := (represents.routes host route).mp member
        exact whole sent inside (removed ▸ List.mem_cons_self)
      exact ⟨fun whole => absurd whole broken,fun _ => forgotten⟩

theorem Represents.revision_iff (represents : Represents table record) (revision : String) :
    table.revision = some revision ↔ record.Whole ∧ record.revision = some revision := by
  by_cases whole : record.Whole
  · rw [represents.revision.1 whole]
    simp [whole]
  · rw [represents.revision.2 whole]
    simp [whole]

theorem Represents.step (represents : Represents table record) (event : Event) :
    Represents (step table event) (record.step event) := by
  cases event with
  | remove deploymentId => exact represents.removed deploymentId
  | refresh fetched =>
    cases fetched with
    | authorizationRevoked => exact represents_empty
    | failed problem => exact represents
    | snapshot revision routes =>
      have skipped := represents.revision_iff revision
      simp only [RouteTable.step,Record.step,refreshRoutes]
      by_cases current : table.revision = some revision
      · rw [if_pos (skipped.mp current)]
        unfold apply
        rw [if_pos current]
        exact represents
      · rw [if_neg fun found => current (skipped.mpr found)]
        have accepted := @apply_ok_iff routes table revision current
        unfold apply at accepted ⊢
        rw [if_neg current] at accepted ⊢
        cases collected : collect [] routes with
        | error problem =>
          rw [collected] at accepted
          have invalid : ¬Distinct routes := by
            intro valid
            obtain ⟨outcome,ok⟩ := accepted.mpr valid
            cases ok
          rw [if_neg invalid]
          exact represents
        | ok after =>
          rw [collected] at accepted
          rw [if_pos (accepted.mp ⟨_,rfl⟩)]
          exact represents_snapshot collected

end Simulation

section Runs
variable (events : List Event)

/-- The table after a run from an empty one, and what the node has been told by then. -/
def tableAfter : RouteSnapshot := run step {} events

noncomputable def recordAfter : Record := run Record.step {} events

theorem represents_run : Represents (tableAfter events) (recordAfter events) := by
  have along : ∀ table record, Represents table record → Represents (run step table events) (run Record.step record events) := by
    induction events with
    | nil => exact fun _ _ represents => represents
    | cons event rest ih => exact fun _ _ represents => ih _ _ (represents.step event)
  exact along {} {} represents_empty

variable {events}

theorem lookup_tableAfter {host : String} {route : ServeRoute} : lookup (tableAfter events) host = some route ↔
    ∃ normal, normalizeHost host = .ok normal ∧ (recordAfter events).Serves normal route := by
  have represents := represents_run events
  unfold lookup
  cases named : normalizeHost host with
  | error problem => simp
  | ok normal =>
    rw [lookup_iff_mem represents.keys,represents.routes]
    simp

end Runs

section Steps
variable {current : RouteSnapshot} {revision : String} {routes : List ServeRoute}

def Takes (current : RouteSnapshot) (routes : List ServeRoute) : Event → Prop
  | .refresh (.snapshot revision sent) => sent = routes ∧ ∃ after, apply current revision sent = .ok (after,true)
  | _ => False

theorem takes_iff : Takes current routes (.refresh (.snapshot revision routes)) ↔
    Distinct routes ∧ current.revision ≠ some revision := by
  simp only [Takes,true_and]
  by_cases same : current.revision = some revision
  · simp [apply,same]
  · rw [← @apply_ok_iff routes current revision same]
    unfold apply
    rw [if_neg same]
    cases collect [] routes <;> simp [same,bind,Except.bind,pure,Except.pure]

theorem step_invalid (invalid : ¬Distinct routes) : step current (.refresh (.snapshot revision routes)) = current := by
  simp only [step,refreshRoutes]
  by_cases same : current.revision = some revision
  · simp [apply,same]
  · cases outcome : apply current revision routes with
    | error problem => rfl
    | ok after => exact absurd ((apply_ok_iff same).mp ⟨after,outcome⟩) invalid

end Steps

section Withdrawal
variable {record : Record} {deploymentId : Uuid}

def Record.Withdrawn (record : Record) (deploymentId : Uuid) : Prop :=
  ∀ sent ∈ record.routes, sent.deploymentId = deploymentId → deploymentId ∈ record.removed

theorem not_serves_of_withdrawn (withdrawn : record.Withdrawn deploymentId) {host : String} {route : ServeRoute}
    (serves : record.Serves host route) : route.deploymentId ≠ deploymentId := by
  obtain ⟨sent,member,stays,_,rfl⟩ := serves
  intro same
  exact stays (same ▸ withdrawn sent member same)

theorem withdrawn_step {table : RouteSnapshot} (represents : Represents table record) (event : Event)
    (withdrawn : record.Withdrawn deploymentId)
    (kept : ∀ routes, Takes table routes event → ∀ sent ∈ routes, sent.deploymentId ≠ deploymentId) :
    (record.step event).Withdrawn deploymentId := by
  cases event with
  | remove other => exact fun sent member same => List.mem_cons_of_mem _ (withdrawn sent member same)
  | refresh fetched =>
    cases fetched with
    | authorizationRevoked => exact fun sent member => absurd member List.not_mem_nil
    | failed problem => exact withdrawn
    | snapshot revision routes =>
      simp only [Record.step]
      split
      · exact withdrawn
      · rename_i other
        split
        · rename_i valid
          have taken := takes_iff.mpr ⟨valid,fun same => other ((represents.revision_iff revision).mp same)⟩
          exact fun sent member same => absurd same (kept routes taken sent member)
        · exact withdrawn

theorem tableAfter_snoc (events : List Event) (event : Event) :
    tableAfter (events ++ [event]) = step (tableAfter events) event := run_append _ events [event]

theorem recordAfter_snoc (events : List Event) (event : Event) :
    recordAfter (events ++ [event]) = (recordAfter events).step event := run_append _ events [event]

theorem returned_by_snapshot (events later : List Event) (deploymentId : Uuid)
    (returned : ¬(recordAfter (events ++ .remove deploymentId :: later)).Withdrawn deploymentId) :
    ∃ before event rest routes, later = before ++ event :: rest ∧
      Takes (tableAfter (events ++ .remove deploymentId :: before)) routes event ∧
      ∃ sent ∈ routes, sent.deploymentId = deploymentId := by
  induction later using List.reverseRecOn with
  | nil =>
    apply absurd _ returned
    rw [recordAfter_snoc]
    exact fun sent member same => List.mem_cons_self
  | append_singleton init last ih =>
    by_cases withdrawn : (recordAfter (events ++ .remove deploymentId :: init)).Withdrawn deploymentId
    · have step := withdrawn_step (represents_run _) last withdrawn
      rw [← recordAfter_snoc,List.append_assoc,List.cons_append] at step
      by_contra none
      refine returned (step fun routes taken sent member same => ?_)
      exact none ⟨init,last,[],routes,rfl,taken,sent,member,same⟩
    · obtain ⟨before,event,rest,routes,rfl,taken⟩ := ih withdrawn
      exact ⟨before,event,rest ++ [last],routes,by simp,taken⟩

end Withdrawal

structure Safe (events : List Event) : Prop where
  represents : Represents (tableAfter events) (recordAfter events)
  lookup : ∀ host route, lookup (tableAfter events) host = some route ↔
    ∃ normal, normalizeHost host = .ok normal ∧ (recordAfter events).Serves normal route
  taken : ∀ revision routes, Takes (tableAfter events) routes (.refresh (.snapshot revision routes)) ↔
    Distinct routes ∧ ¬((recordAfter events).Whole ∧ (recordAfter events).revision = some revision)
  invalid : ∀ revision routes, ¬Distinct routes →
    tableAfter (events ++ [.refresh (.snapshot revision routes)]) = tableAfter events
  revoked : tableAfter (events ++ [.refresh .authorizationRevoked]) = {}
  /-- A removed deployment comes back with a snapshot taken after the removal only. -/
  removed : ∀ deploymentId later host route,
    RouteTable.lookup (tableAfter (events ++ .remove deploymentId :: later)) host = some route →
    route.deploymentId = deploymentId →
    ∃ before event rest routes, later = before ++ event :: rest ∧
      Takes (tableAfter (events ++ .remove deploymentId :: before)) routes event ∧
      ∃ sent ∈ routes, sent.deploymentId = deploymentId
  /-- After the removal of a routed deployment every valid snapshot is taken, whatever its revision. -/
  reapplied : ∀ deploymentId host route revision routes,
    RouteTable.lookup (tableAfter events) host = some route → route.deploymentId = deploymentId → Distinct routes →
    Takes (tableAfter (events ++ [.remove deploymentId])) routes (.refresh (.snapshot revision routes))

theorem route_table_safe (events : List Event) : Safe events where
  represents := represents_run events
  lookup _ _ := lookup_tableAfter
  taken revision routes := by
    rw [takes_iff]
    exact and_congr_right fun _ => not_congr ((represents_run events).revision_iff revision)
  invalid revision routes invalid := by
    rw [tableAfter_snoc,step_invalid invalid]
  revoked := tableAfter_snoc events _
  removed deploymentId later host route found same := by
    obtain ⟨normal,_,serves⟩ := lookup_tableAfter.mp found
    apply returned_by_snapshot
    exact fun withdrawn => not_serves_of_withdrawn withdrawn serves same
  reapplied deploymentId host route revision routes found same valid := by
    obtain ⟨normal,_,sent,member,_,_,rfl⟩ := lookup_tableAfter.mp found
    apply takes_iff.mpr
    refine ⟨valid,fun current => ?_⟩
    obtain ⟨whole,_⟩ := ((represents_run _).revision_iff revision).mp current
    rw [recordAfter_snoc] at whole
    exact whole sent member (same ▸ List.mem_cons_self)

end GrassWorker.RouteTable
