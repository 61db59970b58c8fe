import GrassWorker.ControlPlane.Runs
import GrassWorker.Domain.ComposedHosts
import GrassWorker.Node.RouteTable

/-! Every snapshot a node is sent is one it takes, as long as no binding and no preview are
given the same host and no composed host is too long. -/
namespace GrassWorker.ControlPlane
open Interleaving Runs Transaction Hosts Routes Validator

def collides (db : Database) : Action → Bool
  | .createBinding request => db.deployments.rows.any fun row =>
    row.deletedAt = none ∧ row.previewHost = some request.host
  | .create params _ _ => params.previewHost.any fun host =>
    db.bindings.rows.any fun binding => binding.deletedAt = none ∧ binding.host = host
  | _ => false

def overlong (_ : Database) : Action → Bool
  | .createBinding request => 253 < request.host.toList.length
  | .create params _ _ => params.previewHost.any fun host => 253 < host.toList.length
  | _ => false

structure HostsSound (db : Database) : Prop where
  slugs : ∀ row ∈ db.projects.rows, Slug row.slug.toList
  bases : ∀ row ∈ db.sources.rows, Host row.baseDomain.toList
  bindings : ∀ row ∈ db.bindings.rows, Host row.host.toList
  previews : ∀ row ∈ db.deployments.rows, ∀ host, row.previewHost = some host → Host host.toList
  distinct : HostsDistinct db

def Action.hostSound : Action → Prop
  | .create params _ _ => ∀ host, params.previewHost = some host → Composed host
  | .createProject params _ => Slug params.slug.toList
  | .createSource params => Host params.baseDomain.toList
  | .createBinding request => Composed request.host
  | _ => True

def Handler.hostSound : Handler → Prop
  | .commit action _ => action.hostSound
  | .retryRead project _ _ | .createHost project _ _ _ _ | .assignSource project => Slug project.slug.toList
  | .bindSource _ _ host _ _ _ | .bindExisting _ _ host _ _ _ => Host host.toList
  | .bindFree request => Composed request.host
  | .assignFree project _ source _ => Slug project.slug.toList ∧ Host source.baseDomain.toList
  | .bindCommit request attempt => Composed request.host ∧ (attempt.isSome →
      Slug request.project.slug.toList ∧ ∀ source, request.source = some source → Host source.baseDomain.toList)
  | _ => True

def Progress.hostSound : Progress → Prop
  | .resume handler => handler.hostSound
  | .respond _ => True

/-! What a transaction leaves. -/

section Committed
variable {instant : Instant} {action : Action} {reply : Reply} {demoted : Option Uuid} {db after : Database}

theorem bindings_after (effect : Effect instant action reply demoted db after) {binding : HostBinding}
    (member : binding ∈ after.bindings.rows) :
    (∃ row ∈ db.bindings.rows, binding.host = row.host ∧ (binding.deletedAt = none → row.deletedAt = none)) ∨
      ∃ request, action = .createBinding request ∧ binding.host = request.host := by
  rcases effect.records.bindings.origin (Table.find_of_mem member) with ⟨row,found,host,live⟩ | ⟨_,request,same,rfl⟩
  · exact .inl ⟨row,Table.find_mem found,host,live⟩
  · exact .inr ⟨request,same,rfl⟩

theorem previews_after (effect : Effect instant action reply demoted db after) {next : Deployment}
    (member : next ∈ after.deployments.rows) :
    (∃ row ∈ db.deployments.rows, next.previewHost = row.previewHost ∧ next.deletedAt = row.deletedAt) ∨
      ∃ params selectedNode region, action = .create params selectedNode region ∧ next.previewHost = params.previewHost := by
  rcases effect.rows.origin (Table.find_of_mem member) with ⟨row,found,identity,_⟩ |
    ⟨_,params,selectedNode,region,_,same,rfl,_⟩
  · exact .inl ⟨row,Table.find_mem found,congrArg Identity.previewHost identity,congrArg Identity.deletedAt identity⟩
  · exact .inr ⟨params,selectedNode,region,same,rfl⟩

theorem distinct_after (effect : Effect instant action reply demoted db after) (distinct : HostsDistinct db)
    (apart : collides db action = false) : HostsDistinct after := by
  intro binding bound live next member alive named
  rcases bindings_after effect bound with ⟨old,present,host,lived⟩ | ⟨request,rfl,host⟩
  · rcases previews_after effect member with ⟨row,inside,preview,deleted⟩ | ⟨params,_,_,rfl,preview⟩
    · exact distinct old present (lived live) row inside (deleted ▸ alive) (by rw [← preview,named,host])
    · simp only [collides,← preview,named,Option.any_some,List.any_eq_false,decide_eq_true_eq] at apart
      exact apart old present ⟨lived live,host.symm⟩
  · rcases previews_after effect member with ⟨row,inside,preview,deleted⟩ | ⟨_,_,_,impossible,_⟩
    · simp only [collides,List.any_eq_false,decide_eq_true_eq] at apart
      exact apart row inside ⟨deleted ▸ alive,by rw [← preview,named,host]⟩
    · cases impossible

theorem HostsSound.commit (effect : Effect instant action reply demoted db after) (sound : HostsSound db)
    (own : action.hostSound) (apart : collides db action = false) (short : overlong db action = false) :
    HostsSound after where
  slugs row member := by
    rcases effect.records.projects.origin (Table.find_of_mem member) with ⟨old,found,slug,_⟩ | ⟨_,params,_,rfl,slug⟩
    · exact slug ▸ sound.slugs old (Table.find_mem found)
    · exact slug ▸ own
  bases row member := by
    rcases effect.records.sources.origin (Table.find_of_mem member) with ⟨old,found,rfl⟩ | ⟨_,params,rfl,base⟩
    · exact sound.bases _ (Table.find_mem found)
    · exact base ▸ own
  bindings row member := by
    rcases bindings_after effect member with ⟨old,present,host,_⟩ | ⟨request,rfl,host⟩
    · exact host ▸ sound.bindings old present
    · have fits : ¬253 < request.host.toList.length := by simpa [overlong] using short
      exact host ▸ own (by omega)
  previews row member host named := by
    rcases previews_after effect member with ⟨old,present,preview,_⟩ | ⟨params,_,_,rfl,preview⟩
    · exact sound.previews old present host (preview ▸ named)
    · have given := preview.symm.trans named
      have fits : ¬253 < host.toList.length := by simpa [overlong,given] using short
      exact own host given (by omega)
  distinct := distinct_after effect sound.distinct apart

end Committed

/-! What a handler goes on with. -/

section Sources
variable {db : Database} {source : HostSource}

theorem mem_listSources (member : source ∈ listSources db) : source ∈ db.sources.rows :=
  (List.mem_filter.mp ((List.mem_insertionSort _).mp member)).1

theorem selectAutoAssignSource_mem {sources : List HostSource} (chosen : selectAutoAssignSource sources = .source source) :
    source ∈ sources := by
  unfold selectAutoAssignSource at chosen
  split at chosen
  · cases chosen
  · rename_i only list
    cases chosen
    exact (List.mem_filter.mp (list ▸ List.mem_singleton_self _)).1
  · split at chosen
    · rename_i list
      cases chosen
      exact (List.mem_filter.mp (List.mem_filter.mp (list ▸ List.mem_singleton_self _)).1).1
    · cases chosen

theorem previewHostForProject_composed {project : Project} {fresh : Uuid} {host : String} (sound : HostsSound db)
    (slug : Slug project.slug.toList) (named : previewHostForProject db project fresh = some host) : Composed host := by
  unfold previewHostForProject at named
  split at named
  · rename_i source chosen
    cases named
    exact composed_previewHostFor slug (sound.bases source (mem_listSources (selectAutoAssignSource_mem chosen))) fresh
  · cases named

end Sources

section Advance
variable {input : Input} {world : World} {db : Database} {next : Progress}

theorem hostSound_read (ok : next.hostSound) : (read input next).hostSound := by
  unfold read
  split
  · trivial
  · exact ok

theorem hostSound_permitted (ok : next.hostSound) : (permitted input next).hostSound := by
  unfold permitted
  split
  · trivial
  · exact ok

theorem hostSound_ofAnswer {α : Type} {answer : Except AppError α} {next : α → Progress}
    (ok : ∀ value, answer = .ok value → (next value).hostSound) : (ofAnswer answer next).hostSound := by
  cases answer with
  | ok value => exact ok value rfl
  | error error => trivial

theorem access_mem {projectId : Uuid} {scope : Projects.ProjectScope} {project : Project} {team : Team}
    (found : Projects.access db projectId scope = .ok (project,team)) : project ∈ db.projects.rows := by
  unfold Projects.access at found
  split at found
  · cases found
  · rename_i row loaded
    split at found
    · cases found
    · cases found
      exact Table.find_mem (Option.filter_eq_some_iff.mp loaded).1

theorem callProject_hostSound {project : Project} {team : Team} {call : ProjectCall} (slug : Slug project.slug.toList) :
    (callProject project team call).hostSound := by
  cases call with
  | create => exact hostSound_ofAnswer fun _ _ => slug
  | retry => exact slug
  | bindHost host environment source region =>
    simp only [callProject]
    split
    · trivial
    · rename_i normal
      exact host_of_normalizeHost normal
  | _ => trivial

theorem begin_hostSound {call : Request} (sound : HostsSound db) : (begin db call).hostSound := by
  cases call with
  | node node call =>
    refine hostSound_ofAnswer fun _ _ => ?_
    cases call <;> trivial
  | project project call =>
    refine hostSound_ofAnswer fun found loaded => ?_
    exact callProject_hostSound (sound.slugs _ (access_mem loaded))
  | rollback =>
    simp only [begin]
    split <;> trivial
  | createProject =>
    simp only [begin]
    split
    · trivial
    · trivial
    · rename_i normal
      split
      · exact slug_of_normalizeSlug normal
      · trivial
  | createSource =>
    simp only [begin]
    split
    · trivial
    · rename_i normal
      exact host_of_normalizeHost normal
  | cancelStream => trivial
  | direct action =>
    obtain ⟨action,direct⟩ := action
    cases action <;> trivial

theorem createProject_reply {instant : Instant} {params : CreateProjectParams} {actor : Uuid} :
    Ensures ((Action.createProject params actor).run instant) db fun reply _ =>
      ∃ project, reply = .project project ∧ project.slug = params.slug := by
  simp only [Action.run,Hosts.createProject,ensures_bind,ensures_write,ensures_createAuditEvent,ensures_pure]
  intro project after written
  obtain ⟨projects,_,written⟩ := Option.bind_eq_some_iff.mp written
  cases written
  exact ⟨_,rfl,rfl⟩

theorem afterCommit_hostSound {instant : Instant} {action : Action} {others : List Deployment} {reply : Reply}
    {after : Database} (own : action.hostSound) (ran : action.run instant db = .ok (reply,after)) :
    (afterCommit others action reply).hostSound := by
  cases action with
  | createProject params actor =>
    obtain ⟨project,rfl,slug⟩ := createProject_reply reply after ran
    have sound : Slug project.slug.toList := slug ▸ own
    exact sound
  | report => cases reply <;> first | trivial | (rename_i ended; cases ended <;> trivial)
  | cancel =>
    simp only [afterCommit]
    split <;> trivial
  | claim => cases reply <;> first | trivial | (rename_i outcome; cases outcome <;> trivial)
  | create =>
    cases reply with
    | created deployment =>
      simp only [afterCommit]
      split <;> trivial
    | _ => trivial
  | _ => trivial

theorem refused_hostSound {request : BindHostRequest} {attempt : Option Nat} {error : AppError}
    (retry : attempt.isSome → Slug request.project.slug.toList ∧
      ∀ source, request.source = some source → Host source.baseDomain.toList) :
    (refused request attempt error).hostSound := by
  cases attempt with
  | none => trivial
  | some attempt =>
    obtain ⟨slug,bases⟩ := retry rfl
    simp only [refused,retryAssignment]
    split
    · rename_i source named
      split
      · exact ⟨slug,bases source named⟩
      · trivial
    · trivial

theorem bindFree_hostSound {request : BindHostRequest} {attempt : Option Nat} (composed : Composed request.host)
    (retry : attempt.isSome → Slug request.project.slug.toList ∧
      ∀ source, request.source = some source → Host source.baseDomain.toList) :
    (bindFree db request attempt).hostSound := by
  unfold bindFree
  split
  · exact refused_hostSound retry
  · exact ⟨composed,retry⟩

theorem advance_hostSound {handler : Handler} (sound : HostsSound world.db) (own : handler.hostSound) :
    (advance input world handler).2.hostSound := by
  cases handler with
  | arrived call => exact hostSound_read (hostSound_permitted (begin_hostSound sound))
  | commit action others =>
    simp only [advance]
    cases result : transact input action world.db with
    | error error => cases action <;> trivial
    | ok outcome =>
      obtain ⟨reply,after⟩ := outcome
      have commit : Commit input world.db (.commit action others) action reply after := ⟨rfl,result⟩
      exact afterCommit_hostSound own commit.runs
  | stageRead => exact hostSound_read (hostSound_ofAnswer fun _ _ => trivial)
  | stageFlag =>
    simp only [advance,stageFlag]
    split
    · split <;> trivial
    · trivial
  | stageSlot owned body =>
    simp only [advance,stageSlot]
    split
    · trivial
    · unfold stageAction
      split <;> trivial
  | stageRefresh owned body =>
    simp only [advance,stageAction]
    split <;> trivial
  | cancelRead =>
    refine hostSound_read ?_
    unfold cancelRead
    split <;> trivial
  | releaseMark =>
    simp only [advance]
    split <;> trivial
  | claimRead =>
    refine hostSound_read ?_
    unfold claimRead
    split
    · trivial
    · split <;> trivial
  | claimNext node candidates =>
    refine hostSound_read ?_
    cases candidates with
    | nil => trivial
    | cons => exact hostSound_ofAnswer fun _ _ => trivial
  | claimLimit => exact hostSound_read trivial
  | claimAcquire =>
    simp only [advance]
    split
    · trivial
    · split <;> trivial
  | claimTimeout =>
    simp only [advance]
    split <;> trivial
  | activateRead => exact hostSound_read (hostSound_ofAnswer fun _ _ => trivial)
  | activatePolicy => exact hostSound_read (hostSound_ofAnswer fun _ _ => trivial)
  | retryRead project deployment actor =>
    refine hostSound_read (hostSound_ofAnswer fun deployment _ => ?_)
    split
    · exact hostSound_ofAnswer fun _ _ => own
    · trivial
  | createHost project environment selectedNode region actor =>
    refine hostSound_permitted ?_
    intro host named
    split at named
    · cases named
    · exact previewHostForProject_composed sound own named
  | bindSource project team host environment source region =>
    refine hostSound_read (hostSound_permitted ?_)
    unfold bindSource
    split
    · exact own
    · split
      · trivial
      · split
        · trivial
        · split
          · trivial
          · exact own
  | bindExisting => exact hostSound_read (hostSound_permitted (composed_of_host own))
  | bindFree request => exact hostSound_read (hostSound_permitted (bindFree_hostSound own fun given => by cases given))
  | assignSource project =>
    simp only [advance]
    split
    · trivial
    · unfold assignSource
      split
      · rename_i source _ chosen
        exact ⟨own,sound.bases _ (mem_listSources (selectAutoAssignSource_mem chosen))⟩
      · trivial
  | assignFree project team source attempt =>
    obtain ⟨slug,base⟩ := own
    simp only [advance,assignFree]
    split
    · trivial
    · refine bindFree_hostSound (composed_platformHostCandidate slug base attempt input.instant.choice) fun _ => ?_
      refine ⟨slug,?_⟩
      intro other named
      cases named
      exact base
  | bindCommit request attempt =>
    obtain ⟨_,retry⟩ := own
    simp only [advance,afterBind]
    split
    · unfold bindingOutcome
      split <;> trivial
    · trivial
    · exact refused_hostSound retry
  | _ => trivial

end Advance

/-! Runs. -/

def SnapshotsAccepted (db : Database) : Prop :=
  ∀ requestingNode list, routes db requestingNode = .ok list →
    (list.map ServeRoute.host).Nodup ∧ (∀ route ∈ list, normalizeHost route.host = .ok route.host) ∧
      ∀ current revision, ∃ outcome, RouteTable.apply current revision list = .ok outcome

theorem HostsSound.accepted {db : Database} (sound : HostsSound db) : SnapshotsAccepted db := by
  intro requestingNode list snapshot
  have distinct := nodup_hosts sound.distinct snapshot
  have normal : ∀ route ∈ list, normalizeHost route.host = .ok route.host := by
    intro route listed
    have entry : route.entry ∈ list.map ServeRoute.entry := List.mem_map_of_mem listed
    obtain ⟨row,member,_,⟨_,named,_⟩ | ⟨binding,bound,_,name,_⟩⟩ := (mem_entries_routes snapshot).mp entry
    · exact normalizeHost_eq_self.mpr (sound.previews row member _ named)
    · rw [← name]
      exact normalizeHost_eq_self.mpr (sound.bindings binding bound)
  refine ⟨distinct,normal,fun current revision => ?_⟩
  by_cases known : current.revision = some revision
  · exact ⟨_,if_pos known⟩
  · exact (RouteTable.apply_ok_iff known).mpr (RouteTable.distinct_of_normal normal distinct)

section Runs

/-- What the hosts of the database are, and what the handlers in flight know of theirs. -/
abbrev Named : State → Prop := Holds (fun world => HostsSound world.db) fun _ handler => handler.hostSound

abbrev Apart (state : State) (event : Happening) : Prop := Acting (Avoids collides) state event

abbrev Fitting (state : State) (event : Happening) : Prop := Acting (Avoids overlong) state event

theorem named_step (state : State) (event : Happening) (named : Named state)
    (meets : Apart state event ∧ Fitting state event) : Named (machine.step state event) := by
  have both : Acting (fun input world handler => Avoids collides input world handler ∧ Avoids overlong input world handler)
      state event := by
    cases event with
    | arrive call => trivial
    | resume index input => exact fun handler found => ⟨meets.1 handler found,meets.2 handler found⟩
  refine Holds.step ?_ ?_ ?_ state event named both
  · intro world call _
    trivial
  · intro input world handler permitted sound own
    constructor
    · rcases advance_database input world handler with same | ⟨action,reply,commit⟩
      · exact same ▸ sound
      · obtain ⟨demoted,effect⟩ := commit.effect
        have acting : action.hostSound := by
          have acts := commit.acts
          cases handler with
          | commit own' others =>
            cases acts
            exact own
          | bindCommit request attempt =>
            cases acts
            exact own.1
          | _ => cases acts
        exact sound.commit effect acting (permitted.1.commit commit) (permitted.2.commit commit)
    · intro rest goes
      have next := @advance_hostSound input world handler sound own
      change (advance input world handler).2.handler = some rest at goes
      cases progress : (advance input world handler).2 with
      | respond answer =>
        rw [progress] at goes
        cases goes
      | resume following =>
        rw [progress] at goes next
        cases goes
        exact next
  · intro _ _ _ other _ _ _ kept
    exact kept

/-- In an installation that starts without projects every snapshot is accepted, if no binding and no live
preview are given one host and no host over 253 characters is composed. -/
theorem snapshots_accepted_of_apart (world : World) (events : List Happening)
    (projects : world.db.projects.rows = []) (sources : world.db.sources.rows = [])
    (bindings : world.db.bindings.rows = []) (deployments : world.db.deployments.rows = [])
    (apart : Along machine.step Apart (idle world) events) (short : Along machine.step Fitting (idle world) events) :
    Throughout machine.step (fun state => SnapshotsAccepted state.shared.db) (idle world) events := by
  have sound : HostsSound world.db := by
    constructor
    · simp [projects]
    · simp [sources]
    · simp [bindings]
    · simp [deployments]
    · simp [HostsDistinct,bindings]
  have start : Named (idle world) := ⟨sound,fun _ member => by cases member⟩
  exact throughout_of_invariant named_step (fun _ named => named.state.accepted) (idle world) events start
    (along_and apart short)

end Runs

section Examples
open Sample

def twoProjects : List Happening := createsSource "example" ++ publishes "shop" 3 1 ++ publishes "blog" 4 2

def sharedHost : List Happening := twoProjects ++
  serially (.project 4 (.bindHost "shop-00000001.example" .production (some 5) none)) 6 6

def longDomain : String := String.intercalate "." (List.replicate 4 (String.ofList (List.replicate 61 'a')))

def longHost : List Happening := createsSource longDomain ++ publishes "shop" 3 1

theorem not_accepted {db : Database}
    (rejected : (routes db node).map (fun list => (RouteTable.apply {} "revision" list).isOk) = .ok false) :
    ¬SnapshotsAccepted db := by
  intro accepted
  cases snapshot : routes db node with
  | error problem =>
    rw [snapshot] at rejected
    cases rejected
  | ok list =>
    obtain ⟨outcome,ok⟩ := (accepted node list snapshot).2.2 {} "revision"
    rw [snapshot] at rejected
    simp only [Except.map,ok] at rejected
    cases rejected

/-- One of the routes, before they are sorted, has a host of more than 253 bytes. -/
def ListsLong (db : Database) : Prop :=
  (addRoutes db (effectivePreviewIds (db.deployments.rows.filter routable))
    (hostsByProject db (db.deployments.rows.filter routable)) (db.deployments.rows.filter routable)).map
      (fun found => found.any fun route => 253 < route.host.utf8ByteSize) = .ok true

instance (db : Database) : Decidable (ListsLong db) := inferInstanceAs (Decidable (_ = _))

theorem not_accepted_of_long {db : Database} (listed : ListsLong db) : ¬SnapshotsAccepted db := by
  intro accepted
  unfold ListsLong at listed
  cases added : addRoutes db (effectivePreviewIds (db.deployments.rows.filter routable))
      (hostsByProject db (db.deployments.rows.filter routable)) (db.deployments.rows.filter routable) with
  | error problem =>
    rw [added] at listed
    cases listed
  | ok found =>
    rw [added] at listed
    obtain ⟨route,member,long⟩ := List.any_eq_true.mp (Except.ok.inj listed)
    have snapshot : routes db node = .ok (found.insertionSort fun left right => left.host ≤ right.host) := by
      simp only [routes,added]
      rfl
    have sorted := (List.perm_insertionSort (fun left right : ServeRoute => left.host ≤ right.host) found).mem_iff.mpr member
    have host := normalizeHost_eq_self.mp ((accepted node _ snapshot).2.1 route sorted)
    have bytes : route.host.utf8ByteSize = route.host.toList.length := by
      have plain := byteLength_of_ascii fun c inside => (host.character c inside).2.1.trans (by decide)
      rw [← plain]
      exact (byteLength_toList _).symm
    have short := host.short
    rw [decide_eq_true_eq,bytes] at long
    omega

theorem normal_longDomain : normalizeHost longDomain = .ok longDomain := by
  have text : longDomain = String.ofList wideDomain := by decide +kernel
  rw [text]
  exact normalizeHost_of_host host_wideDomain

section Requested
variable {baseDomain : String} {world : World} {events : List Happening}

abbrev sourceRequest (baseDomain : String) : Hosts.CreateHostSourceParams := ⟨.wildcard,baseDomain,"eu",true,true,true⟩

def requested (baseDomain : String) (world : World) : State := ⟨world,[.commit (.createSource (sourceRequest baseDomain)) []]⟩

theorem step_createsSource (normal : normalizeHost baseDomain = .ok baseDomain) (instant : Instant) :
    machine.step ⟨world,[.arrived (.createSource (sourceRequest baseDomain))]⟩ (.resume 0 { instant }) =
      requested baseDomain world := by
  have begun : begin world.db (.createSource (sourceRequest baseDomain)) = proceed (.createSource (sourceRequest baseDomain)) := by
    simp only [begin,normal]
  have step : machine.step ⟨world,[.arrived (.createSource (sourceRequest baseDomain))]⟩ (.resume 0 { instant }) =
      ⟨world,settle [_] 0 (begin world.db (.createSource (sourceRequest baseDomain))).handler⟩ := rfl
  rw [step,begun]
  rfl

theorem createsSource_append : createsSource baseDomain ++ events = .arrive (.createSource (sourceRequest baseDomain)) ::
    .resume 0 { instant := { now := 5, uuid := 5 } } :: .resume 0 { instant := { now := 5, uuid := 5 } } :: events := rfl

theorem arrive_idle (request : Request) : machine.step (idle world) (.arrive request) = ⟨world,[.arrived request]⟩ := rfl

theorem run_createsSource (normal : normalizeHost baseDomain = .ok baseDomain) :
    run machine.step (idle world) (createsSource baseDomain ++ events) =
      run machine.step (requested baseDomain world) (.resume 0 { instant := { now := 5, uuid := 5 } } :: events) := by
  rw [createsSource_append,run_cons,run_cons,arrive_idle,step_createsSource normal]

theorem along_createsSource (normal : normalizeHost baseDomain = .ok baseDomain)
    (apart : Along machine.step Apart (requested baseDomain world) (.resume 0 { instant := { now := 5, uuid := 5 } } :: events)) :
    Along machine.step Apart (idle world) (createsSource baseDomain ++ events) := by
  rw [createsSource_append,Along,Along,arrive_idle,step_createsSource normal]
  refine ⟨trivial,?_,apart⟩
  rintro handler found -
  obtain rfl : Handler.arrived _ = handler := Option.some.inj found
  rfl

end Requested

theorem published_longDomain :
    Along machine.step Apart (requested longDomain opened) (.resume 0 { instant := { now := 5, uuid := 5 } } :: publishes "shop" 3 1) ∧
      ListsLong (run machine.step (requested longDomain opened)
        (.resume 0 { instant := { now := 5, uuid := 5 } } :: publishes "shop" 3 1)).shared.db := by
  decide +kernel

theorem host_of_other_project_rejects_snapshot :
    (Along machine.step Fitting (idle opened) sharedHost ∧
      ¬SnapshotsAccepted (run machine.step (idle opened) sharedHost).shared.db) ∧
    (Along machine.step Apart (idle opened) longHost ∧
      ¬SnapshotsAccepted (run machine.step (idle opened) longHost).shared.db) :=
  by
  have whole : longHost = createsSource longDomain ++ publishes "shop" 3 1 := rfl
  have apart : Along machine.step Apart (idle opened) longHost := by
    rw [whole]
    exact along_createsSource normal_longDomain published_longDomain.1
  have long : ¬SnapshotsAccepted (run machine.step (idle opened) longHost).shared.db := by
    rw [whole,run_createsSource normal_longDomain]
    exact not_accepted_of_long published_longDomain.2
  exact ⟨⟨by decide +kernel,not_accepted (by decide +kernel)⟩,apart,long⟩

/-- Two projects with hosts of their own. -/
theorem snapshots_accepted_two_projects :
    Throughout machine.step (fun state => SnapshotsAccepted state.shared.db) (idle opened) twoProjects :=
  snapshots_accepted_of_apart _ _ rfl rfl rfl rfl (by decide +kernel) (by decide +kernel)

end Examples

end GrassWorker.ControlPlane
