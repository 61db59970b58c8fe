import GrassWorker.Domain.Hosts
import GrassWorker.Domain.Nodes
import GrassWorker.Domain.EffectivePreview

/-! The route snapshot of the Serve nodes. Its revision, a hash of the routes, is left to
the caller. -/
namespace GrassWorker.Routes
open Deployments Delivery Hosts

inductive ServeAccess
  | publicAccess | teamOrPlatformAdmin
deriving DecidableEq, Repr

structure ServeRoute where
  host : String
  region : String
  deploymentId : Uuid
  targetNodeId : Uuid
  targetBaseUrl : String
  resources : ServeResources
  access : ServeAccess
  gatewayAuthentication : GatewayAuthenticationMode := .token
deriving DecidableEq

def ensureServeNode (node : Node) : Except AppError Unit :=
  if node.serveEnabled then .ok () else .error (.forbidden "node does not have Serve capability")

def routable (row : Deployment) : Bool :=
  row.buildStatus = .ready ∧ (row.serveStatus = .ready ∨ row.serveStatus = .retired) ∧
    row.deletedAt.isNone ∧ (row.previewHost.isSome ∨ row.releaseStatus = .active)

def servingNode (db : Database) (nodeId : Uuid) : Option Node :=
  (db.nodes.find nodeId).filter fun node =>
    node.serveEnabled ∧ node.status ≠ .disabled ∧ node.deletedAt.isNone

def assignedNode (db : Database) (row : Deployment) : Option Node := row.serveNodeId.bind (servingNode db)

def published (row : Deployment) : Bool := row.environment = .production ∧ row.releaseStatus = .active

def routedBinding (binding : HostBinding) : Bool :=
  binding.status = .active ∧ binding.environment ≠ .preview ∧ binding.deletedAt.isNone ∧
    (binding.kind = .custom → bindingEligible binding)

def hostsByProject (db : Database) (deployments : List Deployment) (projectId : Uuid) : List String :=
  if projectId ∈ (deployments.filter published).map Deployment.projectId then
    (db.bindings.rows.filter fun binding => binding.projectId = projectId ∧ routedBinding binding).map HostBinding.host
  else []

def effectivePreviewIds (deployments : List Deployment) : List Uuid :=
  (deployments.filter fun row => row.previewHost.isSome).filterMap fun row =>
    effectivePreviewId (previewGroup deployments row.projectId row.environment)

def deploymentHosts (effective : List Uuid) (hosts : List String) (row : Deployment) : List (String × ServeAccess) :=
  (if row.id ∈ effective then row.previewHost.toList.map (·,.teamOrPlatformAdmin) else []) ++
    if published row then hosts.map (·,.publicAccess) else []

/-- One round of the loop, with the hosts of the row's project that are still to be given out. -/
def deploymentRoutes (db : Database) (effective : List Uuid) (hosts : List String) (row : Deployment) :
    Except AppError (List ServeRoute) :=
  match assignedNode db row with
  | none => .ok []
  | some node =>
    match node.baseUrl with
    | none => .error (.internal "assigned Serve Node has no public base URL")
    | some targetBaseUrl =>
      match serveResources row with
      | .error _ => .error (.internal "assigned deployment has invalid Serve resource metadata")
      | .ok resources =>
        .ok ((deploymentHosts effective hosts row).map fun entry =>
          { host := entry.1, region := row.region, deploymentId := row.id, targetNodeId := node.id
            targetBaseUrl, resources, access := entry.2
            gatewayAuthentication := Nodes.gatewayAuthentication node })

def taken (db : Database) (hosts : Uuid → List String) (row : Deployment) : Uuid → List String :=
  if (assignedNode db row).isSome ∧ published row then Function.update hosts row.projectId [] else hosts

def addRoutes (db : Database) (effective : List Uuid) :
    (Uuid → List String) → List Deployment → Except AppError (List ServeRoute)
  | _, [] => .ok []
  | hosts, row :: rest => do
    let found ← deploymentRoutes db effective (hosts row.projectId) row
    let later ← addRoutes db effective (taken db hosts row) rest
    return found ++ later

def routes (db : Database) (requestingNode : Node) : Except AppError (List ServeRoute) := do
  ensureServeNode requestingNode
  let deployments := db.deployments.rows.filter routable
  let found ← addRoutes db (effectivePreviewIds deployments) (hostsByProject db deployments) deployments
  return found.insertionSort fun left right => left.host ≤ right.host

/-! What the snapshot lists. -/

section Listed
variable {db : Database} {rows : List Deployment} {row : Deployment} {effective : List Uuid}
  {hosts : Uuid → List String} {list : List ServeRoute} {host : String} {access : ServeAccess} {id : Uuid}

theorem mem_effectivePreviewIds (distinct : (rows.map Deployment.id).Nodup) (member : row ∈ rows) :
    row.id ∈ effectivePreviewIds rows ↔ Effective rows row := by
  unfold effectivePreviewIds
  rw [List.mem_filterMap]
  constructor
  · intro picked
    obtain ⟨_,_,found⟩ := picked
    exact ((effectivePreviewId_eq distinct member).mp found).1
  · intro chosen
    refine ⟨row,List.mem_filter.mpr ⟨member,chosen.previewable.2⟩,?_⟩
    exact (effectivePreviewId_eq distinct member).mpr ⟨chosen,rfl,rfl⟩

def ServeRoute.entry (route : ServeRoute) : String × ServeAccess × Uuid := (route.host,route.access,route.deploymentId)

def rowEntries (db : Database) (effective : List Uuid) (own : List String) (row : Deployment) :
    List (String × ServeAccess × Uuid) :=
  if (assignedNode db row).isSome then (deploymentHosts effective own row).map fun entry => (entry.1,entry.2,row.id)
  else []

theorem entries_deploymentRoutes {own : List String} (found : deploymentRoutes db effective own row = .ok list) :
    list.map ServeRoute.entry = rowEntries db effective own row := by
  unfold deploymentRoutes at found
  unfold rowEntries
  cases assigned : assignedNode db row with
  | none =>
    rw [assigned] at found
    cases found
    rfl
  | some node =>
    rw [assigned] at found
    simp only at found
    split at found
    · cases found
    · split at found
      · cases found
      · cases found
        rw [List.map_map]
        rfl

def Separate (first second : Deployment) : Prop :=
  published first → published second → first.projectId ≠ second.projectId

theorem deploymentHosts_congr {own other : List String} (same : published row → own = other) :
    deploymentHosts effective own row = deploymentHosts effective other row := by
  unfold deploymentHosts
  by_cases out : published row
  · rw [same out]
  · simp [out]

theorem taken_of_separate {other : Deployment} (separate : Separate row other) (out : published other) :
    taken db hosts row other.projectId = hosts other.projectId := by
  unfold taken
  split
  · rename_i given
    exact Function.update_of_ne (separate given.2 out).symm _ _
  · rfl

theorem entries_addRoutes (separate : rows.Pairwise Separate) (found : addRoutes db effective hosts rows = .ok list) :
    list.map ServeRoute.entry = rows.flatMap fun row => rowEntries db effective (hosts row.projectId) row := by
  induction rows generalizing hosts list with
  | nil =>
    cases found
    rfl
  | cons first rest ih =>
    obtain ⟨apart,separate⟩ := List.pairwise_cons.mp separate
    unfold addRoutes at found
    cases here : deploymentRoutes db effective (hosts first.projectId) first with
    | error problem =>
      rw [here] at found
      cases found
    | ok own =>
      cases there : addRoutes db effective (taken db hosts first) rest with
      | error problem =>
        rw [here,there] at found
        cases found
      | ok later =>
        rw [here,there] at found
        cases found
        rw [List.map_append,entries_deploymentRoutes here,ih separate there,List.flatMap_cons]
        congr 1
        refine List.flatMap_congr ?_
        intro row inside
        unfold rowEntries
        rw [deploymentHosts_congr (taken_of_separate (apart row inside))]

end Listed

section Snapshot
variable {db : Database} {requestingNode : Node} {list : List ServeRoute} {host : String} {access : ServeAccess} {id : Uuid}

structure PreviewRouted (db : Database) (row : Deployment) : Prop where
  eligible : routable row
  assigned : (assignedNode db row).isSome
  effective : Effective (db.deployments.rows.filter routable) row

structure PublicRouted (db : Database) (row : Deployment) (binding : HostBinding) : Prop where
  eligible : routable row
  assigned : (assignedNode db row).isSome
  released : published row
  project : binding.projectId = row.projectId
  bound : routedBinding binding

theorem live_of_routable {row : Deployment} (eligible : routable row) : row.deletedAt = none := by
  simp only [routable,decide_eq_true_eq,Option.isNone_iff_eq_none] at eligible
  exact eligible.2.2.1

theorem PreviewRouted.live (routed : PreviewRouted db row) : row.deletedAt = none := live_of_routable routed.eligible

theorem separate_routable (db : Database) : (db.deployments.rows.filter routable).Pairwise Separate := by
  have distinct : (db.deployments.rows.filter routable).Nodup := db.deployments.nodup_rows.filter _
  refine distinct.pairwise_of_forall_ne ?_
  intro first left second right different firstPublished secondPublished project
  obtain ⟨firstMember,firstRoutable⟩ := List.mem_filter.mp left
  obtain ⟨secondMember,secondRoutable⟩ := List.mem_filter.mp right
  simp only [routable,published,decide_eq_true_eq,Option.isNone_iff_eq_none] at *
  exact different (active_unique firstMember secondMember firstRoutable.2.2.1 secondRoutable.2.2.1 firstPublished.2
    secondPublished.2 project (firstPublished.1.trans secondPublished.1.symm))

theorem mem_deploymentHosts {effective : List Uuid} {own : List String} {row : Deployment} :
    (host,access) ∈ deploymentHosts effective own row ↔
      row.id ∈ effective ∧ row.previewHost = some host ∧ access = .teamOrPlatformAdmin ∨
        published row ∧ host ∈ own ∧ access = .publicAccess := by
  unfold deploymentHosts
  rw [List.mem_append]
  refine or_congr ?_ ?_
  · by_cases picked : row.id ∈ effective
    · simp [picked,@eq_comm _ access]
    · simp [picked]
  · by_cases out : published row
    · simp [out,@eq_comm _ access]
    · simp [out]

theorem mem_rowEntries {effective : List Uuid} {own : List String} {row : Deployment} :
    (host,access,id) ∈ rowEntries db effective own row ↔
      id = row.id ∧ (assignedNode db row).isSome ∧ (host,access) ∈ deploymentHosts effective own row := by
  unfold rowEntries
  by_cases assigned : (assignedNode db row).isSome
  · simp only [assigned,if_true,List.mem_map,Prod.mk.injEq,true_and]
    constructor
    · intro found
      obtain ⟨⟨_,_⟩,inside,rfl,rfl,rfl⟩ := found
      exact ⟨rfl,inside⟩
    · intro found
      obtain ⟨rfl,inside⟩ := found
      exact ⟨_,inside,rfl,rfl,rfl⟩
  · simp [assigned]

def listedEntries (db : Database) (row : Deployment) : List (String × ServeAccess × Uuid) :=
  rowEntries db (effectivePreviewIds (db.deployments.rows.filter routable))
    (hostsByProject db (db.deployments.rows.filter routable) row.projectId) row

theorem entries_routes (snapshot : routes db requestingNode = .ok list) :
    (list.map ServeRoute.entry).Perm ((db.deployments.rows.filter routable).flatMap (listedEntries db)) := by
  unfold routes at snapshot
  cases permitted : ensureServeNode requestingNode with
  | error problem =>
    rw [permitted] at snapshot
    cases snapshot
  | ok _ =>
    cases found : addRoutes db (effectivePreviewIds (db.deployments.rows.filter routable))
        (hostsByProject db (db.deployments.rows.filter routable)) (db.deployments.rows.filter routable) with
    | error problem =>
      rw [permitted] at snapshot
      simp only [bind,Except.bind,found] at snapshot
      cases snapshot
    | ok unsorted =>
      rw [permitted] at snapshot
      simp only [bind,Except.bind,found,pure,Except.pure,Except.ok.injEq] at snapshot
      subst snapshot
      have sorted := (List.perm_insertionSort (fun left right : ServeRoute => left.host ≤ right.host) unsorted).map
        ServeRoute.entry
      rw [entries_addRoutes (separate_routable db) found] at sorted
      exact sorted

/-- The routes of a snapshot are the effective previews and the bindings of published projects. -/
theorem mem_entries_routes (snapshot : routes db requestingNode = .ok list) :
    (host,access,id) ∈ list.map ServeRoute.entry ↔ ∃ row ∈ db.deployments.rows, id = row.id ∧
      (PreviewRouted db row ∧ row.previewHost = some host ∧ access = .teamOrPlatformAdmin ∨
        ∃ binding ∈ db.bindings.rows, PublicRouted db row binding ∧ binding.host = host ∧ access = .publicAccess) := by
  have distinct : ((db.deployments.rows.filter routable).map Deployment.id).Nodup :=
    db.deployments.distinct.sublist (List.filter_sublist.map _)
  rw [(entries_routes snapshot).mem_iff,List.mem_flatMap]
  simp only [List.mem_filter,listedEntries,mem_rowEntries,mem_deploymentHosts]
  constructor
  · intro listed
    obtain ⟨row,⟨present,eligible⟩,same,assigned,entry⟩ := listed
    refine ⟨row,present,same,?_⟩
    have inside := List.mem_filter.mpr ⟨present,eligible⟩
    rcases entry with ⟨picked,named,kind⟩ | ⟨out,given,kind⟩
    · exact .inl ⟨⟨eligible,assigned,(mem_effectivePreviewIds distinct inside).mp picked⟩,named,kind⟩
    · unfold hostsByProject at given
      split at given
      · obtain ⟨binding,selected,name⟩ := List.mem_map.mp given
        obtain ⟨bound,project,routed⟩ := by simpa using selected
        exact .inr ⟨binding,bound,⟨eligible,assigned,out,project,routed⟩,name,kind⟩
      · cases given
  · intro routed
    obtain ⟨row,present,same,⟨⟨eligible,assigned,effective⟩,named,kind⟩ |
      ⟨binding,bound,⟨eligible,assigned,out,project,routed⟩,name,kind⟩⟩ := routed
    · have inside := List.mem_filter.mpr ⟨present,eligible⟩
      exact ⟨row,⟨present,eligible⟩,same,assigned,
        .inl ⟨(mem_effectivePreviewIds distinct inside).mpr effective,named,kind⟩⟩
    · have inside := List.mem_filter.mpr ⟨present,eligible⟩
      refine ⟨row,⟨present,eligible⟩,same,assigned,.inr ⟨out,?_,kind⟩⟩
      unfold hostsByProject
      rw [if_pos (List.mem_map_of_mem (List.mem_filter.mpr ⟨inside,out⟩))]
      exact List.mem_map.mpr ⟨binding,by simp [bound,project,routed],name⟩

/-- No live binding has the preview host of a live deployment; within their own tables hosts are unique. -/
abbrev HostsDistinct (db : Database) : Prop :=
  ∀ binding ∈ db.bindings.rows, binding.deletedAt = none →
    ∀ row ∈ db.deployments.rows, row.deletedAt = none → row.previewHost ≠ some binding.host

theorem mem_hostsByProject {rows : List Deployment} {projectId : Uuid} (given : host ∈ hostsByProject db rows projectId) :
    ∃ binding ∈ db.bindings.rows, binding.host = host ∧ binding.projectId = projectId ∧ routedBinding binding := by
  unfold hostsByProject at given
  split at given
  · obtain ⟨binding,selected,name⟩ := List.mem_map.mp given
    obtain ⟨bound,project,routed⟩ := by simpa using selected
    exact ⟨binding,bound,name,project,routed⟩
  · cases given

theorem routedBinding_live {binding : HostBinding} (routed : routedBinding binding) : binding.deletedAt = none := by
  simp only [routedBinding,decide_eq_true_eq,Option.isNone_iff_eq_none] at routed
  exact routed.2.2.1

theorem binding_unique {first second : HostBinding} (left : first ∈ db.bindings.rows) (right : second ∈ db.bindings.rows)
    (liveFirst : first.deletedAt = none) (liveSecond : second.deletedAt = none) (same : first.host = second.host) :
    first = second := by
  have own : HostBindingEntry.host second.host ∈ first.entries := by simp [HostBinding.entries,liveFirst,same]
  have other : HostBindingEntry.host second.host ∈ second.entries := by simp [HostBinding.entries,liveSecond]
  exact db.bindings.same_of_entry left right own other

theorem nodup_hostsByProject (rows : List Deployment) (projectId : Uuid) : (hostsByProject db rows projectId).Nodup := by
  unfold hostsByProject
  split
  · refine List.Nodup.map_on ?_ (db.bindings.nodup_rows.filter _)
    intro first left second right same
    obtain ⟨boundFirst,_,routedFirst⟩ := by simpa using left
    obtain ⟨boundSecond,_,routedSecond⟩ := by simpa using right
    exact binding_unique boundFirst boundSecond (routedBinding_live routedFirst) (routedBinding_live routedSecond) same
  · exact List.nodup_nil

theorem hosts_deploymentHosts (effective : List Uuid) (own : List String) (row : Deployment) :
    (deploymentHosts effective own row).map Prod.fst =
      (if row.id ∈ effective then row.previewHost.toList else []) ++ if published row then own else [] := by
  unfold deploymentHosts
  rw [List.map_append]
  congr 1
  · split <;> simp [Function.comp_def]
  · split <;> simp [Function.comp_def]

theorem mem_listedHosts {row : Deployment} (given : host ∈ (listedEntries db row).map Prod.fst) :
    row.previewHost = some host ∨ published row ∧
      ∃ binding ∈ db.bindings.rows, binding.host = host ∧ binding.projectId = row.projectId ∧ binding.deletedAt = none := by
  obtain ⟨⟨_,access,id⟩,listed,rfl⟩ := List.mem_map.mp given
  obtain ⟨_,_,entry⟩ := mem_rowEntries.mp listed
  rcases mem_deploymentHosts.mp entry with ⟨_,named,_⟩ | ⟨out,inside,_⟩
  · exact .inl named
  · obtain ⟨binding,bound,name,project,routed⟩ := mem_hostsByProject inside
    exact .inr ⟨out,binding,bound,name,project,routedBinding_live routed⟩

theorem nodup_listedHosts (distinct : HostsDistinct db) {row : Deployment} (member : row ∈ db.deployments.rows)
    (live : row.deletedAt = none) : ((listedEntries db row).map Prod.fst).Nodup := by
  unfold listedEntries rowEntries
  split
  · rw [List.map_map]
    change ((deploymentHosts _ _ row).map Prod.fst).Nodup
    rw [hosts_deploymentHosts]
    refine List.nodup_append'.mpr ⟨?_,?_,?_⟩
    · split
      · cases row.previewHost <;> simp
      · exact List.nodup_nil
    · split
      · exact nodup_hostsByProject _ _
      · exact List.nodup_nil
    · intro host shown bound
      have named : row.previewHost = some host := by
        split at shown
        · exact Option.mem_toList.mp shown
        · cases shown
      split at bound
      · obtain ⟨binding,inside,rfl,_,routed⟩ := mem_hostsByProject bound
        exact distinct binding inside (routedBinding_live routed) row member live named
      · cases bound
  · exact List.nodup_nil

theorem disjoint_listedHosts (distinct : HostsDistinct db) {first second : Deployment} (left : first ∈ db.deployments.rows)
    (right : second ∈ db.deployments.rows) (liveFirst : first.deletedAt = none) (liveSecond : second.deletedAt = none)
    (different : first ≠ second) (separate : Separate first second) :
    List.Disjoint ((listedEntries db first).map Prod.fst) ((listedEntries db second).map Prod.fst) := by
  intro host inFirst inSecond
  rcases mem_listedHosts inFirst with named | ⟨out,binding,bound,rfl,project,live⟩
  · rcases mem_listedHosts inSecond with named' | ⟨_,binding,bound,rfl,_,live⟩
    · exact different (db.deployments.same_of_entry left right
        ((Identity.previewHost_mem_entries _ _ _).mpr ⟨liveFirst,named⟩)
        ((Identity.previewHost_mem_entries _ _ _).mpr ⟨liveSecond,named'⟩))
    · exact distinct binding bound live first left liveFirst named
  · rcases mem_listedHosts inSecond with named | ⟨out',other,bound',name,project',live'⟩
    · exact distinct binding bound live second right liveSecond named
    · obtain rfl := binding_unique bound' bound live' live name
      exact separate out out' (project.symm.trans project')

theorem nodup_hosts (distinct : HostsDistinct db) (snapshot : routes db requestingNode = .ok list) :
    (list.map ServeRoute.host).Nodup := by
  have listed := ((entries_routes snapshot).map Prod.fst).nodup_iff
  rw [List.map_map,List.map_flatMap] at listed
  have rows : (db.deployments.rows.filter routable).Nodup := db.deployments.nodup_rows.filter _
  have facts : ∀ row ∈ db.deployments.rows.filter routable, row ∈ db.deployments.rows ∧ row.deletedAt = none := by
    intro row member
    obtain ⟨present,eligible⟩ := List.mem_filter.mp member
    exact ⟨present,live_of_routable eligible⟩
  refine listed.mpr (List.nodup_flatMap.mpr ⟨fun row member => ?_,?_⟩)
  · obtain ⟨present,live⟩ := facts row member
    exact nodup_listedHosts distinct present live
  · refine List.pairwise_iff_forall_sublist.mpr ?_
    intro first second both
    obtain ⟨left,liveFirst⟩ := facts first (both.subset (by simp))
    obtain ⟨right,liveSecond⟩ := facts second (both.subset (by simp))
    exact disjoint_listedHosts distinct left right liveFirst liveSecond (List.pairwise_iff_forall_sublist.mp rows both)
      (List.pairwise_iff_forall_sublist.mp (separate_routable db) both)

end Snapshot

end GrassWorker.Routes
