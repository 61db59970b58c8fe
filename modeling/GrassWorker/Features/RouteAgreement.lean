import GrassWorker.Features.HostResolution

/-! The routes of a snapshot against the resolution of their hosts. -/
namespace GrassWorker.HostResolution
open Deployments Delivery Hosts Routes Validator

/-- `fk_deployments_project_id`. -/
abbrev ProjectsKnown (db : Database) : Prop :=
  ∀ row ∈ db.deployments.rows, (db.projects.find row.projectId).isSome

/-- Each route is what its host resolves to, and a protected one can be authorized. -/
abbrev Agrees (db : Database) (list : List ServeRoute) : Prop :=
  ∀ route ∈ list,
    (resolveHost db route.host).map Resolved.route = .ok (route.host,route.deploymentId,route.access) ∧
    (route.access = .teamOrPlatformAdmin →
      (resolvePreviewBinding db route.host).map PreviewBinding.deploymentId = .ok route.deploymentId)

structure Awaited (row : Deployment) : Prop where
  previewable : Previewable row
  unserved : row.serveStatus = .pending ∨ row.serveStatus = .syncing ∨ row.serveStatus = .failed
  live : row.deletedAt = none

/-- No routed preview has a newer awaited build, and routed hosts are normal. -/
structure Agreeing (db : Database) : Prop where
  unsuperseded : ∀ row ∈ db.deployments.rows, PreviewRouted db row →
    ∀ newer ∈ db.deployments.rows, SameEnvironment newer row → Awaited newer → NotNewer newer row
  previewHosts : ∀ row ∈ db.deployments.rows, PreviewRouted db row →
    ∀ host, row.previewHost = some host → normalizeHost host = .ok host
  bindingHosts : ∀ row ∈ db.deployments.rows, ∀ binding ∈ db.bindings.rows, PublicRouted db row binding →
    normalizeHost binding.host = .ok binding.host

private theorem map_eq_ok {α β ε : Type} {f : α → β} {outcome : Except ε α} {result : β} :
    outcome.map f = .ok result ↔ ∃ value, outcome = .ok value ∧ f value = result := by
  cases outcome <;> simp [Except.map]

section Agreement
variable {db : Database} {row : Deployment} {binding : HostBinding} {host : String}

/-- The effective row of the routable ones is effective for the query as well unless a newer build is awaited. -/
theorem effective_iff_unsuperseded (routed : PreviewRouted db row) :
    Effective (db.deployments.rows.filter fun other => other.deletedAt.isNone) row ↔
      ∀ newer ∈ db.deployments.rows, SameEnvironment newer row → Awaited newer → NotNewer newer row := by
  constructor
  · intro effective newer present beside awaited
    exact effective.newest newer (List.mem_filter.mpr ⟨present,Option.isNone_iff_eq_none.mpr awaited.live⟩) beside
      awaited.previewable
  · intro unsuperseded
    refine ⟨routed.effective.previewable,routed.effective.served,?_⟩
    intro other inside beside previewable
    obtain ⟨present,live⟩ := List.mem_filter.mp inside
    cases status : other.serveStatus with
    | pending => exact unsuperseded other present beside ⟨previewable,.inl status,Option.isNone_iff_eq_none.mp live⟩
    | syncing => exact unsuperseded other present beside ⟨previewable,.inr (.inl status),Option.isNone_iff_eq_none.mp live⟩
    | failed => exact unsuperseded other present beside ⟨previewable,.inr (.inr status),Option.isNone_iff_eq_none.mp live⟩
    | ready | retired =>
      refine routed.effective.newest other (List.mem_filter.mpr ⟨present,?_⟩) beside previewable
      simp [routable,previewable.1,previewable.2,status,live]

theorem effectivePreview_of_routed (member : row ∈ db.deployments.rows) (routed : PreviewRouted db row)
    (unsuperseded : ∀ newer ∈ db.deployments.rows, SameEnvironment newer row → Awaited newer → NotNewer newer row) :
    (effectivePreview db row.projectId row.environment).map Deployment.id = some row.id :=
  (effectivePreview_eq member).mpr ⟨routed.live,rfl,rfl,(effective_iff_unsuperseded routed).mpr unsuperseded⟩

theorem findBindingByHost_of_preview (distinct : HostsDistinct db) (member : row ∈ db.deployments.rows)
    (live : row.deletedAt = none) (named : row.previewHost = some host) : findBindingByHost db host = none := by
  cases found : findBindingByHost db host with
  | none => rfl
  | some binding =>
    obtain ⟨present,rfl,bound⟩ := findBindingByHost_eq.mp found
    exact absurd named (distinct binding present bound row member live)

theorem resolveHost_preview (distinct : HostsDistinct db) (member : row ∈ db.deployments.rows)
    (routed : PreviewRouted db row) (named : row.previewHost = some host) (normal : normalizeHost host = .ok host)
    (effective : (effectivePreview db row.projectId row.environment).map Deployment.id = some row.id) :
    (resolveHost db host).map Resolved.route = .ok (host,row.id,.teamOrPlatformAdmin) := by
  have unbound := findBindingByHost_of_preview distinct member routed.live named
  have found := findByPreviewHost_eq.mpr ⟨member,named,routed.live⟩
  unfold resolveHost resolvePreview
  simp only [normal,unbound,found,effective,routed.effective.previewable.1,routed.effective.served,ne_eq,
    not_true_eq_false,or_self,if_false]
  rfl

theorem resolvePreviewBinding_routed (projects : ProjectsKnown db) (member : row ∈ db.deployments.rows)
    (routed : PreviewRouted db row) (named : row.previewHost = some host) (normal : normalizeHost host = .ok host)
    (effective : (effectivePreview db row.projectId row.environment).map Deployment.id = some row.id) :
    (resolvePreviewBinding db host).map PreviewBinding.deploymentId = .ok row.id := by
  obtain ⟨project,known⟩ := Option.isSome_iff_exists.mp (projects row member)
  have found := findByPreviewHost_eq.mpr ⟨member,named,routed.live⟩
  unfold resolvePreviewBinding
  simp only [normal,found,Option.filter,effective,known,routed.effective.previewable.1,routed.effective.served,
    and_self,decide_true,if_true,ne_eq,not_true_eq_false,if_false]
  rfl

theorem resolveHost_binding (member : row ∈ db.deployments.rows) (bound : binding ∈ db.bindings.rows)
    (routed : PublicRouted db row binding) (normal : normalizeHost binding.host = .ok binding.host) :
    (resolveHost db binding.host).map Resolved.route = .ok (binding.host,row.id,.publicAccess) := by
  have eligible := routed.eligible
  have released := routed.released
  have open_ := routed.bound
  simp only [routable,published,routedBinding,decide_eq_true_eq,Option.isNone_iff_eq_none] at eligible released open_
  have found := findBindingByHost_eq.mpr ⟨bound,rfl,open_.2.2.1⟩
  have active := findActive_eq.mpr ⟨member,routed.project.symm,released.1,released.2,eligible.2.2.1⟩
  have allowed : ¬(binding.kind = .custom ∧ ¬bindingEligible binding) := fun refused => refused.2 (open_.2.2.2 refused.1)
  unfold resolveHost resolveBinding
  simp only [normal,found,open_.1,open_.2.1,active,allowed,if_false,ne_eq,not_true_eq_false]
  rfl

theorem normalizeHost_of_resolves {id : Uuid} {access : ServeAccess}
    (resolves : (resolveHost db host).map Resolved.route = .ok (host,id,access)) : normalizeHost host = .ok host := by
  obtain ⟨resolved,ok,same⟩ := map_eq_ok.mp resolves
  have name : resolved.host = host := congrArg Prod.fst same
  have normal := normalizeHost_of_resolveHost ok
  rw [name] at normal
  exact normal

/-- A snapshot agrees with the resolution of its hosts exactly when no routed preview is older
than a build that is still being synchronized or has failed to be, and its hosts are normal. -/
theorem routes_agree_iff {requestingNode : Node} {list : List ServeRoute} (projects : ProjectsKnown db)
    (distinct : HostsDistinct db) (snapshot : routes db requestingNode = .ok list) :
    Agrees db list ↔ Agreeing db := by
  constructor
  · intro agrees
    have previewed : ∀ row ∈ db.deployments.rows, PreviewRouted db row → ∀ host, row.previewHost = some host →
        normalizeHost host = .ok host ∧
          (effectivePreview db row.projectId row.environment).map Deployment.id = some row.id := by
      intro row member routed host named
      have listing : (host,ServeAccess.teamOrPlatformAdmin,row.id) ∈ list.map ServeRoute.entry :=
        (mem_entries_routes snapshot).mpr ⟨row,member,rfl,.inl ⟨routed,named,rfl⟩⟩
      obtain ⟨route,listed,entry⟩ := List.mem_map.mp listing
      obtain ⟨rfl,protect,same⟩ : route.host = host ∧ route.access = .teamOrPlatformAdmin ∧ route.deploymentId = row.id := by
        simpa [ServeRoute.entry] using entry
      obtain ⟨resolves,authorized⟩ := agrees route listed
      have normal := normalizeHost_of_resolves resolves
      obtain ⟨found,granted,deployment⟩ := map_eq_ok.mp (authorized protect)
      obtain ⟨asked,chosen,normal',present,key,effective⟩ := resolvePreviewBinding_eq_ok granted
      have inside := (findByPreviewHost_eq.mp present).1
      have own : chosen = row := db.deployments.same_of_key inside member (key.trans (deployment.trans same))
      subst own
      exact ⟨normal,effective⟩
    refine ⟨?_,fun row member routed host named => (previewed row member routed host named).1,?_⟩
    · intro row member routed
      obtain ⟨host,named⟩ := Option.isSome_iff_exists.mp routed.effective.previewable.2
      obtain ⟨_,effective⟩ := previewed row member routed host named
      exact (effective_iff_unsuperseded routed).mp ((effectivePreview_eq member).mp effective).2.2.2
    · intro row member binding bound routed
      have listing : (binding.host,ServeAccess.publicAccess,row.id) ∈ list.map ServeRoute.entry :=
        (mem_entries_routes snapshot).mpr ⟨row,member,rfl,.inr ⟨binding,bound,routed,rfl,rfl⟩⟩
      obtain ⟨route,listed,entry⟩ := List.mem_map.mp listing
      have name : route.host = binding.host := congrArg Prod.fst entry
      have normal := normalizeHost_of_resolves (agrees route listed).1
      rw [name] at normal
      exact normal
  · intro agreeing route listed
    have listing : route.entry ∈ list.map ServeRoute.entry := List.mem_map_of_mem listed
    obtain ⟨row,member,same,⟨routed,named,protect⟩ | ⟨binding,bound,routed,name,out⟩⟩ :=
      (mem_entries_routes snapshot).mp listing
    · have normal := agreeing.previewHosts row member routed _ named
      have effective := effectivePreview_of_routed member routed (agreeing.unsuperseded row member routed)
      rw [same,protect]
      exact ⟨resolveHost_preview distinct member routed named normal effective,
        fun _ => resolvePreviewBinding_routed projects member routed named normal effective⟩
    · have normal := agreeing.bindingHosts row member binding bound routed
      rw [same,out,← name]
      exact ⟨resolveHost_binding member bound routed normal,fun protect => nomatch protect⟩

end Agreement

section Examples

def node : Node where
  id := 7
  region := "eu"
  status := .active
  buildEnabled := true
  serveEnabled := true
  baseUrl := some "http://node-7"
  capacityCpuMillicores := 4000
  capacityMemoryMb := 8192
  capacityDiskMb := 65536
  maxDeployments := 50
  lastHeartbeatAt := some 0

def preview (id : Uuid) (host : String) (serveStatus : ServeStatus) : Deployment where
  id := id
  serveStatus := serveStatus
  projectId := 3
  teamId := 2
  region := "eu"
  serveNodeId := some 7
  environment := .preview
  runtimeKind := .static
  buildStatus := .ready
  serveCpuMillicores := 50
  serveMemoryMb := 64
  serveDiskMb := 256
  overcommitted := false
  previewHost := some host
  createdAt := id

def installation (deployments : Table Deployment (·.id) Deployment.entries) : Database where
  projects := ⟨[{ id := 3, teamId := 2, slug := "shop" }],by decide,by decide⟩
  nodes := ⟨[node],by decide,by decide⟩
  deployments

def rolling : Database :=
  installation ⟨[preview 1 "shop-1.example" .ready,preview 2 "shop-2.example" .syncing],by decide,by decide⟩

def keptRoute : ServeRoute :=
  ⟨"shop-1.example","eu",1,7,"http://node-7",⟨50,64,256⟩,.teamOrPlatformAdmin,.token⟩

theorem kept_preview_is_not_resolved :
    ProjectsKnown rolling ∧ HostsDistinct rolling ∧ routes rolling node = .ok [keptRoute] ∧
      resolveHost rolling "shop-1.example" = .error (.notFound "preview deployment has been superseded") ∧
      resolvePreviewBinding rolling "shop-1.example" = .error (.notFound "preview deployment has been superseded") ∧
      ¬Agrees rolling [keptRoute] := by
  decide

def rolled : Database :=
  installation ⟨[preview 1 "shop-1.example" .retired,preview 2 "shop-2.example" .ready],by decide,by decide⟩

def rolledRoute : ServeRoute :=
  ⟨"shop-2.example","eu",2,7,"http://node-7",⟨50,64,256⟩,.teamOrPlatformAdmin,.token⟩

theorem routes_agree_when_served : Agreeing rolled :=
  (@routes_agree_iff _ node [rolledRoute] (by decide +kernel) (by decide +kernel) (by decide)).mp
    (by decide +kernel)

end Examples

end GrassWorker.HostResolution
