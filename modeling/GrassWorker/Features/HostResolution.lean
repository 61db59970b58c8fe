import GrassWorker.Features.Routes

/-! The resolution of one host, for the nodes and for the authorization of previews. -/
namespace GrassWorker.HostResolution
open Deployments Delivery Hosts Routes Validator

structure Resolved where
  deploymentId : Uuid
  projectId : Uuid
  teamId : Uuid
  host : String
  environment : String
  artifactAvailable : Bool
  access : ServeAccess
deriving DecidableEq

def Resolved.route (resolved : Resolved) : String × Uuid × ServeAccess :=
  (resolved.host,resolved.deploymentId,resolved.access)

def artifactAvailable (db : Database) (deploymentId : Uuid) : Bool :=
  db.artifacts.any fun artifact => artifact.deploymentId = deploymentId ∧ artifact.kind = .grassOutput ∧
    artifact.deletedAt.isNone

def resolveBinding (db : Database) (host : String) (binding : HostBinding) : Except AppError Resolved :=
  if binding.status ≠ .active then .error (.notFound "host binding is not active")
  else if binding.kind = .custom ∧ ¬bindingEligible binding then
    .error (.notFound "host ownership or review is not approved")
  else if binding.environment = .preview then
    .error (.notFound "preview-only bindings resolve through deployment hosts")
  else match findActive db binding.projectId .production with
    | none => .error (.notFound "no active production deployment for this host")
    | some active => .ok {
        deploymentId := active.id, projectId := active.projectId, teamId := active.teamId, host
        environment := "production", artifactAvailable := artifactAvailable db active.id, access := .publicAccess }

def resolvePreview (db : Database) (host : String) : Except AppError Resolved :=
  match findByPreviewHost db host with
  | none => .error (.notFound "host is not bound")
  | some deployment =>
    if deployment.buildStatus ≠ .ready ∨ deployment.serveStatus ≠ .ready then
      .error (.notFound "preview deployment is not ready")
    else if (effectivePreview db deployment.projectId deployment.environment).map Deployment.id ≠ some deployment.id then
      .error (.notFound "preview deployment has been superseded")
    else .ok {
      deploymentId := deployment.id, projectId := deployment.projectId, teamId := deployment.teamId, host
      environment := environmentValue deployment.environment
      artifactAvailable := artifactAvailable db deployment.id, access := .teamOrPlatformAdmin }

def resolveHost (db : Database) (rawHost : String) : Except AppError Resolved :=
  match normalizeHost rawHost with
  | .error error => .error (.validation error.message)
  | .ok host =>
    match findBindingByHost db host with
    | some binding => resolveBinding db host binding
    | none => resolvePreview db host

structure PreviewBinding where
  deploymentId : Uuid
  projectId : Uuid
  teamId : Uuid
  host : String
deriving DecidableEq

def resolvePreviewBinding (db : Database) (rawHost : String) : Except AppError PreviewBinding :=
  match normalizeHost rawHost with
  | .error error => .error (.validation error.message)
  | .ok host =>
    match (findByPreviewHost db host).filter fun deployment =>
      deployment.buildStatus = .ready ∧ deployment.serveStatus = .ready with
    | none => .error (.notFound "preview deployment is not ready")
    | some deployment =>
      if (effectivePreview db deployment.projectId deployment.environment).map Deployment.id ≠ some deployment.id then
        .error (.notFound "preview deployment has been superseded")
      else match db.projects.find deployment.projectId with
        | none => .error (.notFound "preview project not found")
        | some project => .ok {
            deploymentId := deployment.id, projectId := deployment.projectId, teamId := project.teamId, host }

section Lookups
variable {db : Database} {row : Deployment} {binding : HostBinding} {host : String}

theorem findByPreviewHost_eq : findByPreviewHost db host = some row ↔
    row ∈ db.deployments.rows ∧ row.previewHost = some host ∧ row.deletedAt = none := by
  unfold findByPreviewHost
  rw [db.deployments.search_eq_some ]
  · simp
  · intro other selected
    obtain ⟨named,live⟩ : other.previewHost = some host ∧ other.deletedAt = none := by simpa using selected
    exact (Identity.previewHost_mem_entries _ _ _).mpr ⟨live,named⟩

theorem findBindingByHost_eq : findBindingByHost db host = some binding ↔
    binding ∈ db.bindings.rows ∧ binding.host = host ∧ binding.deletedAt = none := by
  unfold findBindingByHost
  rw [db.bindings.search_eq_some ]
  · simp
  · intro other selected
    obtain ⟨named,live⟩ : other.host = host ∧ other.deletedAt = none := by simpa using selected
    have indexed : HostBindingEntry.host host ∈ other.entries := by simp [HostBinding.entries,live,named]
    exact indexed

theorem findActive_eq {projectId : Uuid} {environment : Environment} : findActive db projectId environment = some row ↔
    row ∈ db.deployments.rows ∧ row.projectId = projectId ∧ row.environment = environment ∧
      row.releaseStatus = .active ∧ row.deletedAt = none := by
  unfold findActive
  rw [db.deployments.search_eq_some ]
  · simp
  · intro other selected
    obtain ⟨project,place,active,live⟩ : other.projectId = projectId ∧ other.environment = environment ∧
      other.releaseStatus = .active ∧ other.deletedAt = none := by simpa using selected
    exact (Identity.active_mem_entries _ _ _).mpr ⟨live,decide_eq_true active,project,place⟩

theorem normalizeHost_of_resolveHost {resolved : Resolved} (ok : resolveHost db host = .ok resolved) :
    normalizeHost host = .ok resolved.host := by
  unfold resolveHost at ok
  cases normal : normalizeHost host with
  | error problem =>
    rw [normal] at ok
    cases ok
  | ok name =>
    rw [normal] at ok
    simp only at ok
    cases found : findBindingByHost db name with
    | some binding =>
      rw [found] at ok
      simp only [resolveBinding] at ok
      grind
    | none =>
      rw [found] at ok
      simp only [resolvePreview] at ok
      grind

theorem resolvePreviewBinding_eq_ok {found : PreviewBinding} (ok : resolvePreviewBinding db host = .ok found) :
    ∃ name row, normalizeHost host = .ok name ∧ findByPreviewHost db name = some row ∧ row.id = found.deploymentId ∧
      (effectivePreview db row.projectId row.environment).map Deployment.id = some row.id := by
  unfold resolvePreviewBinding at ok
  cases normal : normalizeHost host with
  | error problem =>
    rw [normal] at ok
    cases ok
  | ok name =>
    rw [normal] at ok
    simp only at ok
    split at ok
    · cases ok
    · rename_i row found
      obtain ⟨present,_⟩ := Option.filter_eq_some_iff.mp found
      by_cases effective : (effectivePreview db row.projectId row.environment).map Deployment.id = some row.id
      · refine ⟨name,row,rfl,present,?_,effective⟩
        simp only [effective,ne_eq,not_true_eq_false,if_false] at ok
        grind
      · simp only [effective,ne_eq,not_false_eq_true,if_true] at ok
        cases ok

end Lookups

end GrassWorker.HostResolution
