import GrassWorker.Features.Routes
import GrassWorker.Features.ServeReports

/-! The Serve assignments of a node: the deployments it serves and those on their way to it. -/
namespace GrassWorker.Assignments
open Deployments Delivery Routes ServeReports

inductive ServeAssignmentStatus
  | pending | syncing | ready | failed
deriving DecidableEq, Repr

structure ServeArtifact where
  artifactId : Uuid
  checksumSha256 : String
  packedSizeBytes : Nat
  unpackedSizeBytes : Nat
deriving DecidableEq

structure ServeAssignment where
  deploymentId : Uuid
  projectId : Uuid
  runtimeKind : String
  status : ServeAssignmentStatus
  artifact : ServeArtifact
  resources : ServeResources
deriving DecidableEq

def runtimeValue : ProjectRuntime → String
  | .static => "static"
  | .ssr => "ssr"
  | .hybrid => "hybrid"
  | .serverless => "serverless"
  | .edge => "edge"

def artifactUnpackedSizeBytes : ManifestSize → Option Nat
  | .absent => some 0
  | .bytes value => some value
  | .malformed => none

def assigned (db : Database) (nodeId : Uuid) : List Deployment :=
  (db.deployments.rows.filter fun row => row.serveNodeId = some nodeId ∧ row.buildStatus = .ready ∧
    row.serveStatus ≠ .retired ∧ row.deletedAt.isNone).insertionSort
      fun first second => first.createdAt ≤ second.createdAt

def migrationsTo (db : Database) (nodeId : Uuid) : List NodeDeploymentMigration :=
  db.migrations.rows.filter fun migration => migration.targetNodeId = nodeId ∧ isShadow migration.status

def migrationDeployments (db : Database) (nodeId : Uuid) : List Deployment :=
  db.deployments.rows.filter fun row =>
    row.id ∈ (migrationsTo db nodeId).map NodeDeploymentMigration.deploymentId ∧
      row.serveNodeId ≠ some nodeId ∧ row.buildStatus = .ready ∧ row.deletedAt.isNone

def artifactOf (db : Database) (deploymentId : Uuid) : Option DeploymentArtifact :=
  db.artifacts.reverse.find? fun artifact => artifact.deploymentId = deploymentId ∧ artifact.kind = .grassOutput ∧
    artifact.deletedAt.isNone

def migrationStatus (db : Database) (nodeId deploymentId : Uuid) : Option MigrationStatus :=
  ((migrationsTo db nodeId).reverse.find? fun migration => migration.deploymentId = deploymentId).map
    NodeDeploymentMigration.status

def assignmentStatus : Option MigrationStatus → ServeStatus → Option ServeAssignmentStatus
  | some .pending,_ | none,.pending => some .pending
  | some .syncing,_ | none,.syncing => some .syncing
  | some .failed,_ | none,.failed => some .failed
  | some .ready,_ | none,.ready => some .ready
  | none,.retired => none

def metadataError : AppError := .internal "assigned deployment has invalid artifact metadata"

def serveArtifact (artifact : DeploymentArtifact) : Except AppError ServeArtifact :=
  match artifact.checksumSha256,artifact.sizeBytes,artifactUnpackedSizeBytes artifact.unpackedSizeBytes with
  | some checksumSha256,some packed,some unpackedSizeBytes =>
    if packed < 0 then .error metadataError
    else .ok ⟨artifact.id,checksumSha256,packed.toNat,unpackedSizeBytes⟩
  | _,_,_ => .error metadataError

def assignment (db : Database) (item : Deployment) (migration : Option MigrationStatus) :
    Except AppError (Option ServeAssignment) :=
  match artifactOf db item.id with
  | none => .ok none
  | some artifact =>
    match assignmentStatus migration item.serveStatus with
    | none => .ok none
    | some status => do
      let artifact ← serveArtifact artifact
      match serveResources item with
      | .error _ => .error metadataError
      | .ok resources =>
        .ok (some { deploymentId := item.id, projectId := item.projectId, runtimeKind := runtimeValue item.runtimeKind
                    status, artifact, resources })

def collect (db : Database) : List (Deployment × Option MigrationStatus) → Except AppError (List ServeAssignment)
  | [] => .ok []
  | (item,migration) :: rest => do
    let found ← assignment db item migration
    let later ← collect db rest
    return found.toList ++ later

def assignments (db : Database) (node : Node) : Except AppError (List ServeAssignment) := do
  ensureServeNode node
  collect db ((assigned db node.id).map (·,none) ++
    (migrationDeployments db node.id).map fun item => (item,migrationStatus db node.id item.id))

/-! What is assigned. -/

section Spec
variable {db : Database} {node : Node} {list : List ServeAssignment} {found : ServeAssignment}

theorem assignment_deployment {item : Deployment} {migration : Option MigrationStatus}
    (ok : assignment db item migration = .ok (some found)) : found.deploymentId = item.id := by
  unfold assignment at ok
  split at ok
  · cases ok
  · split at ok
    · cases ok
    · rename_i artifact _ _ _ _
      cases described : serveArtifact artifact with
      | error problem =>
        rw [described] at ok
        cases ok
      | ok artifact =>
        rw [described] at ok
        simp only [bind,Except.bind] at ok
        split at ok
        · cases ok
        · cases ok
          rfl

theorem collect_spec {items : List (Deployment × Option MigrationStatus)} (ok : collect db items = .ok list)
    (member : found ∈ list) : ∃ item ∈ items, found.deploymentId = item.1.id := by
  induction items generalizing list with
  | nil =>
    cases ok
    cases member
  | cons item rest ih =>
    obtain ⟨item,migration⟩ := item
    unfold collect at ok
    cases here : assignment db item migration with
    | error problem =>
      rw [here] at ok
      cases ok
    | ok own =>
      cases there : collect db rest with
      | error problem =>
        rw [here,there] at ok
        cases ok
      | ok later =>
        rw [here,there] at ok
        cases ok
        rcases List.mem_append.mp member with inside | inside
        · rw [Option.mem_toList.mp inside] at here
          exact ⟨_,List.mem_cons_self,assignment_deployment here⟩
        · obtain ⟨other,listed,same⟩ := ih there inside
          exact ⟨other,List.mem_cons_of_mem _ listed,same⟩

def shadowed (db : Database) (id : Uuid) : Bool :=
  db.migrations.rows.any fun migration => migration.deploymentId = id ∧ isShadow migration.status

theorem assignments_spec (ok : assignments db node = .ok list) (member : found ∈ list) :
    ∃ row ∈ db.deployments.rows, found.deploymentId = row.id ∧ row.buildStatus = .ready ∧
      (row.serveNodeId = some node.id ∨ shadowed db row.id) := by
  unfold assignments at ok
  cases permitted : ensureServeNode node with
  | error problem =>
    rw [permitted] at ok
    cases ok
  | ok _ =>
    rw [permitted] at ok
    obtain ⟨⟨item,_⟩,inside,same⟩ := collect_spec ok member
    rcases List.mem_append.mp inside with here | coming
    · obtain ⟨row,selected,pair⟩ := List.mem_map.mp here
      cases pair
      obtain ⟨present,facts⟩ := List.mem_filter.mp ((List.mem_insertionSort _).mp selected)
      simp only [decide_eq_true_eq] at facts
      exact ⟨item,present,same,facts.2.1,.inl facts.1⟩
    · obtain ⟨row,selected,pair⟩ := List.mem_map.mp coming
      cases pair
      obtain ⟨present,facts⟩ := List.mem_filter.mp selected
      simp only [decide_eq_true_eq] at facts
      refine ⟨item,present,same,facts.2.2.1,.inr ?_⟩
      obtain ⟨migration,listed,key⟩ := List.mem_map.mp facts.1
      obtain ⟨moving,target⟩ := List.mem_filter.mp listed
      simp only [decide_eq_true_eq] at target
      exact List.any_eq_true.mpr ⟨migration,moving,by simp [key,target.2]⟩

end Spec

end GrassWorker.Assignments
