import GrassWorker.Domain.DesiredDelivery

/-! Why automatic releases go forward: a draft that is delivered is the newest ready
build of its environment, and reconciliation retires every other draft before its
node can report it. -/
namespace GrassWorker.Delivery
open Deployments

section Environment
variable (project : Uuid) (environment : Environment)

/-- How the deployments of the environment changed; a new one is not built yet. -/
structure Followed (becomes : Deployment → Deployment → Prop) (db after : Database) : Prop where
  kept : ∀ row ∈ environmentRows db project environment, ∃ next ∈ environmentRows after project environment, becomes row next
  origin : ∀ next ∈ environmentRows after project environment,
    (∃ row ∈ environmentRows db project environment, becomes row next) ∨ next.lifecycle = ⟨.pending,.pending,.draft,next.serveNodeId,none,none⟩

/-- What a transaction makes of a deployment before reconciliation, where releases are automatic. -/
structure Advanced (row next : Deployment) : Prop where
  identity : next.identity = row.identity
  free : row.pendingReleaseReason = none → next.pendingReleaseReason = none
  servable : Servable row → Servable next
  drafted : next.releaseStatus = .draft → row.releaseStatus = .draft
  served : next.serveStatus = .ready → next.releaseStatus = .draft → row.serveStatus = .ready
  activated : next.releaseStatus = .active → row.releaseStatus = .active ∨ row.releaseStatus = .draft ∧ Servable row

structure Covered (db : Database) : Prop where
  active : ∀ row ∈ environmentRows db project environment, row.releaseStatus = .active →
    ∃ newest ∈ environmentRows db project environment, Servable newest ∧ NotNewer row newest
  released : ∀ row ∈ environmentRows db project environment, row.serveStatus = .ready → row.releaseStatus ≠ .draft
  free : ∀ row ∈ environmentRows db project environment, row.pendingReleaseReason = none

structure Forward (db : Database) : Prop extends Covered project environment db where
  newest : ∀ draft ∈ environmentRows db project environment, draft.releaseStatus = .draft → Servable draft →
    ∀ row ∈ environmentRows db project environment, Servable row → NotNewer row draft

def NeverBack (db after : Database) : Prop :=
  ∀ row ∈ environmentRows db project environment, row.releaseStatus = .active →
    ∀ next ∈ environmentRows after project environment, next.releaseStatus = .active → NotNewer row next

instance (db after : Database) : Decidable (NeverBack project environment db after) :=
  inferInstanceAs (Decidable (∀ _ ∈ _, _))

end Environment

section Rows
variable {project : Uuid} {environment : Environment} {db middle after : Database} {row next other : Deployment}
  {becomes : Deployment → Deployment → Prop}

theorem mem_environmentRows_of_identity (same : next.identity = row.identity) (reached : after.deployments.find row.id = some next)
    (member : row ∈ environmentRows db project environment) : next ∈ environmentRows after project environment := by
  obtain ⟨_,projects,environments,live⟩ := mem_environmentRows.mp member
  refine mem_environmentRows.mpr ⟨Table.find_mem reached,?_,?_,?_⟩
  · exact (congrArg Identity.project same).trans projects
  · exact (congrArg Identity.environment same).trans environments
  · exact (congrArg Identity.deletedAt same).trans live

theorem Followed.of_evolves {born : Deployment → Prop} (rows : Table.Evolves becomes born db.deployments after.deployments)
    (keeps : ∀ row next, becomes row next → next.identity = row.identity)
    (unbuilt : ∀ row, born row → row.lifecycle = ⟨.pending,.pending,.draft,row.serveNodeId,none,none⟩) :
    Followed project environment becomes db after where
  kept row member := by
    obtain ⟨next,reached,step⟩ := rows.kept row.id row (environmentRows_found member)
    exact ⟨next,mem_environmentRows_of_identity (keeps row next step) reached member,step⟩
  origin next member := by
    rcases rows.origin (environmentRows_found member) with ⟨row,found,step⟩ | ⟨_,fresh⟩
    · have key : row.id = next.id := Table.find_key found
      have present : db.deployments.find next.id = some row := found
      exact .inl ⟨row,mem_environmentRows_of_identity (keeps row next step).symm present member,step⟩
    · exact .inr (unbuilt next fresh)

theorem Followed.refl (unchanged : ∀ row, becomes row row) (db : Database) : Followed project environment becomes db db :=
  ⟨fun row member => ⟨row,member,unchanged row⟩,fun next member => .inl ⟨next,member,unchanged next⟩⟩

theorem Followed.mono {becomes' : Deployment → Deployment → Prop} (rows : Followed project environment becomes db after)
    (weaker : ∀ row next, row ∈ environmentRows db project environment → becomes row next → becomes' row next) :
    Followed project environment becomes' db after where
  kept row member := by
    obtain ⟨next,reached,step⟩ := rows.kept row member
    exact ⟨next,reached,weaker row next member step⟩
  origin next member := by
    rcases rows.origin next member with ⟨row,present,step⟩ | fresh
    · exact .inl ⟨row,present,weaker row next present step⟩
    · exact .inr fresh

theorem Advanced.refl (row : Deployment) : Advanced row row :=
  ⟨rfl,id,id,id,fun ready _ => ready,.inl⟩

theorem Advanced.of_lifecycle (identity : next.identity = row.identity) {lifecycle : Lifecycle} (becomes : next.lifecycle = lifecycle)
    (release : lifecycle.release = row.releaseStatus) (pending : lifecycle.pending = row.pendingReleaseReason)
    (served : lifecycle.serve = .ready → lifecycle.release = .draft → row.serveStatus = .ready)
    (servable : Servable row → lifecycle.build = .ready ∧ lifecycle.serve ≠ .retired) : Advanced row next := by
  subst becomes
  have release : next.releaseStatus = row.releaseStatus := release
  have pending : next.pendingReleaseReason = row.pendingReleaseReason := pending
  refine ⟨identity,?_,servable,?_,served,?_⟩
  · intro free
    rwa [pending]
  · intro draft
    rwa [← release]
  · intro active
    rw [release] at active
    exact .inl active

theorem NotNewer.of_identity {row' other' : Deployment} (first : row'.identity = row.identity)
    (second : other'.identity = other.identity) (older : NotNewer row other) : NotNewer row' other' := by
  have ids : row'.id = row.id ∧ other'.id = other.id := ⟨congrArg Identity.id first,congrArg Identity.id second⟩
  have times : row'.createdAt = row.createdAt ∧ other'.createdAt = other.createdAt :=
    ⟨congrArg Identity.createdAt first,congrArg Identity.createdAt second⟩
  unfold NotNewer DeliveryCandidate.before candidateFromModel at older ⊢
  simpa only [ids.1,ids.2,times.1,times.2] using older

private theorem unbuilt_fields (unbuilt : next.lifecycle = ⟨.pending,.pending,.draft,next.serveNodeId,none,none⟩) :
    next.buildStatus = .pending ∧ next.serveStatus = .pending ∧ next.releaseStatus = .draft ∧ next.pendingReleaseReason = none :=
  ⟨congrArg Lifecycle.build unbuilt,congrArg Lifecycle.serve unbuilt,congrArg Lifecycle.release unbuilt,
    congrArg Lifecycle.pending unbuilt⟩

theorem Forward.covered (forward : Forward project environment db) (rows : Followed project environment Advanced db after) :
    Covered project environment after where
  active next member active := by
    rcases rows.origin next member with ⟨row,present,step⟩ | unbuilt
    · rcases step.activated active with was | ⟨_,servable⟩
      · obtain ⟨newest,inside,servable,older⟩ := forward.active row present was
        obtain ⟨last,reached,moved⟩ := rows.kept newest inside
        exact ⟨last,reached,moved.servable servable,older.of_identity step.identity moved.identity⟩
      · exact ⟨next,member,step.servable servable,NotNewer.refl next⟩
    · rw [(unbuilt_fields unbuilt).2.2.1] at active
      cases active
  released next member ready draft := by
    rcases rows.origin next member with ⟨row,present,step⟩ | unbuilt
    · exact forward.released row present (step.served ready draft) (step.drafted draft)
    · rw [(unbuilt_fields unbuilt).2.1] at ready
      cases ready
  free next member := by
    rcases rows.origin next member with ⟨row,present,step⟩ | unbuilt
    · exact step.free (forward.free row present)
    · exact (unbuilt_fields unbuilt).2.2.2

theorem Forward.neverBack (forward : Forward project environment db) (rows : Followed project environment Advanced db after) :
    NeverBack project environment db after := by
  intro row member active next reached now
  rcases rows.origin next reached with ⟨origin,present,step⟩ | unbuilt
  · rcases step.activated now with was | ⟨draft,servable⟩
    · obtain ⟨left,projects,environments,live⟩ := mem_environmentRows.mp member
      obtain ⟨right,projects',environments',live'⟩ := mem_environmentRows.mp present
      obtain rfl : row = origin :=
        active_unique left right live live' active was (projects.trans projects'.symm) (environments.trans environments'.symm)
      exact (NotNewer.refl row).of_identity rfl step.identity
    · obtain ⟨newest,inside,built,older⟩ := forward.active row member active
      have last := forward.newest origin present draft servable newest inside built
      exact (older.trans last).of_identity rfl step.identity
  · rw [(unbuilt_fields unbuilt).2.2.1] at now
    cases now

theorem Forward.steady (forward : Forward project environment db)
    (rows : Followed project environment (fun row next => Advanced row next ∧ (Servable next → Servable row)) db after) :
    Forward project environment after where
  toCovered := forward.covered (rows.mono fun _ _ _ step => step.1)
  newest draft member drafted servable next inside built := by
    rcases rows.origin draft member with ⟨row,present,step,back⟩ | unbuilt
    · rcases rows.origin next inside with ⟨other,here,moved,before⟩ | unbuilt
      · have older := forward.newest row present (step.drafted drafted) (back servable) other here (before built)
        exact older.of_identity moved.identity step.identity
      · have unready := built.1
        rw [(unbuilt_fields unbuilt).1] at unready
        cases unready
    · have unready := servable.1
      rw [(unbuilt_fields unbuilt).1] at unready
      cases unready

theorem Swept.kept (sweep : Swept project environment db after) (member : row ∈ environmentRows db project environment) :
    swept (desired db project environment) row ∈ environmentRows after project environment := by
  refine mem_environmentRows_of_identity (swept_identity _ row) ?_ member
  rw [sweep.find,environmentRows_found member,Option.map_some,if_pos member]

theorem Swept.origin (sweep : Swept project environment db after) (member : next ∈ environmentRows after project environment) :
    ∃ row ∈ environmentRows db project environment, next = swept (desired db project environment) row := by
  rcases sweep.rows.origin (environmentRows_found member) with ⟨row,found,same⟩ | ⟨_,impossible⟩
  · by_cases inside : row ∈ environmentRows db project environment
    · rw [if_pos inside] at same
      exact ⟨row,inside,same⟩
    · rw [if_neg inside] at same
      rw [← same] at found inside
      exact absurd (mem_environmentRows_of_identity rfl found member) inside
  · exact impossible.elim

theorem Covered.swept (covered : Covered project environment db) (sweep : Swept project environment db after) :
    Forward project environment after where
  active next member active := by
    obtain ⟨row,present,rfl⟩ := sweep.origin member
    rw [swept_releaseStatus] at active
    obtain ⟨last,inside,servable,older⟩ := covered.active row present active
    obtain ⟨newest,first,built,newer,wanted⟩ := newest_desired covered.free inside servable
    have unchanged : Delivery.swept (desired db project environment) newest = newest := if_pos (.inr wanted)
    have kept := sweep.kept first
    rw [unchanged] at kept
    exact ⟨newest,kept,built,(older.trans newer).of_identity (swept_identity _ row) rfl⟩
  released next member ready := by
    obtain ⟨row,present,rfl⟩ := sweep.origin member
    obtain ⟨same,_⟩ := swept_of_unretired (by rw [ready]; decide)
    rw [same] at ready ⊢
    exact covered.released row present ready
  free next member := by
    obtain ⟨row,present,rfl⟩ := sweep.origin member
    rw [swept_pendingReleaseReason]
    exact covered.free row present
  newest draft member drafted servable next inside built := by
    obtain ⟨row,present,rfl⟩ := sweep.origin member
    obtain ⟨other,here,rfl⟩ := sweep.origin inside
    obtain ⟨same,wanted⟩ := swept_of_unretired servable.2
    obtain ⟨same',_⟩ := swept_of_unretired built.2
    rw [same] at servable drafted ⊢
    rw [same'] at built ⊢
    have idle : inProgress row.buildStatus = false := by rw [servable.1]; rfl
    have chosen : row.id ∈ desired db project environment := by
      rcases wanted with running | chosen
      · rw [idle] at running
        cases running
      · exact chosen
    -- A draft whose build is ready is kept for no other reason than its age.
    have dropped : keepsAssignment (candidateFromModel row) = false := by
      refine keepsAssignment_eq_false.mpr ⟨idle,?_,?_⟩
      · change row.pendingReleaseReason.isSome = false
        rw [covered.free row present]
        rfl
      · rintro ⟨_,active⟩
        have active : row.releaseStatus = .active := active
        rw [drafted] at active
        cases active
    have unserved : row.serveStatus ≠ .ready := fun ready => covered.released row present ready drafted
    exact newest_of_desired (environmentRows_distinct project environment) present chosen dropped unserved other here built

theorem NeverBack.swept (never : NeverBack project environment db middle) (sweep : Swept project environment middle after) :
    NeverBack project environment db after := by
  intro row member active next reached now
  obtain ⟨origin,present,rfl⟩ := sweep.origin reached
  rw [swept_releaseStatus] at now
  exact (never row member active origin present now).of_identity rfl (swept_identity _ origin)

inductive Moved (project : Uuid) (environment : Environment) (db after : Database) : Prop
  | steady (rows : Followed project environment (fun row next => Advanced row next ∧ (Servable next → Servable row)) db after)
  | swept (middle settled : Database) (rows : Followed project environment Advanced db middle)
      (sweep : Swept project environment middle settled) (same : after.deployments = settled.deployments)

theorem Moved.frame (moved : Moved project environment db middle) (same : after.deployments = middle.deployments) :
    Moved project environment db after := by
  have listed : environmentRows after project environment = environmentRows middle project environment := by
    unfold environmentRows
    rw [same]
  cases moved with
  | steady rows =>
    obtain ⟨kept,origin⟩ := rows
    rw [← listed] at kept origin
    exact .steady ⟨kept,origin⟩
  | swept between settled rows sweep settles => exact .swept between settled rows sweep (same.trans settles)

theorem Forward.moved (forward : Forward project environment db) (moved : Moved project environment db after) :
    Forward project environment after ∧ NeverBack project environment db after := by
  cases moved with
  | steady rows => exact ⟨forward.steady rows,forward.neverBack (rows.mono fun _ _ _ step => step.1)⟩
  | swept middle settled rows sweep same =>
    have listed : environmentRows after project environment = environmentRows settled project environment := by
      unfold environmentRows
      rw [same]
    have settles := (forward.covered rows).swept sweep
    have never := (forward.neverBack rows).swept sweep
    obtain ⟨⟨active,released,free⟩,newest⟩ := settles
    rw [← listed] at active released free newest
    refine ⟨⟨⟨active,released,free⟩,newest⟩,?_⟩
    unfold NeverBack at never ⊢
    rwa [listed]

end Rows

end GrassWorker.Delivery
