import GrassWorker.Domain.Delivery

/-! Edits: a transaction changes one deployment, demotes at most one other for it,
and lets reconciliation follow. What the operations of delivery commit is of this form. -/
namespace GrassWorker.Delivery
open Transaction Deployments

def editedRow (target : Uuid) (change : Deployment → Deployment) (demoted : Option Uuid) (row : Deployment) :
    Deployment :=
  if row.id = target then change row
  else if some row.id = demoted then setRelease .approved row
  else row

structure Edited (target : Uuid) (change : Deployment → Deployment) (demoted : Option Uuid)
    (db after : Database) : Prop where
  rows : Rows (fun row next => Settled (editedRow target change demoted row) next) db after
  demotes : ∀ id, demoted = some id → id ≠ target ∧
    ∃ row, db.deployments.find id = some row ∧ row.releaseStatus = .active
  recorded : after.releases = db.releases ∧ demoted = none ∨
    ∃ entry, after.releases = db.releases ++ [entry] ∧ entry.previousDeploymentId = demoted ∧
      entry.deploymentId = target ∧
      ∃ row, after.deployments.find target = some row ∧ row.releaseStatus = .active
  only : OnlyReleases db after

theorem Settled.trans {row middle last : Deployment} (first : Settled row middle) (second : Settled middle last) :
    Settled row last := by
  rcases first with rfl | ⟨may,rfl⟩
  · exact second
  · refine .inr ⟨may,?_⟩
    rcases second with rfl | ⟨_,rfl⟩
    · rfl
    · exact retired_idem row

theorem Settled.release {row next : Deployment} (settled : Settled row next) :
    next.releaseStatus = row.releaseStatus := by
  rcases settled with rfl | ⟨_,rfl⟩ <;> rfl

section Edits
variable {target : Uuid} {change : Deployment → Deployment} {demoted : Option Uuid} {db middle after : Database}

theorem Edited.of_deterministic
    (rows : Rows (fun row next => next = if row.id = target then change row else row) db after)
    (releases : after.releases = db.releases) (only : OnlyReleases db after) :
    Edited target change none db after := by
  refine ⟨rows.mono ?_ fun _ impossible => impossible,fun _ impossible => (by cases impossible),
    .inl ⟨releases,rfl⟩,only⟩
  intro row next _ same
  left
  rw [same]
  unfold editedRow
  split
  · rfl
  · rw [if_neg (by simp)]

theorem Edited.of_wrote {updated : Deployment} (wrote : Wrote target change db updated after) :
    Edited target change none db after :=
  .of_deterministic wrote.evolves wrote.rest.releases wrote.rest.onlyReleases

theorem Edited.settle (edit : Edited target change demoted db middle) (settled : Reconciled middle after) :
    Edited target change demoted db after where
  rows := by
    refine (edit.rows.comp settled.rows).mono ?_ ?_
    · intro row last _ steps
      obtain ⟨next,first,second⟩ := steps
      exact first.trans second
    · intro row fresh
      obtain ⟨_,impossible,_⟩ := fresh
      exact impossible
  demotes := edit.demotes
  recorded := by
    rcases edit.recorded with ⟨same,kept⟩ | ⟨entry,appended,previous,named,row,found,active⟩
    · exact .inl ⟨settled.rest.releases.trans same,kept⟩
    · obtain ⟨next,reached,step⟩ := settled.rows.kept _ _ found
      exact .inr ⟨entry,settled.rest.releases.trans appended,previous,named,next,reached,step.release.trans active⟩
  only := edit.only.trans settled.rest.onlyReleases

theorem Edited.frame (edit : Edited target change demoted db middle) (same : after.deployments = middle.deployments)
    (releases : after.releases = middle.releases) (only : OnlyReleases middle after) :
    Edited target change demoted db after where
  rows := by
    have rows := edit.rows
    unfold Rows at *
    rw [same]
    exact rows
  demotes := edit.demotes
  recorded := by
    have recorded := edit.recorded
    rw [← same,← releases] at recorded
    exact recorded
  only := edit.only.trans only

theorem Edited.chain {first : Deployment → Deployment} (keeps : ∀ row, (first row).id = row.id)
    (rows : Rows (fun row next => next = if row.id = target then first row else row) db middle)
    (releases : middle.releases = db.releases) (only : OnlyReleases db middle)
    (edit : Edited target change demoted middle after) :
    Edited target (fun row => change (first row)) demoted db after where
  rows := by
    refine (rows.andThen edit.rows).mono ?_ fun _ impossible => impossible
    intro row next _ step
    by_cases chosen : row.id = target
    · rw [if_pos chosen,editedRow,if_pos ((keeps row).trans chosen)] at step
      rwa [editedRow,if_pos chosen]
    · rw [if_neg chosen] at step
      unfold editedRow at step ⊢
      rw [if_neg chosen] at step ⊢
      exact step
  demotes id named := by
    obtain ⟨other,row,found,active⟩ := edit.demotes id named
    refine ⟨other,row,?_,active⟩
    rcases rows.origin found with ⟨origin,present,same⟩ | ⟨_,impossible⟩
    · rw [if_neg (by rw [Table.find_key present]; exact other)] at same
      rw [present,same]
    · exact impossible.elim
  recorded := by
    have recorded := edit.recorded
    rw [releases] at recorded
    exact recorded
  only := only.trans edit.only

end Edits

section Operations
variable {instant : Instant} {db : Database}

theorem UnsuccessfulBuild.edited {id : Uuid} {change : BuildTransition} {updated : Deployment} {after : Database}
    (done : UnsuccessfulBuild instant id change db updated after) :
    Edited id (setBuild instant.now change) none db after := by
  refine ⟨done.rows.mono ?_ fun _ impossible => impossible,fun _ impossible => (by cases impossible),
    .inl ⟨done.rest.releases,rfl⟩,done.rest.onlyReleases⟩
  intro row next _ step
  unfold editedRow
  by_cases chosen : row.id = id
  · rwa [if_pos chosen] at step ⊢
  · rw [if_neg chosen] at step
    rwa [if_neg chosen,if_neg (by simp)]

theorem Removed.edited {id : Uuid} {kind : PublicationRemovalKind} {after : Database}
    (done : Removed id kind db after) : Edited id (removedRow kind) none db after := by
  refine ⟨done.rows.mono ?_ fun _ impossible => impossible,fun _ impossible => (by cases impossible),
    .inl ⟨done.rest.releases,rfl⟩,done.rest.onlyReleases⟩
  intro row next _ step
  unfold editedRow
  by_cases chosen : row.id = id
  · rwa [if_pos chosen] at step ⊢
  · rw [if_neg chosen] at step
    rwa [if_neg chosen,if_neg (by simp)]

theorem ReleaseQueued.edited {id actorUserId : Uuid} {reason : ReleaseReason} {visibility : AuditEventVisibility}
    {locked queued : Deployment} {placement : Option Scheduler.Placement} {after : Database}
    (done : ReleaseQueued instant id reason actorUserId visibility db locked queued placement after) :
    Edited id (queueRelease instant placement reason actorUserId visibility) none db after := by
  refine ⟨done.rows.mono ?_ fun _ impossible => impossible,fun _ impossible => (by cases impossible),
    .inl ⟨done.rest.releases,rfl⟩,done.rest.onlyReleases⟩
  intro row next _ step
  unfold editedRow
  by_cases chosen : row.id = id
  · rwa [if_pos chosen] at step ⊢
  · rw [if_neg chosen] at step
    rwa [if_neg chosen,if_neg (by simp)]

private theorem previous_demoted {target : Deployment} {id : Uuid}
    (named : (previousActive db target).map Deployment.id = some id) :
    id ≠ target.id ∧ ∃ row, db.deployments.find id = some row ∧ row.releaseStatus = .active := by
  obtain ⟨previous,found,rfl⟩ := Option.map_eq_some_iff.mp named
  obtain ⟨member,_,_,active,different,_⟩ := previousActive_spec found
  exact ⟨different,previous,Table.find_of_mem member,active⟩

theorem activated_edited {now : Timestamp} {target activated : Deployment} {reason : ReleaseReason}
    {actorUserId : Option Uuid} {after : Database} (done : Activated now target reason actorUserId db activated after) :
    Edited target.id (setRelease .active) ((previousActive db target).map Deployment.id) db after where
  rows := by
    refine done.evolves.mono ?_ fun _ impossible => impossible
    intro row next _ same
    exact .inl same
  demotes _ named := previous_demoted named
  recorded := by
    obtain ⟨row,found,same⟩ := done.row
    refine .inr ⟨_,done.releases,rfl,rfl,activated,?_,by rw [← same]; rfl⟩
    rw [done.find,if_pos rfl,found,Option.map_some,same]
  only := done.rest

theorem Completed.edited {target : Deployment} {reason : ReleaseReason} {after : Database} {row : Deployment}
    (done : Completed instant target reason db after) (found : db.deployments.find target.id = some row) :
    Edited target.id (fun row => clearPendingRelease (setRelease .active row))
      ((previousActive db target).map Deployment.id) db after where
  rows := by
    refine done.rows.mono ?_ fun _ impossible => impossible
    intro row next _ step
    unfold editedRow
    by_cases chosen : row.id = target.id
    · rwa [if_pos chosen] at step ⊢
    · rw [if_neg chosen,activatedRow,if_neg chosen] at step
      rwa [if_neg chosen]
  demotes _ named := previous_demoted named
  recorded := by
    obtain ⟨next,reached,step⟩ := done.rows.kept _ _ found
    rw [if_pos (Table.find_key found)] at step
    exact .inr ⟨_,done.releases,rfl,rfl,next,reached,step.release⟩
  only := done.rest

end Operations

end GrassWorker.Delivery
