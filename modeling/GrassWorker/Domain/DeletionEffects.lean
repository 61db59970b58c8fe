import GrassWorker.Domain.NodeDeletions
import GrassWorker.Foundations.Frames

/-! What the transactions of node deletion do to the nodes and to the jobs: a pass
leaves the nodes alone, until the last one disables the node of its job. -/
namespace GrassWorker.NodeDeletions
open Transaction Nodes

structure Aside (db after : Database) : Prop where
  nodes : after.nodes = db.nodes
  jobs : after.deletionJobs = db.deletionJobs

instance : IsPreorder Database Aside where
  refl _ := ⟨rfl,rfl⟩
  trans _ _ _ first second := ⟨second.nodes.trans first.nodes,second.jobs.trans first.jobs⟩

structure Advances (jobId : Uuid) (row next : NodeDeletionJob) : Prop where
  id : next.id = row.id
  node : next.nodeId = row.nodeId
  others : row.id ≠ jobId → next = row

structure Pass (jobId : Uuid) (db after : Database) : Prop where
  nodes : after.nodes = db.nodes
  jobs : Table.Evolves (Advances jobId) (fun _ => False) db.deletionJobs after.deletionJobs

structure Disabled (job : NodeDeletionJob) (db after : Database) : Prop where
  nodes : Table.Evolves (fun row next => if row.id = job.nodeId then next.status = .disabled else next = row)
    (fun _ => False) db.nodes after.nodes
  jobs : Table.Evolves (fun row next => Advances job.id row next ∧ (row.id = job.id → next.status = .completed))
    (fun _ => False) db.deletionJobs after.deletionJobs

structure Queued (sourceId : Uuid) (db after : Database) : Prop where
  nodes : Table.Evolves (fun row next => next = if row.id = sourceId then { row with status := .draining } else row)
    (fun _ => False) db.nodes after.nodes
  present : (db.nodes.find sourceId).isSome
  jobs : Table.Evolves (fun row next => next = row ∨ next.nodeId = sourceId) (fun next => next.nodeId = sourceId)
    db.deletionJobs after.deletionJobs

section Pass
variable {jobId : Uuid} {db middle after : Database}

theorem Pass.of_aside (aside : Aside db after) : Pass jobId db after := by
  refine ⟨aside.nodes,?_⟩
  rw [aside.jobs]
  exact Table.evolves_refl (fun _ => ⟨rfl,rfl,fun _ => rfl⟩) db.deletionJobs

theorem Advances.trans {row next last : NodeDeletionJob} (first : Advances jobId row next)
    (second : Advances jobId next last) : Advances jobId row last := by
  refine ⟨second.id.trans first.id,second.node.trans first.node,fun other => ?_⟩
  have kept := first.others other
  rw [second.others (by rwa [kept]),kept]

theorem Advances.of_update {change : NodeDeletionJob → NodeDeletionJob} (keeps : ∀ row, (change row).id = row.id)
    (node : ∀ row, (change row).nodeId = row.nodeId) (row : NodeDeletionJob) :
    Advances jobId row (if row.id = jobId then change row else row) := by
  split
  · rename_i chosen
    exact ⟨keeps row,node row,fun other => absurd chosen other⟩
  · exact ⟨rfl,rfl,fun _ => rfl⟩

theorem Pass.trans (first : Pass jobId db middle) (second : Pass jobId middle after) : Pass jobId db after := by
  refine ⟨second.nodes.trans first.nodes,(first.jobs.comp second.jobs).mono ?_ ?_⟩
  · rintro row last _ ⟨next,one,two⟩
    exact one.trans two
  · rintro row ⟨_,impossible,_⟩
    exact impossible

instance : IsPreorder Database (Pass jobId) where
  refl _ := .of_aside ⟨rfl,rfl⟩
  trans _ _ _ := Pass.trans

end Pass

section Steps
variable {jobId : Uuid}

theorem ensures_updateJob (change : NodeDeletionJob → NodeDeletionJob) (keeps : ∀ row, (change row).id = row.id)
    (db : Database) (post : NodeDeletionJob → Database → Prop) :
    Ensures (updateJob jobId change keeps) db post ↔
      ∀ deletionJobs row, db.deletionJobs.update jobId change keeps = some deletionJobs →
        deletionJobs.find jobId = some row → jobAllowed db row → post row { db with deletionJobs } := by
  rw [updateJob,ensures_write]
  constructor
  · intro whole jobs row updated found allowed
    refine whole row _ ?_
    simp [updated,found,guard,allowed]
  · intro parts row after written
    obtain ⟨jobs,updated,written⟩ := Option.bind_eq_some_iff.mp written
    obtain ⟨found,present,written⟩ := Option.bind_eq_some_iff.mp written
    obtain ⟨_,allowed,written⟩ := Option.bind_eq_some_iff.mp written
    cases written
    exact parts jobs row updated present (by simpa [guard] using allowed)

theorem updateJob_pass {change : NodeDeletionJob → NodeDeletionJob} {keeps : ∀ row, (change row).id = row.id}
    (node : ∀ row, (change row).nodeId = row.nodeId) : Within (Pass jobId) (updateJob jobId change keeps) := by
  intro db
  rw [ensures_updateJob]
  intro jobs row updated _ _
  refine ⟨rfl,(Table.evolves_update updated).mono ?_ fun _ impossible => impossible⟩
  rintro row next _ rfl
  exact .of_update keeps node row

theorem createJobAudit_aside (job : NodeDeletionJob) (action : String) (reason : Option String) :
    Within Aside (createJobAudit job action reason) := within_modify fun _ => ⟨rfl,rfl⟩

theorem updateMigrations_aside {selected : NodeDeploymentMigration → Prop} [DecidablePred selected]
    {change : NodeDeploymentMigration → NodeDeploymentMigration} {keeps : ∀ row, (change row).id = row.id} :
    Within Aside (updateMigrations selected change keeps) := by
  refine within_write ?_
  intro db _ after written
  obtain ⟨migrations,_,written⟩ := Option.bind_eq_some_iff.mp written
  cases written
  exact ⟨rfl,rfl⟩

variable (instant : Instant) (job : NodeDeletionJob)

theorem updateJobPhase_pass (status : NodeDeletionStatus) (ready activeBuilds : Nat) (error : Option String) :
    Within (Pass job.id) (updateJobPhase instant job status ready activeBuilds error) :=
  (within_ofExcept _).bind fun _ => (within_ofExcept _).bind fun _ => updateJob_pass fun _ => rfl

theorem failJob_pass (ready activeBuilds : Nat) (message : String) :
    Within (Pass job.id) (failJob instant job ready activeBuilds message) :=
  (updateMigrations_aside.mono fun _ _ => .of_aside).bind fun _ =>
    (updateJobPhase_pass instant job _ _ _ _).bind fun failed =>
      (createJobAudit_aside failed _ _).mono fun _ _ => .of_aside

theorem switchReadyRoutes_aside (migrations : List NodeDeploymentMigration) :
    Within Aside (switchReadyRoutes job migrations) := by
  unfold switchReadyRoutes
  split
  · exact within_pure _
  · refine (within_pure _).ite (.bind (within_write ?_) fun _ => createJobAudit_aside job _ _)
    intro db _ after written
    obtain ⟨deployments,_,written⟩ := Option.bind_eq_some_iff.mp written
    cases written
    exact ⟨rfl,rfl⟩

theorem settleMigration_aside (migration : NodeDeploymentMigration) : Within Aside (settleMigration instant migration) := by
  refine (within_pure _).ite ((within_query _).bind fun deployment => ?_)
  refine updateMigrations_aside.ite (.ite ((within_query _).bind fun error => ?_) (within_pure _))
  cases error with
  | some error => exact updateMigrations_aside
  | none => exact within_pure _

theorem finish_disables (ready : Nat) (db : Database) :
    Ensures (finish instant job ready) db fun done after => done = true → Disabled job db after := by
  unfold finish
  simp only [ensures_bind,ensures_query]
  cases found : db.nodes.find job.nodeId with
  | none => simp
  | some source =>
    simp only [ensures_bind,ensures_updateNode,count,ensures_ofExcept,ensures_updateJob,createJobAudit,
      ensures_modify,ensures_pure]
    intro nodes _ updated _ migrated _ jobs _ completed _ _ _
    refine ⟨(Table.evolves_update updated).mono ?_ fun _ impossible => impossible,
      (Table.evolves_update completed).mono ?_ fun _ impossible => impossible⟩
    · rintro row next _ rfl
      rw [Table.find_key found]
      split <;> rfl
    · rintro row next _ rfl
      refine ⟨?_,fun chosen => by rw [if_pos chosen]⟩
      apply Advances.of_update <;> exact fun _ => rfl

theorem Disabled.after {db middle after : Database} (pass : Pass job.id db middle) (disabled : Disabled job middle after) :
    Disabled job db after := by
  have nodes := disabled.nodes
  rw [pass.nodes] at nodes
  refine ⟨nodes,(pass.jobs.comp disabled.jobs).mono ?_ ?_⟩
  · rintro row last _ ⟨next,one,two,completed⟩
    exact ⟨one.trans two,fun chosen => completed (one.id.trans chosen)⟩
  · rintro row ⟨_,impossible,_⟩
    exact impossible

theorem advance_effect (migrations : List NodeDeploymentMigration) (activeBuilds : Nat) (db : Database) :
    Ensures (advance instant job migrations activeBuilds) db fun done after =>
      done = true → Pass job.id db after ∨ Disabled job db after := by
  have phase : ∀ status ready builds (error : Option String),
      Within (Pass job.id) (do
        let _ ← updateJobPhase instant job status ready builds error
        return true) := fun status ready builds error =>
    (updateJobPhase_pass instant job status ready builds error).bind fun _ => within_pure true
  have routes : ∀ condition [Decidable condition],
      Within (Pass job.id) (switchWhen condition job migrations) := fun _ _ =>
    ((switchReadyRoutes_aside job migrations).mono fun _ _ => .of_aside).ite (within_pure _)
  have passes : ∀ {transaction : Transaction Database String Bool} {middle}, Within (Pass job.id) transaction →
      Pass job.id db middle → Ensures transaction middle fun done after =>
        done = true → Pass job.id db after ∨ Disabled job db after := fun within before =>
    (within _).mono fun _ _ pass _ => .inl (before.trans pass)
  simp only [advance]
  cases nextPhase migrations.length (readyCount migrations) (failedCount migrations) activeBuilds with
  | failed => exact passes ((failJob_pass instant job _ _ _).bind fun _ => within_pure true) (refl_of _ db)
  | migrating => exact passes (phase _ _ _ _) (refl_of _ db)
  | draining => exact passes ((routes _).bind fun _ => phase _ _ _ _) (refl_of _ db)
  | deleting =>
    refine (ensures_bind _ _ _ _).mpr ((routes _ db).mono ?_)
    intro _ middle switched
    refine (ensures_ite _ _).mpr ⟨fun _ => passes (phase _ _ _ _) switched,fun _ => ?_⟩
    exact (finish_disables instant job _ middle).mono fun _ _ disabled done => .inr (.after job switched (disabled done))

end Steps

section Transactions
variable (instant : Instant)

theorem processJob_effect (jobId : Uuid) (db : Database) :
    Ensures (processJob instant jobId) db fun done after => done = true →
      ∃ job, db.deletionJobs.find jobId = some job ∧ job.status ≠ .completed ∧
        (Pass job.id db after ∨ Disabled job db after) := by
  unfold processJob
  simp only [ensures_bind,ensures_query]
  cases found : db.deletionJobs.find jobId with
  | none => simp
  | some job =>
    refine (ensures_ite _ _).mpr ⟨fun _ => by simp,fun unfinished => ?_⟩
    have open' : job.status ≠ .completed := fun completed => unfinished (.inr completed)
    simp only [ensures_bind,ensures_query]
    refine (ensures_ite _ _).mpr ⟨fun _ => ?_,fun _ => ?_⟩
    · simp only [ensures_bind,ensures_query,ensures_pure]
      exact (failJob_pass instant job _ _ _ db).mono fun _ _ pass _ => ⟨job,rfl,open',.inl pass⟩
    · simp only [ensures_bind,ensures_query]
      refine (within_forM (fun migration _ => settleMigration_aside instant migration) db).mono ?_
      intro _ middle settled
      refine (advance_effect instant job _ _ middle).mono ?_
      intro done after effect committed
      rcases effect committed with pass | disabled
      · exact ⟨job,rfl,open',.inl (.trans (.of_aside settled) pass)⟩
      · exact ⟨job,rfl,open',.inr (.after job (.of_aside settled) disabled)⟩

theorem failCurrent_effect (job : NodeDeletionJob) (error : String) (db : Database) :
    Ensures (failCurrent instant job error) db fun _ after => after = db ∨
      ∃ current, db.deletionJobs.find job.id = some current ∧ current.status ≠ .completed ∧ Pass current.id db after := by
  unfold failCurrent
  simp only [ensures_bind,ensures_query]
  cases found : db.deletionJobs.find job.id with
  | none => simp
  | some current =>
    refine (ensures_ite _ _).mpr ⟨fun _ => by simp,fun unfinished => ?_⟩
    exact (failJob_pass instant current _ _ _ db).mono fun _ _ pass =>
      .inr ⟨current,rfl,fun completed => unfinished (.inr completed),pass⟩

theorem activeJob_some {db : Database} {nodeId : Uuid} {job : NodeDeletionJob} (active : activeJob db nodeId = some job) :
    job ∈ db.deletionJobs.rows ∧ job.nodeId = nodeId ∧ job.status ≠ .completed := by
  have selected := List.find?_some active
  simp only [decide_eq_true_eq] at selected
  exact ⟨List.mem_of_find?_eq_some active,selected⟩

structure Reopened (nodeId : Uuid) (db after : Database) : Prop where
  nodes : after.nodes = db.nodes
  jobs : Table.Evolves (fun row next => next = row ∨ next.nodeId = nodeId) (fun next => next.nodeId = nodeId)
    db.deletionJobs after.deletionJobs

theorem queueJob_effect (source : Node) (target : Option Uuid) (actor : Uuid) (deployments builds : Nat) (db : Database) :
    Ensures (queueJob instant source target actor deployments builds) db fun _ after => Reopened source.id db after := by
  unfold queueJob
  simp only [ensures_bind,ensures_query]
  cases found : activeJob db source.id with
  | some job =>
    simp only [ensures_bind,ensures_require,deleteMigrations,ensures_modify,count,ensures_ofExcept,ensures_updateJob,
      ensures_pure]
    intro _ total _ activeBuilds _ jobs _ updated _ _
    obtain ⟨member,node,_⟩ := activeJob_some found
    refine ⟨rfl,(Table.evolves_update updated).mono ?_ fun _ impossible => impossible⟩
    rintro row next inside rfl
    by_cases chosen : row.id = job.id
    · rw [if_pos chosen]
      rw [db.deletionJobs.same_of_key inside member chosen]
      exact .inr node
    · rw [if_neg chosen]
      exact .inl rfl
  | none =>
    simp only [ensures_bind,count,ensures_ofExcept,insertJob,ensures_write,ensures_pure]
    intro total _ activeBuilds _ job after written
    obtain ⟨_,_,written⟩ := Option.bind_eq_some_iff.mp written
    obtain ⟨jobs,inserted,written⟩ := Option.bind_eq_some_iff.mp written
    cases written
    refine ⟨rfl,(Table.evolves_insert inserted).mono (fun _ _ _ same => .inl same) ?_⟩
    rintro row rfl
    rfl

theorem createMigrations_aside (migrationIds : Nat → Uuid) (job : NodeDeletionJob) (source : Uuid)
    (target : Option Uuid) (deployments : List Deployment) :
    Within Aside (createMigrations migrationIds job source target deployments) := by
  unfold createMigrations
  split
  · exact within_pure _
  · refine (within_pure _).ite (within_write ?_)
    intro db _ after written
    obtain ⟨_,_,written⟩ := Option.bind_eq_some_iff.mp written
    obtain ⟨_,_,written⟩ := Option.bind_eq_some_iff.mp written
    cases written
    exact ⟨rfl,rfl⟩

theorem requireTarget_reads (plan : DeletionPlan) (target : Option Uuid) (db : Database) :
    Ensures (requireTarget plan target) db fun _ after => after = db := by
  refine (ensures_ite _ _).mpr ⟨fun _ => ?_,fun _ => ?_⟩
  · simp
  · simp

theorem enqueue_effect (migrationIds : Nat → Uuid) (source : Node) (target : Option Uuid) (actor : Uuid) (db : Database) :
    Ensures (enqueue instant migrationIds source target actor) db fun _ after => Queued source.id db after := by
  unfold enqueue
  simp only [ensures_bind,ensures_get,ensures_ofExcept,ensures_query]
  intro plan _
  refine (requireTarget_reads plan target db).mono ?_
  rintro _ middle rfl
  refine (queueJob_effect instant source target actor _ _ middle).mono ?_
  intro job queued reopened
  refine (createMigrations_aside migrationIds _ _ _ _ queued).mono ?_
  intro _ last aside
  simp only [ensures_updateNode,createJobAudit,ensures_modify,ensures_pure]
  intro nodes row updated found
  have same : last.nodes = middle.nodes := aside.nodes.trans reopened.nodes
  refine ⟨?_,?_,?_⟩
  · rw [same] at updated
    exact Table.evolves_update updated
  · rw [Table.find_update updated,if_pos rfl,same] at found
    obtain ⟨old,present,_⟩ := Option.map_eq_some_iff.mp found
    rw [present]
    rfl
  · have jobs := reopened.jobs
    rwa [← aside.jobs] at jobs

end Transactions

end GrassWorker.NodeDeletions
