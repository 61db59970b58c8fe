import GrassWorker.Domain.EffectivePreview

/-! What reconciliation keeps. The wanted deployments of an environment are described by the rows themselves, and the
rows it leaves are wanted, or retired, for the same reasons. -/
namespace GrassWorker.Delivery
open Transaction Deployments

def Deliverable (row : Deployment) : Prop :=
  row.buildStatus = .ready ∧ (row.serveStatus ≠ .retired ∨ row.pendingReleaseReason.isSome)

instance : DecidablePred Deliverable := fun _ => inferInstanceAs (Decidable (_ ∧ _))

structure NewestBuild (rows : List Deployment) (row : Deployment) : Prop where
  deliverable : Deliverable row
  last : ∀ other ∈ rows, Deliverable other → NotNewer other row

structure PreviousBuild (rows : List Deployment) (row : Deployment) : Prop where
  built : row.buildStatus = .ready
  served : row.serveStatus = .ready
  behind : ∃ newest ∈ rows, NewestBuild rows newest ∧ newest.serveStatus ≠ .ready
  last : ∀ other ∈ rows, other.buildStatus = .ready → other.serveStatus = .ready → NotNewer other row

/-- A build in progress, a release that is waited for, or the active one of Production. -/
def Protected (row : Deployment) : Prop :=
  inProgress row.buildStatus ∨ row.pendingReleaseReason.isSome ∨ row.environment = .production ∧ row.releaseStatus = .active

inductive Wanted (rows : List Deployment) (row : Deployment) : Prop
  | keeps (protected' : Protected row)
  | newest (newest : NewestBuild rows row)
  | previous (previous : PreviousBuild rows row)

theorem keepsAssignment_iff {row : Deployment} : keepsAssignment (candidateFromModel row) ↔ Protected row := by
  unfold keepsAssignment Protected candidateFromModel
  rw [Bool.or_eq_true_iff,Bool.or_eq_true_iff,Bool.and_eq_true_iff,or_assoc]
  exact or_congr_right (or_congr_right (and_congr decide_eq_true_iff decide_eq_true_iff))

private theorem find_greatest {α : Type} {before : α → α → Prop} {items : List α} {wanted : α → Bool} {first other : α}
    (reflexive : ∀ item, before item item) (descending : items.Pairwise fun left right => before right left)
    (found : items.find? wanted = some first) (member : other ∈ items) (chosen : wanted other) : before other first := by
  obtain ⟨_,early,late,rfl,unwanted⟩ := List.find?_eq_some_iff_append.mp found
  rcases List.mem_append.mp member with inside | inside
  · have refused := unwanted other inside
    rw [chosen] at refused
    cases refused
  · rcases List.mem_cons.mp inside with rfl | behind
    · exact reflexive other
    · exact List.rel_of_pairwise_cons (List.pairwise_append.mp descending).2.1 behind

section Rows
variable {rows : List Deployment} {row other : Deployment}

private theorem before_refl (candidate : DeliveryCandidate) : candidate.before candidate := .inr ⟨rfl,Nat.le_refl _⟩

theorem mem_readyBuilds_iff {candidate : DeliveryCandidate} :
    candidate ∈ (readyBuilds (rows.map candidateFromModel)).reverse ↔
      ∃ row ∈ rows, candidateFromModel row = candidate ∧ Deliverable row := by
  rw [List.mem_reverse]
  constructor
  · intro member
    obtain ⟨row,present,same,built,kept⟩ := of_mem_readyBuilds member
    exact ⟨row,present,same,built,kept⟩
  · rintro ⟨row,present,rfl,built,kept⟩
    unfold readyBuilds
    rw [List.mem_insertionSort,List.mem_filter]
    refine ⟨List.mem_map_of_mem present,?_⟩
    simpa [candidateFromModel,built] using kept

theorem readyBuilds_descending :
    (readyBuilds (rows.map candidateFromModel)).reverse.Pairwise fun left right => right.before left :=
  List.pairwise_reverse.mpr (List.pairwise_insertionSort DeliveryCandidate.before _)

variable (distinct : (rows.map Deployment.id).Nodup)
include distinct

private theorem row_of_id (member : row ∈ rows) (inside : other ∈ rows) (same : other.id = row.id) : other = row :=
  List.inj_on_of_nodup_map distinct inside member same

theorem NotNewer.eq (member : row ∈ rows) (inside : other ∈ rows) (one : NotNewer row other) (two : NotNewer other row) :
    other = row := row_of_id distinct member inside (two.id_eq one)

theorem NewestBuild.unique (first : NewestBuild rows row) (second : NewestBuild rows other) (member : row ∈ rows)
    (inside : other ∈ rows) : other = row :=
  NotNewer.eq distinct member inside (second.last row member first.deliverable) (first.last other inside second.deliverable)

theorem mem_desired_iff (member : row ∈ rows) :
    row.id ∈ desiredDeliveryIds (rows.map candidateFromModel) ↔ Wanted rows row := by
  have kept : row.id ∈ ((rows.map candidateFromModel).filter keepsAssignment).map DeliveryCandidate.id ↔ Protected row := by
    constructor
    · intro selected
      obtain ⟨candidate,chosen,key⟩ := List.mem_map.mp selected
      obtain ⟨listed,keeps⟩ := List.mem_filter.mp chosen
      obtain ⟨other,inside,rfl⟩ := List.mem_map.mp listed
      obtain rfl := row_of_id distinct member inside key
      exact keepsAssignment_iff.mp keeps
    · intro keeps
      exact List.mem_map_of_mem (f := DeliveryCandidate.id)
        (List.mem_filter.mpr ⟨List.mem_map_of_mem member,keepsAssignment_iff.mpr keeps⟩)
  have descending := @readyBuilds_descending rows
  have listed := @mem_readyBuilds_iff rows
  unfold desiredDeliveryIds
  rw [List.mem_append,kept]
  generalize (readyBuilds (rows.map candidateFromModel)).reverse = builds at descending listed
  cases builds with
  | nil =>
    have nothing : ∀ other ∈ rows, ¬Deliverable other := fun other inside deliverable =>
      absurd (listed.mpr ⟨other,inside,rfl,deliverable⟩) List.not_mem_nil
    constructor
    · rintro (keeps | impossible)
      · exact .keeps keeps
      · exact absurd impossible List.not_mem_nil
    · intro wanted
      cases wanted with
      | keeps keeps => exact .inl keeps
      | newest newest => exact absurd newest.deliverable (nothing row member)
      | previous previous =>
        obtain ⟨newest,inside,first,_⟩ := previous.behind
        exact absurd first.deliverable (nothing newest inside)
  | cons head earlier =>
    obtain ⟨first,inside,rfl,deliverable⟩ := listed.mp List.mem_cons_self
    have newest : NewestBuild rows first := by
      refine ⟨deliverable,fun other present build => ?_⟩
      rcases List.mem_cons.mp (listed.mpr ⟨other,present,rfl,build⟩) with same | older
      · unfold NotNewer
        rw [same]
        exact before_refl _
      · exact List.rel_of_pairwise_cons descending older
    have among : ∀ other ∈ rows, other.buildStatus = .ready → other.serveStatus = .ready → first.serveStatus ≠ .ready →
        candidateFromModel other ∈ earlier := by
      intro other present built served unserved
      have build : Deliverable other := ⟨built,.inl (by rw [served]; decide)⟩
      refine (List.mem_cons.mp (listed.mpr ⟨other,present,rfl,build⟩)).resolve_left fun same => unserved ?_
      rw [← served]
      exact (congrArg DeliveryCandidate.serveStatus same).symm
    have greatest := fun chosen other => @find_greatest _ _ earlier
      (fun candidate => candidate.serveStatus = .ready) chosen other before_refl descending.of_cons
    constructor
    · rintro (keeps | selected)
      · exact .keeps keeps
      · rcases List.mem_cons.mp selected with same | later
        · obtain rfl := row_of_id distinct member inside same.symm
          exact .newest newest
        · split at later
          · exact absurd later List.not_mem_nil
          · rename_i unserved
            obtain ⟨candidate,found,key⟩ := Option.map_eq_some_iff.mp (Option.mem_toList.mp later)
            obtain ⟨chosen,present,rfl,build⟩ := listed.mp (List.mem_cons_of_mem _ (List.mem_of_find?_eq_some found))
            obtain rfl := row_of_id distinct member present key
            refine .previous ⟨build.1,of_decide_eq_true (List.find?_some found :),⟨first,inside,newest,unserved⟩,?_⟩
            intro other present built served
            exact greatest _ _ found (among other present built served unserved) (decide_eq_true served)
    · intro wanted
      cases wanted with
      | keeps keeps => exact .inl keeps
      | newest chosen =>
        rw [newest.unique distinct chosen inside member]
        exact .inr List.mem_cons_self
      | previous previous =>
        obtain ⟨last,present,chosen,unserved⟩ := previous.behind
        obtain rfl := newest.unique distinct chosen inside present
        have candidate := among row member previous.built previous.served unserved
        right
        apply List.mem_cons_of_mem
        rw [if_neg (show ¬(candidateFromModel last).serveStatus = .ready from unserved)]
        cases found : earlier.find? fun candidate => candidate.serveStatus = .ready with
        | none => exact absurd (decide_eq_true previous.served) (List.find?_eq_none.mp found _ candidate)
        | some best =>
          obtain ⟨other,there,rfl,build⟩ := listed.mp (List.mem_cons_of_mem _ (List.mem_of_find?_eq_some found))
          have served := of_decide_eq_true (List.find?_some found :)
          have same : other = row := NotNewer.eq distinct member there
            (greatest _ _ found candidate (decide_eq_true previous.served)) (previous.last other there build.1 served)
          rw [same]
          exact List.mem_singleton_self _

end Rows

section Reconciliation
variable {instant : Instant} {db after : Database} {projectId : Uuid} {environment : Environment} {row : Deployment}

theorem mem_desired (member : row ∈ environmentRows db projectId environment) :
    row.id ∈ desired db projectId environment ↔ Wanted (environmentRows db projectId environment) row :=
  mem_desired_iff (environmentRows_distinct projectId environment) member

theorem Swept.keeps (sweep : Swept projectId environment db after) (member : row ∈ environmentRows db projectId environment)
    (wanted : Wanted (environmentRows db projectId environment) row) : after.deployments.find row.id = some row := by
  have same : swept (desired db projectId environment) row = row := if_pos (.inr ((mem_desired member).mpr wanted))
  rw [sweep.find,environmentRows_found member,Option.map_some,if_pos member,same]

theorem Swept.retires (sweep : Swept projectId environment db after) (member : row ∈ environmentRows db projectId environment)
    (unwanted : ¬Wanted (environmentRows db projectId environment) row) : after.deployments.find row.id = some (retired row) := by
  have undesired : ¬(inProgress row.buildStatus ∨ row.id ∈ desired db projectId environment) := by
    rintro (running | listed)
    · exact unwanted (.keeps (.inl running))
    · exact unwanted ((mem_desired member).mp listed)
  rw [sweep.find,environmentRows_found member,Option.map_some,if_pos member,swept,if_neg undesired]

theorem Swept.mem (sweep : Swept projectId environment db after) :
    row ∈ environmentRows after projectId environment ↔ ∃ before ∈ environmentRows db projectId environment,
      swept (desired db projectId environment) before = row := by
  have place (before : Deployment) : (swept (desired db projectId environment) before).projectId = before.projectId ∧
      (swept (desired db projectId environment) before).environment = before.environment ∧
      (swept (desired db projectId environment) before).deletedAt = before.deletedAt ∧
      (swept (desired db projectId environment) before).id = before.id := by
    unfold swept
    split <;> exact ⟨rfl,rfl,rfl,rfl⟩
  constructor
  · intro member
    obtain ⟨inside,project,where',live⟩ := mem_environmentRows.mp member
    have found := Table.find_of_mem inside
    rw [sweep.find] at found
    obtain ⟨before,present,same⟩ := Option.map_eq_some_iff.mp found
    by_cases listed : before ∈ environmentRows db projectId environment
    · rw [if_pos listed] at same
      exact ⟨before,listed,same⟩
    · rw [if_neg listed] at same
      subst same
      exact absurd (mem_environmentRows.mpr ⟨Table.find_mem present,project,where',live⟩) listed
  · rintro ⟨before,listed,rfl⟩
    obtain ⟨project,where',live,key⟩ := place before
    obtain ⟨_,project',environment',live'⟩ := mem_environmentRows.mp listed
    refine mem_environmentRows.mpr ⟨Table.find_mem (k := before.id) ?_,project.trans project',where'.trans environment',
      live.trans live'⟩
    rw [sweep.find,environmentRows_found listed,Option.map_some,if_pos listed]

theorem Swept.mem_of_wanted (sweep : Swept projectId environment db after) (member : row ∈ environmentRows db projectId environment)
    (wanted : Wanted (environmentRows db projectId environment) row) : row ∈ environmentRows after projectId environment :=
  sweep.mem.mpr ⟨row,member,if_pos (.inr ((mem_desired member).mpr wanted))⟩

theorem Swept.of_deliverable (sweep : Swept projectId environment db after) (member : row ∈ environmentRows after projectId environment)
    (deliverable : Deliverable row) : row ∈ environmentRows db projectId environment := by
  obtain ⟨before,listed,rfl⟩ := sweep.mem.mp member
  unfold swept at deliverable ⊢
  split
  · exact listed
  · rename_i undesired
    rw [if_neg undesired] at deliverable
    have unawaited := (retirable_of_undesired listed undesired).unawaited
    rcases deliverable.2 with unretired | awaited
    · exact absurd rfl unretired
    · rw [retired,unawaited] at awaited
      cases awaited

theorem Swept.newest (sweep : Swept projectId environment db after) (member : row ∈ environmentRows db projectId environment)
    (newest : NewestBuild (environmentRows db projectId environment) row) :
    row ∈ environmentRows after projectId environment ∧ NewestBuild (environmentRows after projectId environment) row :=
  ⟨sweep.mem_of_wanted member (.newest newest),newest.deliverable,
    fun other inside build => newest.last other (sweep.of_deliverable inside build) build⟩

theorem Swept.wanted (sweep : Swept projectId environment db after) (member : row ∈ environmentRows db projectId environment)
    (wanted : Wanted (environmentRows db projectId environment) row) : Wanted (environmentRows after projectId environment) row := by
  cases wanted with
  | keeps keeps => exact .keeps keeps
  | newest newest => exact .newest (sweep.newest member newest).2
  | previous previous =>
    obtain ⟨newest,inside,first,unserved⟩ := previous.behind
    obtain ⟨there,still⟩ := sweep.newest inside first
    refine .previous ⟨previous.built,previous.served,⟨newest,there,still,unserved⟩,?_⟩
    intro other present built served
    have build : Deliverable other := ⟨built,.inl (by rw [served]; decide)⟩
    exact previous.last other (sweep.of_deliverable present build) built served

theorem Swept.settled (sweep : Swept projectId environment db after) (later : Instant) :
    reconcileEnvironment later projectId environment after = .ok ((),after) := by
  have idle : ∀ item ∈ environmentRows after projectId environment,
      reconcileItem later (desired after projectId environment) item after = .ok ((),after) := by
    intro item member
    obtain ⟨before,listed,same⟩ := sweep.mem.mp member
    unfold reconcileItem
    by_cases wanted : inProgress item.buildStatus ∨ item.id ∈ desired after projectId environment
    · rw [if_pos wanted]
      rfl
    · have unwanted : ¬(inProgress before.buildStatus ∨ before.id ∈ desired db projectId environment) := by
        intro kept
        have unchanged : swept (desired db projectId environment) before = before := if_pos kept
        rw [unchanged] at same
        subst same
        refine wanted (kept.imp_right fun listed' => (mem_desired member).mpr ?_)
        exact sweep.wanted listed ((mem_desired listed).mp listed')
      have gone : swept (desired db projectId environment) before = retired before := if_neg unwanted
      rw [if_neg wanted,if_pos (by rw [← same,gone]; exact ⟨rfl,rfl⟩)]
      rfl
  unfold reconcileEnvironment
  rw [bind_apply]
  change forM (environmentRows after projectId environment) (reconcileItem later (desired after projectId environment)) after = _
  generalize environmentRows after projectId environment = items at idle
  induction items with
  | nil => rfl
  | cons item items ih =>
    rw [List.forM_cons,bind_apply,idle item List.mem_cons_self]
    exact ih fun other inside => idle other (List.mem_cons_of_mem _ inside)

theorem wanted_served {rows : List Deployment} (distinct : (rows.map Deployment.id).Nodup) (member : row ∈ rows)
    (built : row.buildStatus = .ready) (served : row.serveStatus = .ready) :
    ∃ kept ∈ rows, kept.buildStatus = .ready ∧ kept.serveStatus = .ready ∧ Wanted rows kept := by
  have build : candidateFromModel row ∈ (readyBuilds (rows.map candidateFromModel)).reverse :=
    mem_readyBuilds_iff.mpr ⟨row,member,rfl,built,.inl (by rw [served]; decide)⟩
  have among := @mem_desired_iff rows
  unfold desiredDeliveryIds at among
  have listed := @mem_readyBuilds_iff rows
  generalize (readyBuilds (rows.map candidateFromModel)).reverse = builds at among listed build
  cases builds with
  | nil => cases build
  | cons head earlier =>
    obtain ⟨first,inside,rfl,deliverable⟩ := listed.mp List.mem_cons_self
    by_cases first_served : first.serveStatus = .ready
    · exact ⟨first,inside,deliverable.1,first_served,
        (among distinct inside).mp (List.mem_append_right _ List.mem_cons_self)⟩
    · have later : candidateFromModel row ∈ earlier := by
        refine (List.mem_cons.mp build).resolve_left fun same => first_served ?_
        rw [← served]
        exact (congrArg DeliveryCandidate.serveStatus same).symm
      cases found : earlier.find? fun candidate => candidate.serveStatus = .ready with
      | none => exact absurd (decide_eq_true served) (List.find?_eq_none.mp found _ later)
      | some best =>
        obtain ⟨kept,there,rfl,built⟩ := listed.mp (List.mem_cons_of_mem _ (List.mem_of_find?_eq_some found))
        refine ⟨kept,there,built.1,of_decide_eq_true (List.find?_some found :),(among distinct there).mp ?_⟩
        apply List.mem_append_right
        apply List.mem_cons_of_mem
        rw [if_neg (show ¬(candidateFromModel first).serveStatus = .ready from first_served),found]
        exact List.mem_singleton_self _

end Reconciliation

structure RolloutSafe (projectId : Uuid) (environment : Environment) (db after : Database) : Prop where
  protects : ∀ row ∈ environmentRows db projectId environment, Protected row → after.deployments.find row.id = some row
  serves : (∃ row ∈ environmentRows db projectId environment, row.buildStatus = .ready ∧ row.serveStatus = .ready) →
    ∃ row ∈ environmentRows after projectId environment, row.buildStatus = .ready ∧ row.serveStatus = .ready
  keeps : ∀ row ∈ environmentRows db projectId environment, row.id ∈ desired db projectId environment →
    after.deployments.find row.id = some row
  retires : ∀ row ∈ environmentRows db projectId environment, row.id ∉ desired db projectId environment →
    ∃ next, after.deployments.find row.id = some next ∧ next.serveStatus = .retired ∧ next.serveNodeId = none
  settled : ∀ later, reconcileEnvironment later projectId environment after = .ok ((),after)

def KeepsNewest (among : Deployment → Prop) (projectId : Uuid) (environment : Environment) (db after : Database) : Prop :=
  ∀ row ∈ environmentRows db projectId environment, among row →
    (∀ other ∈ environmentRows db projectId environment, among other → NotNewer other row) →
      after.deployments.find row.id = some row

/-- The newest build that is kept is the newest of those that are not retired or wait for their release. -/
theorem reconciliation_rolls_out_safely (instant : Instant) (db : Database) (projectId : Uuid) (environment : Environment) :
    ∃ after, reconcileEnvironment instant projectId environment db = .ok ((),after) ∧
      RolloutSafe projectId environment db after ∧ KeepsNewest Deliverable projectId environment db after := by
  have runs := (@reconcileEnvironment_succeeds instant db projectId environment).and_ensures reconcileEnvironment_swept
  obtain ⟨_,after,done,_,sweep⟩ := runs
  refine ⟨after,done,⟨?_,?_,?_,?_,sweep.settled⟩,?_⟩
  · intro row member keeps
    exact sweep.keeps member (.keeps keeps)
  · rintro ⟨row,member,built,served⟩
    obtain ⟨kept,inside,built,served,wanted⟩ := wanted_served (environmentRows_distinct projectId environment) member built served
    exact ⟨kept,sweep.mem_of_wanted inside wanted,built,served⟩
  · intro row member listed
    exact sweep.keeps member ((mem_desired member).mp listed)
  · intro row member unlisted
    exact ⟨retired row,sweep.retires member fun wanted => unlisted ((mem_desired member).mpr wanted),rfl,rfl⟩
  · intro row member deliverable last
    exact sweep.keeps member (.newest ⟨deliverable,last⟩)

/-- An older build is syncing; the newer one was retired and has been asked for again. -/
def rolledBack : Database where
  deployments := ⟨[{
      id := 1, projectId := 3, teamId := 4, region := "eu", serveNodeId := some 7, environment := .production
      runtimeKind := .static, buildStatus := .ready, serveStatus := .syncing, releaseStatus := .approved
      serveCpuMillicores := 1, serveMemoryMb := 1, serveDiskMb := 1, overcommitted := false, previewHost := none
      createdAt := 1 },{
      id := 2, projectId := 3, teamId := 4, region := "eu", serveNodeId := none, environment := .production
      runtimeKind := .static, buildStatus := .ready, serveStatus := .retired, releaseStatus := .approved
      serveCpuMillicores := 1, serveMemoryMb := 1, serveDiskMb := 1, overcommitted := false, previewHost := none
      pendingReleaseReason := some .rollback, createdAt := 2 }],by decide,by decide⟩

/-- The syncing build, the only one that is not retired, makes way for the one that is waited for. -/
theorem waiting_release_replaces_newest : ¬∃ after, reconcileEnvironment { now := 5 } 3 .production rolledBack = .ok ((),after) ∧
    RolloutSafe 3 .production rolledBack after ∧ KeepsNewest Servable 3 .production rolledBack after := by
  rintro ⟨after,done,_,keeps⟩
  have gone : ((reconcileEnvironment { now := 5 } 3 .production rolledBack).toOption.bind fun result =>
      (result.2.deployments.find 1).map Deployment.serveStatus) = some .retired := by decide
  have newest : ∃ row ∈ environmentRows rolledBack 3 .production, row.id = 1 ∧ row.serveStatus = .syncing ∧ Servable row ∧
      ∀ other ∈ environmentRows rolledBack 3 .production, Servable other → NotNewer other row := by decide
  obtain ⟨row,member,key,syncing,servable,last⟩ := newest
  have found := keeps row member servable last
  rw [done] at gone
  rw [key] at found
  change (after.deployments.find 1).map Deployment.serveStatus = some .retired at gone
  rw [found,Option.map_some,syncing] at gone
  cases gone

end GrassWorker.Delivery
