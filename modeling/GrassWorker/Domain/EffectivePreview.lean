import GrassWorker.Domain.DesiredDelivery

/-! The effective preview of a project environment, as it is computed from a list of
deployments and as it is queried. -/
namespace GrassWorker.Delivery
open Deployments

def Previewable (row : Deployment) : Prop := row.buildStatus = .ready ∧ row.previewHost.isSome

instance : DecidablePred Previewable := fun _ => inferInstanceAs (Decidable (_ ∧ _))

def SameEnvironment (first second : Deployment) : Prop :=
  first.projectId = second.projectId ∧ first.environment = second.environment

instance : DecidableRel SameEnvironment := fun _ _ => inferInstanceAs (Decidable (_ ∧ _))

/-- Served, and the newest previewable row of its project environment among the rows. -/
structure Effective (rows : List Deployment) (row : Deployment) : Prop where
  previewable : Previewable row
  served : row.serveStatus = .ready
  newest : ∀ other ∈ rows, SameEnvironment other row → Previewable other → NotNewer other row

section Newest
variable {candidates : List DeliveryCandidate} {candidate : DeliveryCandidate}

theorem newest_eq_none : newest candidates = none ↔ candidates = [] := by
  cases candidates with
  | nil => simp [newest]
  | cons first rest =>
    simp only [newest,reduceCtorEq,iff_false]
    cases newest rest with
    | none => simp
    | some best =>
      simp only
      split <;> simp

theorem newest_spec (found : newest candidates = some candidate) :
    candidate ∈ candidates ∧ ∀ other ∈ candidates, other.before candidate := by
  induction candidates generalizing candidate with
  | nil => cases found
  | cons first rest ih =>
    unfold newest at found
    cases later : newest rest with
    | none =>
      rw [later] at found
      cases found
      rw [newest_eq_none] at later
      subst later
      exact ⟨List.mem_singleton_self _,fun other inside => List.mem_singleton.mp inside ▸ .inr ⟨rfl,Nat.le_refl _⟩⟩
    | some best =>
      rw [later] at found
      obtain ⟨inside,greatest⟩ := ih later
      simp only at found
      split at found
      · rename_i below
        cases found
        refine ⟨List.mem_cons_of_mem _ inside,?_⟩
        intro other listed
        rcases List.mem_cons.mp listed with rfl | listed
        · exact below
        · exact greatest other listed
      · rename_i above
        cases found
        have beats := (total_of DeliveryCandidate.before first best).resolve_left above
        refine ⟨List.mem_cons_self,?_⟩
        intro other listed
        rcases List.mem_cons.mp listed with rfl | listed
        · exact .inr ⟨rfl,Nat.le_refl _⟩
        · exact Trans.trans (greatest other listed) beats

end Newest

theorem NotNewer.id_eq {first second : Deployment} (one : NotNewer first second) (two : NotNewer second first) :
    first.id = second.id := by
  unfold NotNewer DeliveryCandidate.before candidateFromModel at one two
  simp only at one two
  grind

section Groups
variable {rows : List Deployment} {row : Deployment} {projectId : Uuid} {environment : Environment}

def previewGroup (rows : List Deployment) (projectId : Uuid) (environment : Environment) : List DeliveryCandidate :=
  (rows.filter fun row => row.previewHost.isSome ∧ row.projectId = projectId ∧
    row.environment = environment).map candidateFromModel

theorem mem_previewGroup_ready {candidate : DeliveryCandidate} :
    candidate ∈ (previewGroup rows projectId environment).filter (fun candidate => candidate.buildStatus = .ready) ↔
      ∃ row ∈ rows, candidateFromModel row = candidate ∧ Previewable row ∧
        row.projectId = projectId ∧ row.environment = environment := by
  simp only [previewGroup,List.mem_filter,List.mem_map,decide_eq_true_eq,Previewable]
  constructor
  · intro inside
    obtain ⟨⟨row,⟨present,named,project,place⟩,rfl⟩,built⟩ := inside
    exact ⟨row,present,rfl,⟨built,named⟩,project,place⟩
  · intro found
    obtain ⟨row,present,rfl,⟨built,named⟩,project,place⟩ := found
    exact ⟨⟨row,⟨present,named,project,place⟩,rfl⟩,built⟩

theorem effectivePreviewId_eq (distinct : (rows.map Deployment.id).Nodup) (member : row ∈ rows) :
    effectivePreviewId (previewGroup rows projectId environment) = some row.id ↔
      Effective rows row ∧ row.projectId = projectId ∧ row.environment = environment := by
  unfold effectivePreviewId
  simp only [Option.map_eq_some_iff,Option.filter_eq_some_iff,decide_eq_true_eq]
  constructor
  · intro picked
    obtain ⟨candidate,⟨found,served⟩,key⟩ := picked
    obtain ⟨inside,greatest⟩ := newest_spec found
    obtain ⟨chosen,present,rfl,previewable,project,place⟩ := mem_previewGroup_ready.mp inside
    have same : chosen = row := List.inj_on_of_nodup_map distinct present member key
    subst same
    refine ⟨⟨previewable,served,?_⟩,project,place⟩
    intro other listed beside previewable
    exact greatest _ (mem_previewGroup_ready.mpr
      ⟨other,listed,rfl,previewable,beside.1.trans project,beside.2.trans place⟩)
  · intro effective
    obtain ⟨⟨previewable,served,greatest⟩,project,place⟩ := effective
    have inside := mem_previewGroup_ready.mpr ⟨row,member,rfl,previewable,project,place⟩
    cases found : newest ((previewGroup rows projectId environment).filter fun candidate =>
        candidate.buildStatus = .ready) with
    | none =>
      rw [newest_eq_none] at found
      rw [found] at inside
      cases inside
    | some candidate =>
      obtain ⟨listed,above⟩ := newest_spec found
      obtain ⟨chosen,present,rfl,candidatePreviewable,project',place'⟩ := mem_previewGroup_ready.mp listed
      have key : chosen.id = row.id := NotNewer.id_eq
        (greatest chosen present ⟨project'.trans project.symm,place'.trans place.symm⟩ candidatePreviewable)
        (above _ inside)
      have same : chosen = row := List.inj_on_of_nodup_map distinct present member key
      subst same
      exact ⟨_,⟨rfl,served⟩,rfl⟩

end Groups

section Query
variable {db : Database} {row : Deployment} {projectId : Uuid} {environment : Environment}

private def descending (first second : Deployment) : Prop := (candidateFromModel second).before (candidateFromModel first)

private instance : DecidableRel descending :=
  fun first second => inferInstanceAs (Decidable ((candidateFromModel second).before (candidateFromModel first)))

private instance : Std.Total descending where
  total first second := total_of DeliveryCandidate.before (candidateFromModel second) (candidateFromModel first)

private instance : IsTrans Deployment descending where
  trans _ _ _ one two := NotNewer.trans two one

theorem head_of_newest {rows : List Deployment} (member : row ∈ rows) (distinct : (rows.map Deployment.id).Nodup) :
    (rows.insertionSort fun first second => (candidateFromModel second).before (candidateFromModel first)).head? = some row ↔
      ∀ other ∈ rows, NotNewer other row := by
  have sorted : (rows.insertionSort descending).Pairwise descending := List.pairwise_insertionSort descending rows
  change (rows.insertionSort descending).head? = some row ↔ _
  have inside := (List.mem_insertionSort descending).mpr member
  cases list : rows.insertionSort descending with
  | nil =>
    rw [list] at inside
    cases inside
  | cons first rest =>
    rw [list] at sorted inside
    have above : ∀ other ∈ rows, NotNewer other first := by
      intro other listed
      have among := (List.mem_insertionSort descending).mpr listed
      rw [list] at among
      rcases List.mem_cons.mp among with rfl | later
      · exact NotNewer.refl _
      · exact List.rel_of_pairwise_cons sorted later
    have present : first ∈ rows := by
      rw [← List.mem_insertionSort descending,list]
      exact List.mem_cons_self
    constructor
    · intro picked
      cases picked
      exact above
    · intro greatest
      have key := NotNewer.id_eq (above row member) (greatest first present)
      rw [List.inj_on_of_nodup_map distinct present member key.symm]
      rfl

theorem effectivePreview_eq (member : row ∈ db.deployments.rows) :
    (effectivePreview db projectId environment).map Deployment.id = some row.id ↔
      row.deletedAt = none ∧ row.projectId = projectId ∧ row.environment = environment ∧
        Effective (db.deployments.rows.filter fun other => other.deletedAt.isNone) row := by
  let candidates := (environmentRows db projectId environment).filter fun row =>
    row.buildStatus = .ready && row.previewHost.isSome
  have among : ∀ other, other ∈ candidates ↔ other ∈ db.deployments.rows ∧ other.projectId = projectId ∧
      other.environment = environment ∧ other.deletedAt = none ∧ Previewable other := by
    intro other
    simp only [candidates,environmentRows,Previewable,List.mem_filter,Bool.and_eq_true,decide_eq_true_eq,
      Option.isNone_iff_eq_none]
    tauto
  have distinct : (candidates.map Deployment.id).Nodup :=
    db.deployments.distinct.sublist ((List.filter_sublist.trans List.filter_sublist).map _)
  unfold effectivePreview
  simp only [Option.map_eq_some_iff,Option.filter_eq_some_iff,decide_eq_true_eq]
  constructor
  · intro picked
    obtain ⟨chosen,⟨found,served⟩,key⟩ := picked
    have listed : chosen ∈ candidates := (List.mem_insertionSort _).mp (List.mem_of_head? found)
    obtain ⟨present,project,place,live,previewable⟩ := (among chosen).mp listed
    have same := db.deployments.same_of_key present member key
    subst same
    refine ⟨live,project,place,previewable,served,?_⟩
    intro other inside beside otherPreviewable
    obtain ⟨otherPresent,otherLive⟩ := List.mem_filter.mp inside
    exact (head_of_newest listed distinct).mp found other ((among other).mpr ⟨otherPresent,beside.1.trans project,
      beside.2.trans place,Option.isNone_iff_eq_none.mp otherLive,otherPreviewable⟩)
  · intro effective
    obtain ⟨live,project,place,previewable,served,greatest⟩ := effective
    refine ⟨row,⟨?_,served⟩,rfl⟩
    refine (head_of_newest ((among row).mpr ⟨member,project,place,live,previewable⟩) distinct).mpr ?_
    intro other listed
    obtain ⟨present,project',place',live',otherPreviewable⟩ := (among other).mp listed
    exact greatest other (List.mem_filter.mpr ⟨present,Option.isNone_iff_eq_none.mpr live'⟩)
      ⟨project'.trans project.symm,place'.trans place.symm⟩ otherPreviewable

end Query

end GrassWorker.Delivery
