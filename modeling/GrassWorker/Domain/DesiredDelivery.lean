import GrassWorker.Domain.Delivery

/-! Which ready builds keep their assignment when no release of the environment waits: the
newest one does, and a draft that is not being served only if it is the newest. -/
namespace GrassWorker.Delivery
open Deployments

def Servable (row : Deployment) : Prop := row.buildStatus = .ready ∧ row.serveStatus ≠ .retired

instance : DecidablePred Servable := fun row => inferInstanceAs (Decidable (row.buildStatus = .ready ∧ row.serveStatus ≠ .retired))

def NotNewer (first second : Deployment) : Prop := (candidateFromModel first).before (candidateFromModel second)

instance : DecidableRel NotNewer := fun first second =>
  inferInstanceAs (Decidable ((candidateFromModel first).before (candidateFromModel second)))

private theorem before_total (first second : Int × Nat) :
    (first.1 < second.1 ∨ first.1 = second.1 ∧ first.2 ≤ second.2) ∨ (second.1 < first.1 ∨ second.1 = first.1 ∧ second.2 ≤ first.2) := by
  omega

private theorem before_trans (first second third : Int × Nat)
    (one : first.1 < second.1 ∨ first.1 = second.1 ∧ first.2 ≤ second.2)
    (two : second.1 < third.1 ∨ second.1 = third.1 ∧ second.2 ≤ third.2) :
    first.1 < third.1 ∨ first.1 = third.1 ∧ first.2 ≤ third.2 := by
  omega

instance : Std.Total DeliveryCandidate.before where
  total first second := before_total (first.createdAt,first.id) (second.createdAt,second.id)

instance : IsTrans DeliveryCandidate DeliveryCandidate.before where
  trans first second third :=
    before_trans (first.createdAt,first.id) (second.createdAt,second.id) (third.createdAt,third.id)

theorem NotNewer.refl (row : Deployment) : NotNewer row row := .inr ⟨rfl,Nat.le_refl _⟩

theorem NotNewer.trans {first second third : Deployment} (one : NotNewer first second) (two : NotNewer second third) :
    NotNewer first third :=
  before_trans (first.createdAt,first.id) (second.createdAt,second.id) (third.createdAt,third.id) one two

section Candidates
variable {rows : List Deployment} {row : Deployment}

theorem mem_readyBuilds (member : row ∈ rows) (servable : Servable row) :
    candidateFromModel row ∈ readyBuilds (rows.map candidateFromModel) := by
  unfold readyBuilds
  rw [List.mem_insertionSort,List.mem_filter]
  refine ⟨List.mem_map_of_mem member,?_⟩
  obtain ⟨built,kept⟩ := servable
  simp [candidateFromModel,built,kept]

theorem of_mem_readyBuilds {candidate : DeliveryCandidate} (member : candidate ∈ readyBuilds (rows.map candidateFromModel)) :
    ∃ row ∈ rows, candidateFromModel row = candidate ∧ row.buildStatus = .ready ∧
      (row.serveStatus ≠ .retired ∨ row.pendingReleaseReason.isSome) := by
  unfold readyBuilds at member
  rw [List.mem_insertionSort,List.mem_filter] at member
  obtain ⟨inside,selected⟩ := member
  obtain ⟨row,present,rfl⟩ := List.mem_map.mp inside
  obtain ⟨built,kept⟩ := Bool.and_eq_true_iff.mp selected
  refine ⟨row,present,rfl,of_decide_eq_true built,?_⟩
  rcases Bool.or_eq_true_iff.mp kept with kept | waiting
  · exact .inl (of_decide_eq_true kept)
  · exact .inr waiting

theorem before_newest {newest : DeliveryCandidate} {earlier : List DeliveryCandidate}
    (sorted : (readyBuilds (rows.map candidateFromModel)).reverse = newest :: earlier) (member : row ∈ rows)
    (servable : Servable row) : (candidateFromModel row).before newest := by
  have pairs := List.pairwise_reverse.mpr (List.pairwise_insertionSort DeliveryCandidate.before
    ((rows.map candidateFromModel).filter fun candidate => candidate.buildStatus = .ready &&
      (candidate.serveStatus ≠ .retired || candidate.pendingRelease)))
  change (readyBuilds (rows.map candidateFromModel)).reverse.Pairwise _ at pairs
  have inside := List.mem_reverse.mpr (mem_readyBuilds member servable)
  rw [sorted] at pairs inside
  rcases List.mem_cons.mp inside with same | older
  · rw [same]
    exact .inr ⟨rfl,Nat.le_refl _⟩
  · exact List.rel_of_pairwise_cons pairs older

theorem newest_desired (free : ∀ row ∈ rows, row.pendingReleaseReason = none) (member : row ∈ rows) (servable : Servable row) :
    ∃ newest ∈ rows, Servable newest ∧ NotNewer row newest ∧ newest.id ∈ desiredDeliveryIds (rows.map candidateFromModel) := by
  have inside := List.mem_reverse.mpr (mem_readyBuilds member servable)
  cases sorted : (readyBuilds (rows.map candidateFromModel)).reverse with
  | nil =>
    rw [sorted] at inside
    cases inside
  | cons candidate earlier =>
    have first : candidate ∈ readyBuilds (rows.map candidateFromModel) := by
      rw [← List.mem_reverse,sorted]
      exact List.mem_cons_self
    obtain ⟨newest,present,rfl,built,kept⟩ := of_mem_readyBuilds first
    have unretired : newest.serveStatus ≠ .retired := by
      rcases kept with kept | waiting
      · exact kept
      · rw [free newest present] at waiting
        cases waiting
    refine ⟨newest,present,⟨built,unretired⟩,before_newest sorted member servable,?_⟩
    unfold desiredDeliveryIds
    rw [sorted]
    exact List.mem_append_right _ List.mem_cons_self

/-- A deployment that keeps its assignment for no other reason and is not being served is the newest ready build. -/
theorem newest_of_desired (distinct : (rows.map Deployment.id).Nodup) (member : row ∈ rows)
    (wanted : row.id ∈ desiredDeliveryIds (rows.map candidateFromModel))
    (dropped : keepsAssignment (candidateFromModel row) = false) (unserved : row.serveStatus ≠ .ready) :
    ∀ other ∈ rows, Servable other → NotNewer other row := by
  have same : ∀ candidate ∈ rows.map candidateFromModel, candidate.id = row.id → candidate = candidateFromModel row := by
    intro candidate inside key
    obtain ⟨other,present,rfl⟩ := List.mem_map.mp inside
    rw [List.inj_on_of_nodup_map distinct present member key]
  have candidates : ∀ candidate ∈ readyBuilds (rows.map candidateFromModel), candidate ∈ rows.map candidateFromModel := by
    intro candidate ready
    obtain ⟨other,present,rfl,_⟩ := of_mem_readyBuilds ready
    exact List.mem_map_of_mem present
  intro other inside servable
  unfold desiredDeliveryIds at wanted
  rcases List.mem_append.mp wanted with kept | ready
  · obtain ⟨candidate,selected,key⟩ := List.mem_map.mp kept
    obtain ⟨present,keeps⟩ := List.mem_filter.mp selected
    rw [same candidate present key,dropped] at keeps
    cases keeps
  · cases sorted : (readyBuilds (rows.map candidateFromModel)).reverse with
    | nil =>
      rw [sorted] at ready
      cases ready
    | cons newest earlier =>
      have ranked : ∀ candidate ∈ newest :: earlier, candidate ∈ rows.map candidateFromModel := by
        intro candidate listed
        rw [← sorted,List.mem_reverse] at listed
        exact candidates candidate listed
      rw [sorted] at ready
      rcases List.mem_cons.mp ready with first | previous
      · have chosen := same newest (ranked newest List.mem_cons_self) first.symm
        have older := before_newest sorted inside servable
        rw [chosen] at older
        exact older
      · split at previous
        · cases previous
        · obtain ⟨candidate,found,key⟩ := Option.map_eq_some_iff.mp (Option.mem_toList.mp previous)
          have listed := List.mem_cons_of_mem newest (List.mem_of_find?_eq_some found)
          have chosen := same candidate (ranked candidate listed) key
          have served := List.find?_some found
          rw [chosen] at served
          exact absurd (of_decide_eq_true served) unserved

end Candidates

end GrassWorker.Delivery
