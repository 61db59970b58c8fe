import Mathlib.Order.Lattice
import Mathlib.Data.List.Basic

/-! The items of a list whose score is lowest, gathered in one pass that keeps the lowest score so far and the items
that are tied at it. -/
namespace GrassWorker.TiedMinimum

universe u v
variable {α : Type u} {β : Type v} [LinearOrder β]

structure Tied (α : Type u) (β : Type v) where
  minimum : Option β := none
  items : List α := []

def consider (score : α → β) (state : Tied α β) (item : α) : Tied α β :=
  match state.minimum with
  | none => ⟨some (score item),[item]⟩
  | some minimum =>
    match compare (score item) minimum with
    | .lt => ⟨some (score item),[item]⟩
    | .eq => ⟨some minimum,state.items ++ [item]⟩
    | .gt => state

def lowest (score : α → β) (items : List α) : List α := (items.foldl (consider score) {}).items

inductive Found (score : α → β) : List α → Tied α β → Prop
  | nothing : Found score [] {}
  | least {items tied : List α} {minimum : β} (reached : ∃ item ∈ items, score item = minimum)
      (bound : ∀ item ∈ items, minimum ≤ score item) (ties : ∀ item, item ∈ tied ↔ item ∈ items ∧ score item = minimum) :
      Found score items ⟨some minimum,tied⟩

variable {score : α → β} {items : List α} {item : α}

private theorem found_below {minimum : β} (bound : ∀ other ∈ items, minimum ≤ score other) (less : score item < minimum) :
    Found score (items ++ [item]) ⟨some (score item),[item]⟩ := by
  refine .least ⟨item,by simp,rfl⟩ ?_ ?_
  · intro other member
    rcases List.mem_append.mp member with before | same
    · exact le_trans (le_of_lt less) (bound other before)
    · rw [List.mem_singleton.mp same]
  · intro other
    rw [List.mem_append,List.mem_singleton]
    constructor
    · rintro rfl
      exact ⟨.inr rfl,rfl⟩
    · rintro ⟨before | same,equal⟩
      · have above := bound other before
        rw [equal] at above
        exact absurd less (not_lt_of_ge above)
      · exact same

private theorem Found.consider {state : Tied α β} (found : Found score items state) (item : α) :
    Found score (items ++ [item]) (consider score state item) := by
  cases found with
  | nothing =>
    refine .least ⟨item,by simp,rfl⟩ ?_ ?_
    · intro other member
      rw [List.mem_singleton.mp member]
    · intro other
      constructor
      · intro same
        rw [List.mem_singleton.mp same]
        exact ⟨List.mem_singleton_self _,rfl⟩
      · exact fun both => both.1
  | least reached bound ties =>
    rename_i tied minimum
    simp only [TiedMinimum.consider]
    cases order : compare (score item) minimum with
    | lt => exact found_below bound (compare_lt_iff_lt.mp order)
    | eq =>
      have equal := compare_eq_iff_eq.mp order
      obtain ⟨first,inside,same⟩ := reached
      refine .least ⟨first,List.mem_append_left _ inside,same⟩ ?_ ?_
      · intro other member
        rcases List.mem_append.mp member with before | last
        · exact bound other before
        · rw [List.mem_singleton.mp last,equal]
      · intro other
        rw [List.mem_append,List.mem_append,List.mem_singleton,ties]
        constructor
        · rintro (⟨before,same⟩ | rfl)
          · exact ⟨.inl before,same⟩
          · exact ⟨.inr rfl,equal⟩
        · rintro ⟨before | last,same⟩
          · exact .inl ⟨before,same⟩
          · exact .inr last
    | gt =>
      have above := compare_gt_iff_gt.mp order
      obtain ⟨first,inside,same⟩ := reached
      refine .least ⟨first,List.mem_append_left _ inside,same⟩ ?_ ?_
      · intro other member
        rcases List.mem_append.mp member with before | last
        · exact bound other before
        · rw [List.mem_singleton.mp last]
          exact le_of_lt above
      · intro other
        rw [ties,List.mem_append,List.mem_singleton]
        constructor
        · exact fun both => ⟨.inl both.1,both.2⟩
        · rintro ⟨before | rfl,same⟩
          · exact ⟨before,same⟩
          · exact absurd same (ne_of_gt above)

private theorem found_foldl (later : List α) {state : Tied α β} (found : Found score items state) :
    Found score (items ++ later) (later.foldl (TiedMinimum.consider score) state) := by
  induction later generalizing items state with
  | nil => rwa [List.append_nil]
  | cons item later ih =>
    have goes := ih (found.consider item)
    rwa [List.append_assoc] at goes

theorem lowest_found (score : α → β) (items : List α) : Found score items (items.foldl (consider score) {}) :=
  found_foldl items .nothing

theorem mem_lowest : item ∈ lowest score items ↔ item ∈ items ∧ ∀ other ∈ items, score item ≤ score other := by
  unfold lowest
  have found := lowest_found score items
  generalize items.foldl (consider score) {} = state at found
  cases found with
  | nothing => simp
  | least reached bound ties =>
    rw [ties]
    constructor
    · rintro ⟨member,rfl⟩
      exact ⟨member,bound⟩
    · rintro ⟨member,below⟩
      obtain ⟨first,inside,same⟩ := reached
      exact ⟨member,le_antisymm (same ▸ below first inside) (bound item member)⟩

theorem lowest_eq_nil : lowest score items = [] ↔ items = [] := by
  constructor
  · intro none
    have found := lowest_found score items
    unfold lowest at none
    generalize items.foldl (consider score) {} = state at found none
    cases found with
    | nothing => rfl
    | least reached bound ties =>
      obtain ⟨first,inside,same⟩ := reached
      have tied := (ties first).mpr ⟨inside,same⟩
      simp only at none
      rw [none] at tied
      cases tied
  · rintro rfl
    rfl

end GrassWorker.TiedMinimum
