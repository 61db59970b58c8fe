/-! Computations that check one thing after the other and stop at the first that fails. -/
namespace GrassWorker.Checks

universe u v w
variable {ε : Type u} {α β : Type v}

/-- Stops with `problem` if the condition holds. -/
def refuse (condition : Prop) [Decidable condition] (problem : ε) : Except ε PUnit :=
  if condition then .error problem else .ok ⟨⟩

theorem bind_eq_ok {first : Except ε α} {next : α → Except ε β} {result : β} :
    (first >>= next) = .ok result ↔ ∃ value, first = .ok value ∧ next value = .ok result := by
  cases first with
  | error problem => simp [bind,Except.bind]
  | ok value => simp [bind,Except.bind]

theorem refuse_eq_ok {condition : Prop} [Decidable condition] {problem : ε} {result : PUnit} :
    refuse condition problem = .ok result ↔ ¬condition := by
  unfold refuse
  split
  · rename_i refused
    simp [refused]
  · rename_i passed
    simp [passed]

theorem refuse_bind_eq_ok {condition : Prop} [Decidable condition] {problem : ε} {next : PUnit → Except ε β} {result : β} :
    (refuse condition problem >>= next) = .ok result ↔ ¬condition ∧ next ⟨⟩ = .ok result := by
  rw [bind_eq_ok]
  constructor
  · rintro ⟨⟨⟩,passed,rest⟩
    exact ⟨refuse_eq_ok.mp passed,rest⟩
  · rintro ⟨passed,rest⟩
    exact ⟨⟨⟩,refuse_eq_ok.mpr passed,rest⟩

/-- What holds of every item of a list, by computing it for each. -/
theorem forall_mem_of_all {γ : Type w} {items : List γ} {holds : γ → Prop} [DecidablePred holds]
    (all : items.all fun item => decide (holds item)) : ∀ item ∈ items, holds item :=
  fun item member => of_decide_eq_true (List.all_eq_true.mp all item member)

theorem pure_eq_ok {value result : α} : (pure value : Except ε α) = .ok result ↔ value = result := by
  simp [pure,Except.pure]

theorem forM_eq_ok {γ : Type w} {check : γ → Except ε PUnit.{v + 1}} {items : List γ} {result : PUnit} :
    items.forM check = .ok result ↔ ∀ item ∈ items, check item = .ok ⟨⟩ := by
  induction items with
  | nil => simp [pure,Except.pure]
  | cons item items ih =>
    rw [List.forall_mem_cons]
    constructor
    · intro passed
      obtain ⟨⟨⟩,first,others⟩ := bind_eq_ok.mp passed
      exact ⟨first,ih.mp others⟩
    · rintro ⟨first,others⟩
      exact bind_eq_ok.mpr ⟨⟨⟩,first,ih.mpr others⟩

theorem mapM_eq_ok {f : α → Except ε β} {g : α → β} {items : List α} (each : ∀ item ∈ items, f item = .ok (g item)) :
    items.mapM f = .ok (items.map g) := by
  induction items with
  | nil => rfl
  | cons item items ih =>
    rw [List.mapM_cons,each item List.mem_cons_self,ih fun other inside => each other (List.mem_cons_of_mem item inside)]
    rfl

theorem mem_of_mapM {f : α → Except ε β} {items : List α} {results : List β}
    (mapped : items.mapM f = .ok results) {result : β} (member : result ∈ results) :
    ∃ item ∈ items, f item = .ok result := by
  induction items generalizing results with
  | nil =>
    cases mapped
    cases member
  | cons item items ih =>
    rw [List.mapM_cons] at mapped
    obtain ⟨first,one,mapped⟩ := bind_eq_ok.mp mapped
    obtain ⟨others,rest,mapped⟩ := bind_eq_ok.mp mapped
    cases mapped
    rcases List.mem_cons.mp member with rfl | later
    · exact ⟨item,List.mem_cons_self,one⟩
    · obtain ⟨found,inside,same⟩ := ih rest later
      exact ⟨found,List.mem_cons_of_mem item inside,same⟩

end GrassWorker.Checks
