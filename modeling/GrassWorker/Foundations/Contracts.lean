import Mathlib.Data.List.Basic

/-! Contracts of computations that leave a state behind also when they fail. -/
namespace GrassWorker.Contracts

section Ends
variable {ε σ α β : Type}

def Ends (result : EStateM.Result ε σ α) (done : α → σ → Prop) (failed : ε → σ → Prop) : Prop :=
  match result with
  | .ok value after => done value after
  | .error error after => failed error after

variable {state : σ} {done : α → σ → Prop} {failed : ε → σ → Prop}

theorem Ends.mono {result : EStateM.Result ε σ α} {done' : α → σ → Prop} {failed' : ε → σ → Prop} (ends_ : Ends result done failed)
    (weaker : ∀ value after, done value after → done' value after)
    (weaker' : ∀ error after, failed error after → failed' error after) : Ends result done' failed' := by
  cases result with
  | ok value after => exact weaker value after ends_
  | error error after => exact weaker' error after ends_

theorem Ends.bind {first : EStateM ε σ α} {next : α → EStateM ε σ β} {M : α → σ → Prop} {done : β → σ → Prop}
    (starts : Ends (first state) M failed) (continues : ∀ value after, M value after → Ends (next value after) done failed) :
    Ends ((first >>= next) state) done failed := by
  change Ends (EStateM.bind first next state) done failed
  unfold EStateM.bind
  cases outcome : first state with
  | ok value after =>
    rw [outcome] at starts
    exact continues value after starts
  | error error after =>
    rw [outcome] at starts
    exact starts

theorem Ends.foldlM {item : Type} {round : β → item → EStateM ε σ β} (holds : List item → β → σ → Prop)
    (kept : ∀ seen value next state, holds seen value state →
      Ends (round value next state) (holds (seen ++ [next])) failed)
    (seen : List item) {items : List item} {value : β} (held : holds seen value state) :
    Ends (items.foldlM round value state) (holds (seen ++ items)) failed := by
  induction items generalizing seen value state with
  | nil =>
    rw [List.append_nil]
    exact held
  | cons next items ih =>
    rw [List.foldlM_cons]
    refine Ends.bind (kept seen value next state held) ?_
    intro value' after held'
    rw [← List.singleton_append,← List.append_assoc]
    exact ih _ held'

end Ends

/-- Whatever becomes of it, a computation keeps an invariant, and fails only as it may. -/
def Upholds {ε σ α : Type} (invariant : σ → Prop) (expected : ε → Prop) (computation : EStateM ε σ α) : Prop :=
  ∀ state, invariant state →
    Ends (computation state) (fun _ after => invariant after) fun error after => invariant after ∧ expected error

namespace Upholds
variable {ε σ α β item : Type} {invariant : σ → Prop} {expected : ε → Prop}

theorem pure (value : α) : Upholds invariant expected (Pure.pure value : EStateM ε σ α) := fun _ held => held

theorem throw {error : ε} (may : expected error) : Upholds invariant expected (MonadExcept.throw error : EStateM ε σ α) :=
  fun _ held => ⟨held,may⟩

theorem bind {first : EStateM ε σ α} {next : α → EStateM ε σ β} (starts : Upholds invariant expected first)
    (continues : ∀ value, Upholds invariant expected (next value)) : Upholds invariant expected (first >>= next) :=
  fun state held => (starts state held).bind fun value after held' => continues value after held'

theorem ite {condition : Prop} [Decidable condition] {first second : EStateM ε σ α} (yes : Upholds invariant expected first)
    (no : Upholds invariant expected second) : Upholds invariant expected (if condition then first else second) := by
  split
  · exact yes
  · exact no

theorem foldlM {round : β → item → EStateM ε σ β} (kept : ∀ value next, Upholds invariant expected (round value next))
    (value : β) (items : List item) : Upholds invariant expected (items.foldlM round value) := by
  intro state held
  refine Ends.foldlM (fun _ _ after => invariant after) ?_ [] held
  exact fun _ value next state held => kept value next state held

end Upholds

end GrassWorker.Contracts
