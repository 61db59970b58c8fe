import GrassWorker.Foundations.Interleaving
import Mathlib.Algebra.Group.Basic

/-! What is still to be done: an account of the shared state that the handlers in flight owe exactly, and duties
each of which is in the hands of one of them. -/
namespace GrassWorker.Interleaving

universe u v w x y
variable {σ : Type u} {θ : Type v} {ρ : Type w} {ι : Type x} {κ : Type y} {M : Type y}

/-- What the handlers other than that at `index` owe. -/
def owedElsewhere [AddCommMonoid M] (weight : θ → M) (config : Config σ θ) (index : Nat) : M :=
  owed weight (⟨config.shared,config.inflight.eraseIdx index⟩ : Config σ θ)

section Owed
variable [AddCommMonoid M] (machine : Machine σ θ ρ ι) (weight : θ → M) {config : Config σ θ} {index : Nat} {handler : θ}

theorem owed_eq (found : config.inflight[index]? = some handler) :
    owed weight config = owedElsewhere weight config index + weight handler := by
  have ended := owed_resume (⟨fun _ => handler,fun _ s _ => (s,none)⟩ : Machine σ θ Unit Unit) weight config index () handler found
  rw [rest_none,add_zero] at ended
  rw [← ended]
  simp only [Machine.step,found]
  rfl

theorem owed_step (input : ι) (found : config.inflight[index]? = some handler) :
    owed weight (machine.step config (.resume index input)) =
      owedElsewhere weight config index + rest weight (machine.advance input config.shared handler).2 := by
  simp only [Machine.step,found]
  cases (machine.advance input config.shared handler).2 with
  | none =>
    rw [rest_none,add_zero]
    rfl
  | some next =>
    have inside : index < config.inflight.length := (List.getElem?_eq_some_iff.mp found).1
    have there : (config.inflight.set index next)[index]? = some next := List.getElem?_set_self inside
    have known : owed weight (⟨(machine.advance input config.shared handler).1,config.inflight.set index next⟩ : Config σ θ) =
        _ + weight next := owed_eq weight there
    rw [rest_some,settle,known]
    congr 1
    unfold owedElsewhere owed
    rw [List.eraseIdx_set_eq]

end Owed

section Balance
variable [AddCancelCommMonoid M] (machine : Machine σ θ ρ ι) (weight : θ → M) (account : σ → M)
  {config : Config σ θ} {index : Nat} {handler : θ}

theorem balanced_resume (input : ι) (found : config.inflight[index]? = some handler)
    (balanced : owed weight config = account config.shared)
    (moves : account (machine.advance input config.shared handler).1 + weight handler =
      account config.shared + rest weight (machine.advance input config.shared handler).2) :
    owed weight (machine.step config (.resume index input)) = account (machine.step config (.resume index input)).shared := by
  have ledger := owed_resume machine weight config index input handler found
  have shared : (machine.step config (.resume index input)).shared =
      (machine.advance input config.shared handler).1 := by simp only [Machine.step,found]
  rw [balanced,← moves] at ledger
  rw [shared]
  exact add_right_cancel ledger

end Balance

def Covered (duty : σ → κ → Prop) (work : θ → Multiset κ) (config : Config σ θ) : Prop :=
  ∀ task, duty config.shared task → task ∈ owed work config

section Covered
variable (machine : Machine σ θ ρ ι) {duty : σ → κ → Prop} {work : θ → Multiset κ} {config : Config σ θ} {index : Nat} {handler : θ}

theorem covered_arrive (request : ρ) (covered : Covered duty work config) :
    Covered duty work (machine.step config (.arrive request)) := by
  intro task due
  rw [owed_arrive]
  exact Multiset.mem_add.mpr (.inl (covered task due))

/-- What is a duty after an action is in other hands, or among what the handler goes on with, or was one that the
handler had not taken. -/
theorem covered_resume (input : ι) (found : config.inflight[index]? = some handler) (covered : Covered duty work config)
    (moves : ∀ task, duty (machine.advance input config.shared handler).1 task →
      task ∈ rest work (machine.advance input config.shared handler).2 ∨ task ∈ owedElsewhere work config index ∨
        (duty config.shared task ∧ task ∉ work handler)) :
    Covered duty work (machine.step config (.resume index input)) := by
  intro task due
  have shared : (machine.step config (.resume index input)).shared =
      (machine.advance input config.shared handler).1 := by simp only [Machine.step,found]
  rw [shared] at due
  rw [owed_step machine work input found,Multiset.mem_add]
  rcases moves task due with goes | elsewhere | ⟨before,untaken⟩
  · exact .inr goes
  · exact .inl elsewhere
  · left
    have inHand := covered task before
    rw [owed_eq work found] at inHand
    exact (Multiset.mem_add.mp inHand).resolve_right untaken

end Covered

end GrassWorker.Interleaving
