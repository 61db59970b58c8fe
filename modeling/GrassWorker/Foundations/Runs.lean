import Mathlib.Data.List.Basic

/-! Runs of a deterministic step function: a run is the list of its events, so
every list is a run and every state reached is the result of one. -/
namespace GrassWorker.Runs

universe u v w
variable {σ : Type u} {ε : Type v}

def run (step : σ → ε → σ) (initial : σ) (events : List ε) : σ := events.foldl step initial

/-- Every step of the run, taken as the state before it and its event, satisfies `holds`. -/
def Along (step : σ → ε → σ) (holds : σ → ε → Prop) : σ → List ε → Prop
  | _, [] => True
  | s, event :: rest => holds s event ∧ Along step holds (step s event) rest

def Throughout (step : σ → ε → σ) (property : σ → Prop) (s : σ) (events : List ε) : Prop :=
  property s ∧ Along step (fun s event => property (step s event)) s events

def observed {ο : Type w} (step : σ → ε → σ) (observe : σ → ε → Option ο) : σ → List ε → List ο
  | _, [] => []
  | s, event :: rest => (observe s event).toList ++ observed step observe (step s event) rest

instance Along.decide (step : σ → ε → σ) (holds : σ → ε → Prop) [∀ s event, Decidable (holds s event)] :
    ∀ s events, Decidable (Along step holds s events)
  | _, [] => isTrue trivial
  | s, event :: rest =>
    have := Along.decide step holds (step s event) rest
    inferInstanceAs (Decidable (holds s event ∧ Along step holds (step s event) rest))

variable {step : σ → ε → σ}

@[simp] theorem run_nil (s : σ) : run step s [] = s := rfl

@[simp] theorem run_cons (s : σ) (event : ε) (rest : List ε) :
    run step s (event :: rest) = run step (step s event) rest := rfl

theorem run_append (s : σ) (first second : List ε) :
    run step s (first ++ second) = run step (run step s first) second :=
  List.foldl_append

theorem along_append {holds : σ → ε → Prop} (s : σ) (first second : List ε) :
    Along step holds s (first ++ second) ↔
      Along step holds s first ∧ Along step holds (run step s first) second := by
  induction first generalizing s with
  | nil => simp [Along]
  | cons event rest ih => simp only [List.cons_append,Along,run_cons,ih,and_assoc]

/-- A step property that follows from the run condition in every state of an
invariant holds at every step of a run that meets the condition. -/
theorem along_of_invariant {invariant : σ → Prop} {condition holds : σ → ε → Prop}
    (kept : ∀ s event, invariant s → condition s event → invariant (step s event))
    (derived : ∀ s event, invariant s → condition s event → holds s event)
    (s : σ) (events : List ε) (start : invariant s) (meets : Along step condition s events) :
    Along step holds s events := by
  induction events generalizing s with
  | nil => trivial
  | cons event rest ih =>
    obtain ⟨here,later⟩ := meets
    exact ⟨derived s event start here,ih (step s event) (kept s event start here) later⟩

theorem invariant_run {invariant : σ → Prop} {condition : σ → ε → Prop}
    (kept : ∀ s event, invariant s → condition s event → invariant (step s event))
    (s : σ) (events : List ε) (start : invariant s) (meets : Along step condition s events) :
    invariant (run step s events) := by
  induction events generalizing s with
  | nil => exact start
  | cons event rest ih =>
    obtain ⟨here,later⟩ := meets
    exact ih (step s event) (kept s event start here) later

theorem Throughout.last {property : σ → Prop} {s : σ} {events : List ε} (holds : Throughout step property s events) :
    property (run step s events) := by
  induction events generalizing s with
  | nil => exact holds.1
  | cons event rest ih => exact ih holds.2

theorem throughout_of_invariant {invariant property : σ → Prop} {condition : σ → ε → Prop}
    (kept : ∀ s event, invariant s → condition s event → invariant (step s event))
    (implied : ∀ s, invariant s → property s)
    (s : σ) (events : List ε) (start : invariant s) (meets : Along step condition s events) :
    Throughout step property s events :=
  ⟨implied s start,along_of_invariant kept (fun s event holds permitted => implied _ (kept s event holds permitted))
    s events start meets⟩

theorem along_imp {first second : σ → ε → Prop} (weaker : ∀ s event, first s event → second s event)
    (s : σ) (events : List ε) (meets : Along step first s events) : Along step second s events := by
  induction events generalizing s with
  | nil => trivial
  | cons event rest ih =>
    obtain ⟨here,later⟩ := meets
    exact ⟨weaker s event here,ih (step s event) later⟩

theorem along_and {first second : σ → ε → Prop} {s : σ} {events : List ε} (one : Along step first s events)
    (two : Along step second s events) : Along step (fun s event => first s event ∧ second s event) s events := by
  induction events generalizing s with
  | nil => trivial
  | cons event rest ih => exact ⟨⟨one.1,two.1⟩,ih one.2 two.2⟩

theorem along_of_mem {holds : ε → Prop} (s : σ) (events : List ε) (all : ∀ event ∈ events, holds event) :
    Along step (fun _ event => holds event) s events := by
  induction events generalizing s with
  | nil => trivial
  | cons event rest ih =>
    have here : holds event := all event List.mem_cons_self
    have later : ∀ other ∈ rest, holds other := fun other member => all other (List.mem_cons_of_mem event member)
    exact ⟨here,ih (step s event) later⟩

theorem along_true (s : σ) (events : List ε) : Along step (fun _ _ => True) s events := by
  induction events generalizing s with
  | nil => trivial
  | cons event rest ih => exact ⟨trivial,ih _⟩

theorem invariant_run_always {invariant : σ → Prop}
    (kept : ∀ s event, invariant s → invariant (step s event))
    (s : σ) (events : List ε) (start : invariant s) : invariant (run step s events) := by
  have permitted : ∀ s event, invariant s → True → invariant (step s event) :=
    fun s event holds _ => kept s event holds
  exact invariant_run permitted s events start (along_true s events)

end GrassWorker.Runs
