import GrassWorker.Foundations.Runs
import Mathlib.Algebra.BigOperators.Group.List.Basic
import Mathlib.Algebra.Order.Group.Multiset
import Mathlib.Algebra.Order.Monoid.Defs

/-! Handlers in flight over one shared state. Each handler is a sequence of
atomic actions; a run interleaves the actions of any number of them. -/
namespace GrassWorker.Interleaving
open Runs

universe u v w x y

/-- `enter` is where a request starts. `advance` is the next atomic action of a
handler: the shared state after it and the rest of the handler, `none` once it has returned. -/
structure Machine (σ : Type u) (θ : Type v) (ρ : Type w) (ι : Type x) where
  enter : ρ → θ
  advance : ι → σ → θ → σ × Option θ

structure Config (σ : Type u) (θ : Type v) where
  shared : σ
  inflight : List θ
deriving DecidableEq

inductive Event (ρ : Type w) (ι : Type x)
  | arrive (request : ρ)
  | resume (index : Nat) (input : ι)

variable {σ : Type u} {θ : Type v} {ρ : Type w} {ι : Type x}

/-- The in-flight list once the handler at `index` has been left with `rest`. -/
def settle (inflight : List θ) (index : Nat) : Option θ → List θ
  | some rest => inflight.set index rest
  | none => inflight.eraseIdx index

def Machine.step (machine : Machine σ θ ρ ι) (config : Config σ θ) : Event ρ ι → Config σ θ
  | .arrive request => ⟨config.shared,config.inflight ++ [machine.enter request]⟩
  | .resume index input =>
    match config.inflight[index]? with
    | none => config
    | some handler =>
      ⟨(machine.advance input config.shared handler).1,
        settle config.inflight index (machine.advance input config.shared handler).2⟩

/-- `holds` of the action an event takes, when it takes one. -/
def Acting (holds : ι → σ → θ → Prop) (config : Config σ θ) : Event ρ ι → Prop
  | .arrive _ => True
  | .resume index input =>
    ∀ handler, config.inflight[index]? = some handler → holds input config.shared handler

instance (holds : ι → σ → θ → Prop) [∀ input s handler, Decidable (holds input s handler)] (config : Config σ θ) :
    ∀ event : Event ρ ι, Decidable (Acting holds config event)
  | .arrive _ => isTrue trivial
  | .resume index input =>
    decidable_of_iff (∀ handler ∈ config.inflight[index]?, holds input config.shared handler) Iff.rfl

theorem acting_true (config : Config σ θ) (event : Event ρ ι) : Acting (fun (_ : ι) (_ : σ) (_ : θ) => True) config event := by
  cases event with
  | arrive request => trivial
  | resume index input => exact fun _ _ => trivial

theorem mem_settle {inflight : List θ} {index : Nat} {rest : Option θ} {handler : θ}
    (member : handler ∈ settle inflight index rest) : handler ∈ inflight ∨ rest = some handler := by
  cases rest with
  | none => exact .inl (List.mem_of_mem_eraseIdx member)
  | some next =>
    rcases List.mem_or_eq_of_mem_set member with old | rfl
    · exact .inl old
    · exact .inr rfl

/-- `holds` of the action an event takes, and `apart` of that action and each of the other handlers. -/
def ActingApart (holds : ι → σ → θ → Prop) (apart : ι → σ → θ → θ → Prop) (config : Config σ θ) : Event ρ ι → Prop
  | .arrive _ => True
  | .resume index input => ∀ handler, config.inflight[index]? = some handler →
    holds input config.shared handler ∧ ∀ other ∈ config.inflight.eraseIdx index, apart input config.shared handler other

instance (holds : ι → σ → θ → Prop) (apart : ι → σ → θ → θ → Prop) [∀ input s handler, Decidable (holds input s handler)]
    [∀ input s handler other, Decidable (apart input s handler other)] (config : Config σ θ) :
    ∀ event : Event ρ ι, Decidable (ActingApart holds apart config event)
  | .arrive _ => isTrue trivial
  | .resume index input => decidable_of_iff (∀ handler ∈ config.inflight[index]?, holds input config.shared handler ∧
      ∀ other ∈ config.inflight.eraseIdx index, apart input config.shared handler other) Iff.rfl

theorem mem_settle_apart {inflight : List θ} {index : Nat} {rest : Option θ} {handler : θ}
    (member : handler ∈ settle inflight index rest) : handler ∈ inflight.eraseIdx index ∨ rest = some handler := by
  cases rest with
  | none => exact .inl member
  | some next =>
    obtain ⟨position,found⟩ := List.mem_iff_getElem?.mp member
    rw [settle,List.getElem?_set] at found
    split at found
    · split at found
      · exact .inr found
      · cases found
    · rename_i different
      exact .inl (List.mem_eraseIdx_iff_getElem?.mpr ⟨position,Ne.symm different,found⟩)

section RelyGuarantee
variable {machine : Machine σ θ ρ ι} {shared : σ → Prop} {local' : σ → θ → Prop}
  {condition : ι → σ → θ → Prop} {apart : ι → σ → θ → θ → Prop}

/-- An invariant of the shared state together with one assertion for each handler in flight. -/
structure Holds (shared : σ → Prop) (local' : σ → θ → Prop) (config : Config σ θ) : Prop where
  state : shared config.shared
  handlers : ∀ handler ∈ config.inflight, local' config.shared handler

/-- The step rule for actions that are kept apart: a handler's action keeps the shared invariant and its own
assertion, and disturbs the assertion of no other handler it is apart from. -/
theorem Holds.step_apart
    (arrives : ∀ s request, shared s → local' s (machine.enter request))
    (own : ∀ input s handler, condition input s handler → shared s → local' s handler →
      shared (machine.advance input s handler).1 ∧
        ∀ rest, (machine.advance input s handler).2 = some rest →
          local' (machine.advance input s handler).1 rest)
    (others : ∀ input s handler other, condition input s handler → apart input s handler other → shared s →
      local' s handler → local' s other → local' (machine.advance input s handler).1 other)
    (config : Config σ θ) (event : Event ρ ι) (holds : Holds shared local' config)
    (meets : ActingApart condition apart config event) : Holds shared local' (machine.step config event) := by
  cases event with
  | arrive request =>
    refine ⟨holds.state,fun handler member => ?_⟩
    rcases List.mem_append.mp member with old | new
    · exact holds.handlers handler old
    · rw [List.mem_singleton.mp new]
      exact arrives _ request holds.state
  | resume index input =>
    cases found : config.inflight[index]? with
    | none => simpa only [Machine.step,found] using holds
    | some handler =>
      obtain ⟨permitted,distant⟩ := meets handler found
      have asserted := holds.handlers handler (List.mem_of_getElem? found)
      have after := own input config.shared handler permitted holds.state asserted
      simp only [Machine.step,found]
      refine ⟨after.1,fun other member => ?_⟩
      rcases mem_settle_apart member with old | rest
      · exact others input _ handler other permitted (distant other old) holds.state asserted
          (holds.handlers other (List.mem_of_mem_eraseIdx old))
      · exact after.2 other rest

/-- The step rule: a handler's action keeps the shared invariant and its own
assertion, and disturbs the assertion of no other handler. -/
theorem Holds.step
    (arrives : ∀ s request, shared s → local' s (machine.enter request))
    (own : ∀ input s handler, condition input s handler → shared s → local' s handler →
      shared (machine.advance input s handler).1 ∧
        ∀ rest, (machine.advance input s handler).2 = some rest →
          local' (machine.advance input s handler).1 rest)
    (others : ∀ input s handler other, condition input s handler → shared s → local' s handler →
      local' s other → local' (machine.advance input s handler).1 other)
    (config : Config σ θ) (event : Event ρ ι) (holds : Holds shared local' config)
    (meets : Acting condition config event) : Holds shared local' (machine.step config event) := by
  have apart : ActingApart condition (fun _ _ _ _ => True) config event := by
    cases event with
    | arrive request => trivial
    | resume index input => exact fun handler found => ⟨meets handler found,fun _ _ => trivial⟩
  apply Holds.step_apart arrives own _ config event holds apart
  exact fun input s handler other permitted _ => others input s handler other permitted

end RelyGuarantee

section Ledger
variable {machine : Machine σ θ ρ ι} {M : Type y} [AddCommMonoid M] (weight : θ → M)

def owed (config : Config σ θ) : M := (config.inflight.map weight).sum

def rest (remaining : Option θ) : M := remaining.elim 0 weight

@[simp] theorem rest_none : rest weight (none : Option θ) = 0 := rfl

@[simp] theorem rest_some (handler : θ) : rest weight (some handler) = weight handler := rfl

theorem owed_idle (state : σ) : owed weight (⟨state,[]⟩ : Config σ θ) = 0 := rfl

theorem owed_arrive (config : Config σ θ) (request : ρ) :
    owed weight (machine.step config (.arrive request)) =
      owed weight config + weight (machine.enter request) := by
  simp [owed,Machine.step]

private theorem sum_settle (inflight : List θ) (index : Nat) (handler : θ) (remaining : Option θ)
    (found : inflight[index]? = some handler) :
    ((settle inflight index remaining).map weight).sum + weight handler =
      (inflight.map weight).sum + rest weight remaining := by
  induction inflight generalizing index with
  | nil => simp at found
  | cons first others ih =>
    cases index with
    | zero =>
      obtain rfl : first = handler := by simpa using found
      cases remaining <;> simp [settle,add_comm,add_left_comm]
    | succ index =>
      have tail := ih index (by simpa using found)
      cases remaining with
      | none =>
        simp only [settle,List.eraseIdx_cons_succ,List.map_cons,List.sum_cons,rest_none] at tail ⊢
        rw [add_assoc,tail,add_assoc]
      | some next =>
        simp only [settle,List.set_cons_succ,List.map_cons,List.sum_cons] at tail ⊢
        rw [add_assoc,tail,add_assoc]

variable (machine) in
theorem owed_resume (config : Config σ θ) (index : Nat) (input : ι) (handler : θ)
    (found : config.inflight[index]? = some handler) :
    owed weight (machine.step config (.resume index input)) + weight handler =
      owed weight config + rest weight (machine.advance input config.shared handler).2 := by
  simp only [Machine.step,found,owed]
  exact sum_settle weight config.inflight index handler _ found

theorem owed_alone (config : Config σ θ) (index : Nat) (handler : θ) (found : config.inflight[index]? = some handler)
    (alone : ∀ other ∈ config.inflight.eraseIdx index, weight other = 0) : owed weight config = weight handler := by
  have ledger := sum_settle weight config.inflight index handler none found
  have others : ((settle config.inflight index none).map weight).sum = 0 := by
    apply List.sum_eq_zero
    intro owing member
    obtain ⟨other,inside,rfl⟩ := List.mem_map.mp member
    exact alone other inside
  rw [others,zero_add,rest_none,add_zero] at ledger
  exact ledger.symm

variable (machine) in
/-- An account that an action leaves no larger, what its handler owes included, is no larger with what all
the handlers owe. -/
theorem account_resume [PartialOrder M] [IsOrderedCancelAddMonoid M] (account : σ → M) (config : Config σ θ)
    (index : Nat) (input : ι) (handler : θ) (extra : M) (found : config.inflight[index]? = some handler)
    (bounded : account (machine.advance input config.shared handler).1 +
        rest weight (machine.advance input config.shared handler).2 ≤
      account config.shared + weight handler + extra) :
    account (machine.step config (.resume index input)).shared + owed weight (machine.step config (.resume index input)) ≤
      account config.shared + owed weight config + extra := by
  have ledger := owed_resume machine weight config index input handler found
  have shared : (machine.step config (.resume index input)).shared =
      (machine.advance input config.shared handler).1 := by simp only [Machine.step,found]
  rw [shared]
  apply le_of_add_le_add_right (a := weight handler)
  calc _ = account (machine.advance input config.shared handler).1 +
          rest weight (machine.advance input config.shared handler).2 + owed weight config := by
        rw [add_assoc,ledger,add_assoc,add_comm (owed weight config)]
    _ ≤ account config.shared + weight handler + extra + owed weight config := add_le_add_left bounded _
    _ = _ := by ac_rfl

theorem mem_owed {α : Type y} (held : θ → Multiset α) (config : Config σ θ) (value : α) :
    value ∈ owed held config ↔ ∃ handler ∈ config.inflight, value ∈ held handler := by
  unfold owed
  induction config.inflight with
  | nil => simp
  | cons first others ih => simp [ih]

end Ledger

end GrassWorker.Interleaving
