import GrassWorker.Foundations.Interleaving

/-! Schedules without an end: handlers come to an end where every wait does and no action is taken for nothing. -/
namespace GrassWorker.Interleaving

universe u v w x
variable {σ : Type u} {θ : Type v} {ρ : Type w} {ι : Type x} (machine : Machine σ θ ρ ι)

abbrev Schedule (ι : Type x) := Nat → Nat × ι

def reached (config : Config σ θ) (schedule : Schedule ι) : Nat → Config σ θ
  | 0 => config
  | moment + 1 => machine.step (reached config schedule moment) (.resume (schedule moment).1 (schedule moment).2)

/-- As long as nothing moves, every handler in flight is resumed again, and what it waits for has come. -/
def Fair (settled : ι → Prop) (config : Config σ θ) (schedule : Schedule ι) : Prop :=
  ∀ moment index, index < (reached machine config schedule moment).inflight.length →
    ∃ later, moment ≤ later ∧ (reached machine config schedule later ≠ reached machine config schedule moment ∨
      (schedule later).1 = index ∧ settled (schedule later).2)

theorem length_reached (config : Config σ θ) (schedule : Schedule ι) (moment : Nat) :
    (reached machine config schedule moment).inflight.length ≤ config.inflight.length := by
  induction moment with
  | zero => exact Nat.le_refl _
  | succ moment ih =>
    refine Nat.le_trans ?_ ih
    rw [reached,Machine.step]
    split
    · exact Nat.le_refl _
    · dsimp only
      cases (machine.advance _ _ _).2 with
      | none => exact List.length_eraseIdx_le _ _
      | some next => exact Nat.le_of_eq List.length_set

theorem fair_alone {settled : ι → Prop} {config : Config σ θ} {input : ι} (alone : config.inflight.length ≤ 1) (settles : settled input) :
    Fair machine settled config fun _ => (0,input) := by
  intro moment index inside
  have few := Nat.le_trans (length_reached machine config (fun _ => (0,input)) moment) alone
  have first : 0 = index := by omega
  exact ⟨moment,Nat.le_refl _,.inr ⟨first,settles⟩⟩

section Effort
variable {machine} {weight : θ → Nat} {config : Config σ θ} {index : Nat} {input : ι} {handler : θ}

theorem step_waits (found : config.inflight[index]? = some handler)
    (waits : machine.advance input config.shared handler = (config.shared,some handler)) :
    machine.step config (.resume index input) = config := by
  obtain ⟨inside,there⟩ := List.getElem?_eq_some_iff.mp found
  have same : config.inflight.set index handler = config.inflight := by
    rw [← there]
    exact List.set_getElem_self inside
  simp only [Machine.step,found,waits,settle,same]

theorem owed_lt (found : config.inflight[index]? = some handler)
    (less : rest weight (machine.advance input config.shared handler).2 < weight handler) :
    owed weight (machine.step config (.resume index input)) < owed weight config := by
  have ledger := owed_resume machine weight config index input handler found
  omega

end Effort

section Drains
variable {machine} {invariant : Config σ θ → Prop} {weight : θ → Nat} {settled : ι → Prop} {config : Config σ θ}
  {schedule : Schedule ι}

theorem reached_invariant (kept : ∀ config index input, invariant config → invariant (machine.step config (.resume index input)))
    (start : invariant config) (moment : Nat) : invariant (reached machine config schedule moment) := by
  induction moment with
  | zero => exact start
  | succ moment ih => exact kept _ _ _ ih

def Spends (machine : Machine σ θ ρ ι) (weight : θ → Nat) (config : Config σ θ) : Prop :=
  ∀ (index : Nat) (input : ι) (handler : θ), config.inflight[index]? = some handler →
    machine.advance input config.shared handler = (config.shared,some handler) ∨
      rest weight (machine.advance input config.shared handler).2 < weight handler

/-- Some handler in flight can go on, unless what it waits for has not come. -/
def Goes (machine : Machine σ θ ρ ι) (weight : θ → Nat) (settled : ι → Prop) (config : Config σ θ) : Prop :=
  config.inflight ≠ [] → ∃ (index : Nat) (handler : θ), config.inflight[index]? = some handler ∧
    ∀ input, settled input → rest weight (machine.advance input config.shared handler).2 < weight handler

theorem reached_later (kept : ∀ config index input, invariant config → invariant (machine.step config (.resume index input)))
    (spends : ∀ config, invariant config → Spends machine weight config) (start : invariant config) {moment later : Nat}
    (order : moment ≤ later) :
    reached machine config schedule later = reached machine config schedule moment ∨
      owed weight (reached machine config schedule later) < owed weight (reached machine config schedule moment) := by
  induction later,order using Nat.le_induction with
  | base => exact .inl rfl
  | succ later order ih =>
    have holds : invariant (reached machine config schedule later) := reached_invariant kept start later
    have step : machine.step (reached machine config schedule later) (.resume (schedule later).1 (schedule later).2) =
        reached machine config schedule later ∨
        owed weight (reached machine config schedule (later + 1)) < owed weight (reached machine config schedule later) := by
      cases found : (reached machine config schedule later).inflight[(schedule later).1]? with
      | none =>
        left
        simp only [Machine.step,found]
      | some handler =>
        rcases spends _ holds _ (schedule later).2 handler found with waits | less
        · exact .inl (step_waits found waits)
        · exact .inr (owed_lt found less)
    rcases step with same | less
    · rw [reached,same]
      exact ih
    · right
      rcases ih with same | spent
      · rw [← same]
        exact less
      · exact lt_trans less spent

/-- The run lemma: if some handler in flight can always go on, all handlers come to their end. -/
theorem drains (kept : ∀ config index input, invariant config → invariant (machine.step config (.resume index input)))
    (spends : ∀ config, invariant config → Spends machine weight config)
    (goes : ∀ config, invariant config → Goes machine weight settled config)
    (start : invariant config) (fair : Fair machine settled config schedule) :
    ∃ moment, (reached machine config schedule moment).inflight = [] := by
  -- On the effort that is left; a fair schedule gets to the handler that can go on, unless something else moves first.
  have ends : ∀ left moment, owed weight (reached machine config schedule moment) = left →
      ∃ moment, (reached machine config schedule moment).inflight = [] := by
    intro left
    induction left using Nat.strong_induction_on with
    | _ left ih =>
      intro moment remaining
      by_cases done : (reached machine config schedule moment).inflight = []
      · exact ⟨moment,done⟩
      · obtain ⟨index,handler,found,free⟩ := goes _ (reached_invariant kept start moment) done
        obtain ⟨later,order,moves⟩ := fair moment index (List.getElem?_eq_some_iff.mp found).1
        by_cases same : reached machine config schedule later = reached machine config schedule moment
        · obtain ⟨chosen,settles⟩ := moves.resolve_left (not_not_intro same)
          have less := owed_lt found (free _ settles)
          rw [← chosen,← same] at less
          refine ih _ ?_ (later + 1) rfl
          rw [← remaining,← same]
          exact less
        · have less := (reached_later kept spends start order).resolve_left same
          exact ih _ (remaining ▸ less) later rfl
  exact ends _ 0 rfl

end Drains

end GrassWorker.Interleaving
