import Mathlib.Data.Finset.Card

/-! A set that grows round by round, until a round adds nothing or the rounds are used up. -/
namespace GrassWorker.Saturation

variable {α : Type} (grow : Finset α → Finset α)

def saturate : Nat → Finset α → Finset α
  | 0,members => members
  | rounds + 1,members => if members.card = (grow members).card then grow members else saturate rounds (grow members)

variable {grow}

/-- What holds of the first set, and of a set that has grown, holds at the end. -/
theorem saturate_invariant (kept : Finset α → Prop) (step : ∀ members, kept members → kept (grow members)) (rounds : Nat)
    {members : Finset α} (start : kept members) : kept (saturate grow rounds members) := by
  induction rounds generalizing members with
  | zero => exact start
  | succ rounds ih =>
    rw [saturate]
    split
    · exact step members start
    · exact ih (step members start)

/-- In a finite universe enough rounds end at a set that does not grow. -/
theorem grow_saturate (universe' : Finset α) (grows : ∀ members, members ⊆ grow members)
    (inside : ∀ members, members ⊆ universe' → grow members ⊆ universe') (rounds : Nat) {members : Finset α}
    (start : members ⊆ universe') (enough : universe'.card ≤ members.card + rounds) :
    grow (saturate grow rounds members) = saturate grow rounds members := by
  induction rounds generalizing members with
  | zero =>
    have whole : members = universe' := Finset.eq_of_subset_of_card_le start enough
    exact (Finset.Subset.antisymm (grows members) (whole ▸ inside members start)).symm
  | succ rounds ih =>
    rw [saturate]
    split
    · rename_i same
      have fixed : members = grow members := Finset.eq_of_subset_of_card_le (grows members) same.ge
      exact congrArg grow fixed.symm
    · rename_i larger
      have more : members.card < (grow members).card := lt_of_le_of_ne (Finset.card_le_card (grows members)) larger
      exact ih (inside members start) (by omega)

end GrassWorker.Saturation
