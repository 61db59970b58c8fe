import GrassWorker.Foundations.Transaction
import Mathlib.Order.Defs.Unbundled

/-! Frames: a preorder between the state a transaction starts in and the state it
ends in, kept by every step of the transaction and therefore by the whole of it. -/
namespace GrassWorker.Transaction
variable {σ ε α β : Type}

def Within (relation : σ → σ → Prop) (transaction : Transaction σ ε α) : Prop :=
  ∀ s, Ensures transaction s fun _ after => relation s after

section Rules
variable {relation : σ → σ → Prop}

theorem within_modify {change : σ → σ} (related : ∀ s, relation s (change s)) :
    Within relation (modify change : Transaction σ ε PUnit) :=
  fun s => (ensures_modify s change _).mpr (related s)

theorem within_write {change : σ → Option (α × σ)} {error : ε}
    (related : ∀ s value after, change s = some (value,after) → relation s after) :
    Within relation (write change error) :=
  fun s => (ensures_write s _ change error).mpr (related s)

theorem Within.ite {condition : Prop} [Decidable condition] {first second : Transaction σ ε α}
    (one : Within relation first) (two : Within relation second) :
    Within relation (if condition then first else second) := by
  by_cases holds : condition
  · rwa [if_pos holds]
  · rwa [if_neg holds]

theorem Within.mono {weak : σ → σ → Prop} {transaction : Transaction σ ε α} (within : Within relation transaction)
    (weaker : ∀ before after, relation before after → weak before after) : Within weak transaction :=
  fun s => (within s).mono fun _ after => weaker s after

variable [IsPreorder σ relation]

theorem within_of_unchanged {transaction : Transaction σ ε α}
    (unchanged : ∀ s, Ensures transaction s fun _ after => after = s) : Within relation transaction := by
  intro s
  refine (unchanged s).mono ?_
  rintro _ after rfl
  exact refl_of relation after

theorem within_pure (value : α) : Within relation (pure value : Transaction σ ε α) :=
  within_of_unchanged fun s => (ensures_pure s _ value).mpr rfl

theorem within_query (read : σ → α) : Within relation (query read : Transaction σ ε α) :=
  within_of_unchanged fun s => (ensures_query s _ read).mpr rfl

theorem within_ofExcept (outcome : Except ε α) : Within relation (ofExcept outcome : Transaction σ ε α) :=
  within_of_unchanged fun s => (ensures_ofExcept s _ outcome).mpr fun _ _ => rfl

theorem Within.bind {first : Transaction σ ε β} {next : β → Transaction σ ε α} (one : Within relation first)
    (two : ∀ value, Within relation (next value)) : Within relation (first >>= next) := by
  intro s
  rw [ensures_bind]
  refine (one s).mono ?_
  intro value middle reached
  exact (two value middle).mono fun _ _ last => trans_of relation reached last

theorem within_forM {items : List β} {body : β → Transaction σ ε PUnit} (each : ∀ item ∈ items, Within relation (body item)) :
    Within relation (forM items body) := by
  intro s
  refine ensures_forM (relation s) (refl_of relation s) ?_
  intro item member state reached
  exact (each item member state).mono fun _ _ last => trans_of relation reached last

end Rules

end GrassWorker.Transaction
