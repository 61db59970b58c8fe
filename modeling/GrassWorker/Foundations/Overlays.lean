import Mathlib.Data.List.Induction

/-! Partial assignments of values to keys, and what is left of a whole one when several have been laid over it. -/
namespace GrassWorker.Overlays

universe u v

variable {κ : Type u} {V : κ → Type v}

abbrev Whole (V : κ → Type v) := (k : κ) → V k

abbrev Part (V : κ → Type v) := (k : κ) → Option (V k)

def overlay (part : Part V) (whole : Whole V) : Whole V := fun k => (part k).getD (whole k)

def replay (whole : Whole V) (parts : List (Part V)) : Whole V := parts.foldl (fun whole part => overlay part whole) whole

def latest (parts : List (Part V)) : Part V := fun k => parts.reverse.findSome? fun part => part k

@[simp] theorem replay_nil (whole : Whole V) : replay whole [] = whole := rfl

@[simp] theorem replay_append (whole : Whole V) (first second : List (Part V)) :
    replay whole (first ++ second) = replay (replay whole first) second := List.foldl_append

@[simp] theorem replay_one (whole : Whole V) (part : Part V) : replay whole [part] = overlay part whole := rfl

theorem overlay_of_none {part : Part V} {k : κ} (absent : part k = none) (whole : Whole V) : overlay part whole k = whole k := by
  unfold overlay
  rw [absent]
  rfl

theorem overlay_of_some {part : Part V} {k : κ} {value : V k} (present : part k = some value) (whole : Whole V) :
    overlay part whole k = value := by
  unfold overlay
  rw [present]
  rfl

/-- Two parts do the same to a whole if one has all of the other and its additions are what the whole has. -/
theorem overlay_congr {part wider : Part V} {whole : Whole V} (holds : ∀ k, ∀ value ∈ part k, wider k = some value)
    (additions : ∀ k, part k = none → ∀ value ∈ wider k, value = whole k) : overlay wider whole = overlay part whole := by
  funext k
  cases has : part k with
  | some value => rw [overlay_of_some (holds k value has),overlay_of_some has]
  | none =>
    rw [overlay_of_none has]
    cases added : wider k with
    | none => exact overlay_of_none added whole
    | some value =>
      rw [overlay_of_some added]
      exact additions k has value added

theorem replay_eq_overlay_latest (whole : Whole V) (parts : List (Part V)) : replay whole parts = overlay (latest parts) whole := by
  induction parts using List.reverseRecOn with
  | nil => rfl
  | append_singleton parts part ih =>
    rw [replay_append,replay_one,ih]
    funext k
    unfold overlay latest
    rw [List.reverse_concat,List.findSome?_cons]
    cases part k <;> rfl

end GrassWorker.Overlays
