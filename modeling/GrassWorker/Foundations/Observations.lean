import Mathlib.Data.List.Forall2

/-! What a process observes of moments that pass: facts that held one after another, each when it was looked at. -/
namespace GrassWorker

universe u
variable {σ : Type u}

/-- Each of the facts held at a moment of its own, in this order, from the moment numbered `since` on. -/
structure Observed (moments : List σ) (since : Nat) (facts : List (σ → Prop)) : Prop where
  past : since ≤ moments.length
  seen : ∃ seen, seen.Sublist (moments.drop since) ∧ List.Forall₂ (fun fact moment => fact moment) facts seen

variable {moments : List σ} {since : Nat} {facts weaker : List (σ → Prop)} {fact : σ → Prop} {moment : σ}

theorem observed_nothing (moments : List σ) : Observed moments moments.length [] :=
  ⟨Nat.le_refl _,[],List.nil_sublist _,.nil⟩

theorem Observed.later (observed : Observed moments since facts) (more : List σ) : Observed (moments ++ more) since facts := by
  obtain ⟨past,seen,inside,holds⟩ := observed
  refine ⟨by rw [List.length_append]; omega,seen,?_,holds⟩
  rw [List.drop_append_of_le_length past]
  exact inside.trans (List.sublist_append_left _ _)

theorem Observed.now (observed : Observed moments since facts) (holds : fact moment) :
    Observed (moments ++ [moment]) since (facts ++ [fact]) := by
  obtain ⟨past,seen,inside,holds'⟩ := observed
  refine ⟨by rw [List.length_append]; omega,seen ++ [moment],?_,List.rel_append holds' (.cons holds .nil)⟩
  rw [List.drop_append_of_le_length past]
  exact inside.append (List.Sublist.refl _)

theorem Observed.mono (observed : Observed moments since facts)
    (implies : List.Forall₂ (fun fact weak => ∀ moment, fact moment → weak moment) facts weaker) :
    Observed moments since weaker := by
  obtain ⟨past,seen,inside,holds⟩ := observed
  refine ⟨past,seen,inside,?_⟩
  clear inside past
  induction implies generalizing seen with
  | nil =>
    cases holds
    exact .nil
  | cons one _ ih =>
    cases holds with
    | cons first rest => exact .cons (one _ first) (ih _ rest)

end GrassWorker
