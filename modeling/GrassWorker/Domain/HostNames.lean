import GrassWorker.Domain.Hosts

/-! Hosts composed from a project's slug and the base domain of a source are well formed,
up to their length. -/
namespace GrassWorker.Hosts
open Validator

theorem isLowerAlphanumeric_base36Digit (value : Nat) : isLowerAlphanumeric (base36Digit value) := by
  have bound := Nat.mod_lt value (show 36 > 0 by decide)
  unfold base36Digit isLowerAlphanumeric
  split
  · rw [toNat_ofNat_of_ascii (by omega)]
    simp only [decide_eq_true_eq]
    omega
  · rw [toNat_ofNat_of_ascii (by omega)]
    simp only [decide_eq_true_eq]
    omega

theorem isLowerAlphanumeric_hexDigit (value : Nat) : isLowerAlphanumeric (hexDigit value) := by
  have bound := Nat.mod_lt value (show 16 > 0 by decide)
  unfold hexDigit isLowerAlphanumeric
  split
  · rw [toNat_ofNat_of_ascii (by omega)]
    simp only [decide_eq_true_eq]
    omega
  · rw [toNat_ofNat_of_ascii (by omega)]
    simp only [decide_eq_true_eq]
    omega

theorem ne_dash_of_lower {c : Char} (lower : isLowerAlphanumeric c) : c ≠ '-' := by
  rintro rfl
  cases lower

section Labels
variable {text label suffix : List Char} {n : Nat}

theorem label_trimEnd (slug : Slug text) (positive : 0 < n) (short : n ≤ 63) : Label (trimEnd '-' (text.take n)) := by
  obtain ⟨c,rest,rfl,lower⟩ := slug.start
  obtain ⟨m,rfl⟩ : ∃ m, n = m + 1 := ⟨n - 1,by omega⟩
  have kept : trimEnd '-' ((c :: rest).take (m + 1)) <+: (c :: rest).take (m + 1) := List.rdropWhile_prefix _ _
  have nonempty : trimEnd '-' ((c :: rest).take (m + 1)) ≠ [] := by
    intro empty
    have dashes := List.rdropWhile_eq_nil_iff.mp empty c (by simp)
    exact ne_dash_of_lower lower (by simpa using dashes)
  refine ⟨nonempty,?_,?_,?_,?_⟩
  · have length := kept.length_le
    rw [List.length_take] at length
    omega
  · obtain ⟨cut,whole⟩ := kept
    cases trimmed : trimEnd '-' ((c :: rest).take (m + 1)) with
    | nil => exact absurd trimmed nonempty
    | cons first others =>
      rw [trimmed,List.take_succ_cons] at whole
      obtain rfl : first = c := by simpa using congrArg List.head? whole
      simpa using ne_dash_of_lower lower
  · intro last
    have dash := List.rdropWhile_last_not _ _ nonempty
    rw [List.getLast?_eq_some_getLast nonempty] at last
    exact dash (decide_eq_true (Option.some.inj last))
  · intro other member
    exact slug.characters other (List.mem_of_mem_take (kept.subset member))

theorem length_trimEnd : (trimEnd '-' (text.take n)).length ≤ n := by
  have length := (List.rdropWhile_prefix (fun c => decide (c = '-')) (text.take n)).length_le
  rw [List.length_take] at length
  exact length.trans (Nat.min_le_left _ _)

theorem label_append (ok : Label label) (lower : ∀ c ∈ suffix, isLowerAlphanumeric c) (nonempty : suffix ≠ [])
    (short : label.length + suffix.length < 63) : Label (label ++ '-' :: suffix) where
  nonempty := by simp
  short := by
    rw [List.length_append,List.length_cons]
    omega
  start := by
    rw [List.head?_append_of_ne_nil _ ok.nonempty]
    exact ok.start
  stop := by
    obtain ⟨last,same⟩ := List.getLast?_isSome.mpr nonempty |> Option.isSome_iff_exists.mp
    have inside := List.mem_of_getLast? same
    rw [List.getLast?_append_of_ne_nil _ (by simp),List.getLast?_cons,same]
    simpa using ne_dash_of_lower (lower last inside)
  characters := by
    intro c member
    rcases List.mem_append.mp member with first | later
    · exact ok.characters c first
    · rcases List.mem_cons.mp later with rfl | later
      · exact .inr rfl
      · exact .inl (lower c later)

theorem label_platformLabel (slug : Slug text) (attempt choice : Nat) : Label (platformLabel text attempt choice) := by
  have base := label_trimEnd slug (show 0 < 53 by decide) (by decide)
  unfold platformLabel
  split
  · exact base
  · refine label_append base ?_ (by simp [randomSuffix]) ?_
    · intro c member
      obtain ⟨i,_,rfl⟩ := List.mem_map.mp member
      exact isLowerAlphanumeric_base36Digit _
    · have length := @length_trimEnd text 53
      simp only [randomSuffix,List.length_map,List.length_cons,List.length_nil]
      omega

theorem label_previewLabel (slug : Slug text) (id : Uuid) : Label (previewLabel text id) := by
  have base := label_trimEnd slug (show 0 < 54 by decide) (by decide)
  refine label_append base ?_ (by simp [shortId]) ?_
  · intro c member
    obtain ⟨i,_,rfl⟩ := List.mem_map.mp member
    exact isLowerAlphanumeric_hexDigit _
  · have length := @length_trimEnd text 54
    simp only [shortId,List.length_map,List.length_cons,List.length_nil]
    omega

end Labels

def Composed (host : String) : Prop := host.toList.length ≤ 253 → Host host.toList

section Composed
variable {slug baseDomain : String}

theorem composed_of_host {host : String} (ok : Host host.toList) : Composed host := fun _ => ok

private theorem composed_label {label : List Char} (ok : Label label) (base : Host baseDomain.toList) :
    Composed (String.ofList (label ++ '.' :: baseDomain.toList)) := by
  unfold Composed
  rw [String.toList_ofList]
  intro short
  rw [List.length_append,List.length_cons] at short
  exact Host.cons ok base (by omega)

theorem composed_platformHostCandidate (ok : Slug slug.toList) (base : Host baseDomain.toList) (attempt choice : Nat) :
    Composed (platformHostCandidate slug baseDomain attempt choice) :=
  composed_label (label_platformLabel ok attempt choice) base

theorem composed_previewHostFor (ok : Slug slug.toList) (base : Host baseDomain.toList) (id : Uuid) :
    Composed (previewHostFor slug id baseDomain) :=
  composed_label (label_previewLabel ok id) base

end Composed

end GrassWorker.Hosts
