import GrassWorker.Domain.Hosts
import GrassWorker.Foundations.Interleaving
import Mathlib.Data.Multiset.OrderedMonoid

/-! The personal teams that registrations create, by form or through an identity provider. The slug ends in the
first eight digits of the user's identifier, which are those of the time and change every 65.536 seconds. -/
namespace GrassWorker.PersonalTeams
open Hosts Interleaving Runs Validator

abbrev Text := List Char

/-- A version 7 identifier: 48 bits of milliseconds, and the version, the variant and what is random. -/
structure UuidV7 where
  timestamp : Nat
  tail : Nat
  timestamp_lt : timestamp < 2 ^ 48
  tail_lt : tail < 2 ^ 80
  version : tail / 2 ^ 76 = 7
  variant : tail / 2 ^ 62 % 4 = 2
deriving DecidableEq

def UuidV7.value (id : UuidV7) : Nat := id.timestamp * 2 ^ 80 + id.tail

def simple (id : UuidV7) : Text := (List.range 32).map fun i => hexDigit (id.value / 16 ^ (31 - i))

/-- `personal_team_slug`. Emails are ASCII by then. -/
def personalTeamSlug (email : Text) : Text :=
  let slug := (((((email.splitOn '@').head?.getD "user".toList).map toAsciiLowercase).filter isAsciiAlphanumeric).take 40)
  if slug = [] then "user".toList else slug

structure Registration where
  email : Text
  id : UuidV7
deriving DecidableEq

def Registration.slug (registration : Registration) : Text :=
  personalTeamSlug registration.email ++ '-' :: (simple registration.id).take 8

structure PersonalTeam where
  slug : Text
  ownerUserId : UuidV7
deriving DecidableEq

structure Shared where
  users : List Registration := []
  teams : List PersonalTeam := []
  /-- The slugs of teams that are inserted and not committed. -/
  inserted : Multiset Text := 0
  /-- The registrations that failed for the slug of their team. -/
  conflicts : List Registration := []

inductive Handler
  | createUser (registration : Registration)
  | createTeam (registration : Registration)
  | commit (registration : Registration)
deriving DecidableEq

def Handler.registration : Handler → Registration
  | .createUser registration | .createTeam registration | .commit registration => registration

structure Input where
  /-- The request is refused, its statement fails, or its client is gone. -/
  fails : Bool := false

local instance lawfulSlug : LawfulBEq (List Char) := inferInstance

def advance (input : Input) (s : Shared) : Handler → Shared × Option Handler
  | .createUser registration =>
    if input.fails ∨ registration.email ∈ s.users.map Registration.email then (s,none) else (s,some (.createTeam registration))
  | .createTeam registration =>
    if input.fails then (s,none)
    else if registration.slug ∈ s.teams.map PersonalTeam.slug then
      ({ s with conflicts := s.conflicts ++ [registration] },none)
    -- an insertion waits for the transaction that has inserted the same slug
    else if registration.slug ∈ s.inserted then (s,some (.createTeam registration))
    else ({ s with inserted := registration.slug ::ₘ s.inserted },some (.commit registration))
  | .commit registration =>
    let s := { s with inserted := s.inserted.erase registration.slug }
    if input.fails then (s,none)
    else
      ({ s with users := s.users ++ [registration], teams := s.teams ++ [⟨registration.slug,registration.id⟩] },none)

def machine : Machine Shared Handler Registration Input := ⟨.createUser,advance⟩

def idle : Config Shared Handler := ⟨{},[]⟩

def attempts : List (Event Registration Input) → List Registration
  | [] => []
  | .arrive registration :: rest => registration :: attempts rest
  | .resume _ _ :: rest => attempts rest

def window (id : UuidV7) : Nat := id.timestamp / 2 ^ 16

section Slugs
variable {a b : Registration} {c : Char}

theorem hexDigit_inj {m n : Nat} (same : hexDigit m = hexDigit n) : m % 16 = n % 16 := by
  have left := Nat.mod_lt m (show 16 > 0 by decide)
  have right := Nat.mod_lt n (show 16 > 0 by decide)
  have code {k : Nat} (small : k % 16 < 16) : (hexDigit k).toNat = if k % 16 < 10 then 48 + k % 16 else 87 + k % 16 := by
    unfold hexDigit
    split
    · exact toNat_ofNat_of_ascii (by omega)
    · exact toNat_ofNat_of_ascii (by omega)
  have codes := congrArg Char.toNat same
  rw [code left,code right] at codes
  split at codes <;> split at codes <;> omega

theorem take_simple (id : UuidV7) : (simple id).take 8 = (List.range 8).map fun i => hexDigit (window id / 16 ^ (7 - i)) := by
  have high : id.value / 2 ^ 96 = window id := by
    have tail := id.tail_lt
    unfold UuidV7.value window
    omega
  have digit (i : Nat) (first : i < 8) : id.value / 16 ^ (31 - i) = window id / 16 ^ (7 - i) := by
    have power : 16 ^ (31 - i) = 2 ^ 96 * 16 ^ (7 - i) := by
      rw [show 31 - i = 24 + (7 - i) by omega,Nat.pow_add]
      rfl
    rw [power,← Nat.div_div_eq_div_mul,high]
  unfold simple
  rw [← List.map_take,List.take_range]
  exact List.map_congr_left fun i member => congrArg hexDigit (digit i (by simpa using member))

theorem digits_eq_iff (first second : UuidV7) : (simple first).take 8 = (simple second).take 8 ↔ window first = window second := by
  rw [take_simple,take_simple]
  constructor
  · intro same
    have digit (i : Nat) (small : i < 8) : window first / 16 ^ (7 - i) % 16 = window second / 16 ^ (7 - i) % 16 :=
      hexDigit_inj (List.map_inj_left.mp same i (by simpa using small))
    have left : window first < 16 ^ 8 := by
      have bound := first.timestamp_lt
      unfold window
      omega
    have right : window second < 16 ^ 8 := by
      have bound := second.timestamp_lt
      unfold window
      omega
    have d0 := digit 0 (by decide)
    have d1 := digit 1 (by decide)
    have d2 := digit 2 (by decide)
    have d3 := digit 3 (by decide)
    have d4 := digit 4 (by decide)
    have d5 := digit 5 (by decide)
    have d6 := digit 6 (by decide)
    have d7 := digit 7 (by decide)
    norm_num at d0 d1 d2 d3 d4 d5 d6 d7 left right
    omega
  · intro same
    rw [same]

theorem dash_notMem_personalTeamSlug (email : Text) : '-' ∉ personalTeamSlug email := by
  intro dash
  simp only [personalTeamSlug] at dash
  split at dash
  · revert dash
    decide
  · have plain := List.of_mem_filter (List.mem_of_mem_take dash)
    revert plain
    decide

theorem slug_eq_iff : a.slug = b.slug ↔ personalTeamSlug a.email = personalTeamSlug b.email ∧ window a.id = window b.id := by
  rw [← digits_eq_iff]
  unfold Registration.slug
  constructor
  · intro same
    have cut {text digits : Text} (free : '-' ∉ text) : (text ++ '-' :: digits).takeWhile (· ≠ '-') = text := by
      have all : ∀ c ∈ text, decide (c ≠ '-') = true := by
        intro c member
        exact decide_eq_true fun dash => free (dash ▸ member)
      rw [List.takeWhile_append_of_pos all,List.takeWhile_cons_of_neg (by simp),List.append_nil]
    have head : personalTeamSlug a.email = personalTeamSlug b.email := by
      rw [← cut (dash_notMem_personalTeamSlug a.email),same,cut (dash_notMem_personalTeamSlug b.email)]
    rw [head] at same
    exact ⟨head,(List.cons.inj (List.append_cancel_left same)).2⟩
  · rintro ⟨head,digits⟩
    rw [head,digits]

end Slugs

section Runs
variable {config : Config Shared Handler}

def owns (handler : Handler) : Multiset Text := {handler.registration.slug}

/-- The slugs of the teams, of the registrations on their way and of those to come. -/
def slugs (config : Config Shared Handler) (later : List Registration) : Multiset Text :=
  (config.shared.teams.map PersonalTeam.slug : Multiset Text) + owed owns config + (later.map Registration.slug : Multiset Text)

theorem advance_slugs (input : Input) (s : Shared) (handler : Handler) :
    ((advance input s handler).1.teams.map PersonalTeam.slug : Multiset Text) + rest owns (advance input s handler).2 ≤
      (s.teams.map PersonalTeam.slug : Multiset Text) + owns handler := by
  cases handler with
  | createUser registration =>
    simp only [advance]
    split
    · exact add_le_add_right (Multiset.zero_le _) _
    · exact le_refl _
  | createTeam registration =>
    simp only [advance]
    split
    · exact add_le_add_right (Multiset.zero_le _) _
    split
    · exact add_le_add_right (Multiset.zero_le _) _
    split
    · exact le_refl _
    · exact le_refl _
  | commit registration =>
    simp only [advance]
    split
    · exact add_le_add_right (Multiset.zero_le _) _
    · simp [owns,Handler.registration,← Multiset.coe_add]

theorem resume_slugs (index : Nat) (input : Input) (later : List Registration) :
    slugs (machine.step config (.resume index input)) later ≤ slugs config later := by
  unfold slugs
  apply add_le_add_left
  cases found : config.inflight[index]? with
  | none =>
    simp only [Machine.step,found]
    exact le_refl _
  | some handler =>
    have account := account_resume machine owns (fun s => (s.teams.map PersonalTeam.slug : Multiset Text)) config index input handler 0
      found (by rw [add_zero]; exact advance_slugs input config.shared handler)
    rwa [add_zero] at account

theorem arrive_slugs (registration : Registration) (later : List Registration) :
    slugs (machine.step config (.arrive registration)) later = slugs config (registration :: later) := by
  have owing : owed owns (machine.step config (.arrive registration)) = owed owns config + {registration.slug} :=
    owed_arrive owns config registration
  have kept : (machine.step config (.arrive registration)).shared = config.shared := rfl
  have first : ((registration :: later).map Registration.slug : Multiset Text) =
      {registration.slug} + (later.map Registration.slug : Multiset Text) := rfl
  unfold slugs
  rw [owing,kept,first]
  ac_rfl

theorem resume_conflicts (index : Nat) (input : Input) (later : List Registration) (apart : (slugs config later).Nodup) :
    (machine.step config (.resume index input)).shared.conflicts = config.shared.conflicts := by
  cases found : config.inflight[index]? with
  | none => simp only [Machine.step,found]
  | some handler =>
    simp only [Machine.step,found]
    change (advance input config.shared handler).1.conflicts = _
    cases handler with
    | createUser registration =>
      simp only [advance]
      split
      · rfl
      · rfl
    | createTeam registration =>
      simp only [advance]
      split
      · rfl
      split
      · rename_i taken
        have both : (slugs config later).Nodup := apart
        unfold slugs at both
        have disjoint := (Multiset.nodup_add.mp (Multiset.nodup_add.mp both).1).2.2
        have mine : registration.slug ∈ owed owns config :=
          (mem_owed owns config _).mpr ⟨_,List.mem_of_getElem? found,Multiset.mem_singleton_self _⟩
        exact absurd mine (Multiset.disjoint_left.mp disjoint taken)
      split
      · rfl
      · rfl
    | commit registration =>
      simp only [advance]
      split
      · rfl
      · rfl

theorem no_conflicts (events : List (Event Registration Input)) (apart : (slugs config (attempts events)).Nodup)
    (none : config.shared.conflicts = []) : Throughout machine.step (fun config => config.shared.conflicts = []) config events := by
  refine ⟨none,?_⟩
  induction events generalizing config with
  | nil => trivial
  | cons event rest ih =>
    cases event with
    | arrive registration => exact ⟨none,ih (by rw [arrive_slugs]; exact apart) none⟩
    | resume index input =>
      have kept : (machine.step config (.resume index input)).shared.conflicts = [] := by
        rw [resume_conflicts index input (attempts rest) apart,none]
      exact ⟨kept,ih (Multiset.nodup_of_le (resume_slugs index input (attempts rest)) apart) kept⟩

/-- No two registrations of a run get one slug, and none fails for the team of another user, exactly if no two
with the same letters in their emails are of the same 65.536 seconds. -/
theorem personal_slugs_apart_iff (events : List (Event Registration Input)) :
    ((attempts events).map Registration.slug).Nodup ∧
        Throughout machine.step (fun config => config.shared.conflicts = []) idle events ↔
      (attempts events).Pairwise fun a b => personalTeamSlug a.email = personalTeamSlug b.email → window a.id ≠ window b.id := by
  have pairwise : ((attempts events).map Registration.slug).Nodup ↔
      (attempts events).Pairwise fun a b => personalTeamSlug a.email = personalTeamSlug b.email → window a.id ≠ window b.id := by
    rw [List.Nodup,List.pairwise_map]
    have same (a b : Registration) : a.slug ≠ b.slug ↔ (personalTeamSlug a.email = personalTeamSlug b.email → window a.id ≠ window b.id) := by
      rw [ne_eq,slug_eq_iff,not_and]
    simp only [same]
  rw [pairwise]
  constructor
  · exact And.left
  · intro apart
    refine ⟨apart,no_conflicts events ?_ rfl⟩
    have start : slugs idle (attempts events) = ((attempts events).map Registration.slug : Multiset Text) := by
      unfold slugs
      rw [show owed owns idle = 0 from rfl]
      simp [idle]
    rw [start]
    exact Multiset.coe_nodup.mpr (pairwise.mpr apart)

end Runs

section Examples

def identifier (timestamp : Nat) (small : timestamp < 2 ^ 48) : UuidV7 :=
  ⟨timestamp,7 * 2 ^ 76 + 2 ^ 63,small,by decide,by decide,by decide⟩

def namesakes : List (Event Registration Input) :=
  [.arrive ⟨"info@first.example".toList,identifier 1750000000000 (by decide)⟩,.resume 0 {},.resume 0 {},.resume 0 {},
    .arrive ⟨"info@second.example".toList,identifier 1750000001000 (by decide)⟩,.resume 0 {},.resume 0 {}]

theorem namesake_is_refused :
    ((attempts namesakes).map Registration.email).Nodup ∧ ((attempts namesakes).map fun registration => registration.id.value).Nodup ∧
      ¬((attempts namesakes).map Registration.slug).Nodup ∧
      (run machine.step idle namesakes).shared.conflicts = [⟨"info@second.example".toList,identifier 1750000001000 (by decide)⟩] := by
  decide

end Examples

end GrassWorker.PersonalTeams
