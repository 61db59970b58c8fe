import Mathlib.Algebra.Order.Field.Basic
import Mathlib.Data.List.Pairwise
import Mathlib.Tactic.Linarith
import Mathlib.Tactic.Ring

/-! Token buckets: a bucket is refilled at an even rate up to its capacity, and a call is admitted if it can take a
token. What a bucket admits in a window is bounded by what it holds and what flows into it. -/
namespace GrassWorker.TokenBucket

section Windows
variable {K : Type}

def admitted (window : K → Bool) (calls : List (K × Bool)) : Nat := calls.countP fun call => call.2 && window call.1

theorem admitted_cons (window : K → Bool) (now : K) (ok : Bool) (rest : List (K × Bool)) :
    admitted window ((now,ok) :: rest) = admitted window rest + if ok && window now then 1 else 0 :=
  List.countP_cons

theorem admitted_eq_zero {window : K → Bool} {calls : List (K × Bool)} (outside : ∀ call ∈ calls, window call.1 = false) :
    admitted window calls = 0 := by
  apply List.countP_eq_zero.mpr
  intro call member
  rw [outside call member,Bool.and_false]
  exact Bool.false_ne_true

end Windows

variable {K : Type} [Field K] [LinearOrder K]

structure Bucket (K : Type) where
  last : K
  tokens : K
deriving DecidableEq

section Definitions
variable (capacity period : K)

def level (now : K) : Option (Bucket K) → K
  | none => capacity
  | some bucket => min (bucket.tokens + max (now - bucket.last) 0 * (capacity / period)) capacity

def taken (held : K) : K := if 1 ≤ held then 1 else 0

def consume (bucket : Option (Bucket K)) (now : K) : Bucket K × Bool :=
  (⟨now,level capacity period now bucket - taken (level capacity period now bucket)⟩,1 ≤ level capacity period now bucket)

def outcomes : Option (Bucket K) → List K → List (K × Bool)
  | _,[] => []
  | bucket,now :: rest =>
    (now,(consume capacity period bucket now).2) :: outcomes (some (consume capacity period bucket now).1) rest

end Definitions

structure Limits (capacity : Nat) (period : K) (calls : List (K × Bool)) : Prop where
  bounded : ∀ start length, 0 ≤ length →
    (admitted (fun time => start ≤ time ∧ time ≤ start + length) calls : K) ≤ capacity + capacity * length / period
  granted : ∀ before now ok after, calls = before ++ (now,ok) :: after →
    admitted (fun time => now - period < time) before < capacity → ok = true

def Sound (bucket : Option (Bucket K)) (now : K) : Prop := ∀ used ∈ bucket, 0 ≤ used.tokens ∧ used.last ≤ now

section Plain
variable {capacity period : K} {bucket : Option (Bucket K)} {now : K} {times : List K}

theorem level_le : level capacity period now bucket ≤ capacity := by
  cases bucket with
  | none => exact le_refl _
  | some used => exact min_le_right _ _

theorem taken_le (holds : 0 ≤ now) : taken now ≤ now := by
  unfold taken
  split
  · assumption
  · exact holds

theorem taken_level : (((if (consume capacity period bucket now).2 then 1 else 0 : Nat)) : K) = taken (level capacity period now bucket) := by
  unfold consume taken
  by_cases full : 1 ≤ level capacity period now bucket
  · simp [full]
  · simp [full]

theorem time_of_outcome {call : K × Bool} (member : call ∈ outcomes capacity period bucket times) : call.1 ∈ times := by
  induction times generalizing bucket with
  | nil => cases member
  | cons now rest ih =>
    rcases List.mem_cons.mp member with rfl | later
    · exact List.mem_cons_self
    · exact List.mem_cons_of_mem _ (ih later)

end Plain

section Levels
variable [IsStrictOrderedRing K] {capacity period : K} {bucket : Option (Bucket K)} {now later : K}

theorem taken_nonneg : 0 ≤ taken now := by
  unfold taken
  split
  · exact zero_le_one
  · exact le_refl _

theorem level_nonneg (positive : 0 < capacity) (lasts : 0 < period) (sound : Sound bucket now) :
    0 ≤ level capacity period now bucket := by
  cases bucket with
  | none => exact positive.le
  | some used =>
    obtain ⟨holds,_⟩ := sound used rfl
    have inflow : 0 ≤ max (now - used.last) 0 * (capacity / period) :=
      mul_nonneg (le_max_right _ _) (div_nonneg positive.le lasts.le)
    exact le_min (add_nonneg holds inflow) positive.le

theorem level_later (positive : 0 < capacity) (lasts : 0 < period) (order : now ≤ later) (sound : Sound bucket now) :
    level capacity period later bucket ≤ level capacity period now bucket + (later - now) * (capacity / period) := by
  have rate : 0 ≤ capacity / period := div_nonneg positive.le lasts.le
  have inflow : 0 ≤ (later - now) * (capacity / period) := mul_nonneg (sub_nonneg.mpr order) rate
  cases bucket with
  | none => exact le_add_of_nonneg_right inflow
  | some used =>
    obtain ⟨_,before⟩ := sound used rfl
    rw [level,level,max_eq_left (sub_nonneg.mpr (before.trans order)),max_eq_left (sub_nonneg.mpr before),← min_add_add_right]
    refine le_min ((min_le_left _ _).trans ?_) ((min_le_right _ _).trans (le_add_of_nonneg_right inflow))
    apply le_of_eq
    ring

theorem level_full (positive : 0 < capacity) (lasts : 0 < period)
    (rested : ∀ used ∈ bucket, 0 ≤ used.tokens ∧ used.last + period ≤ now) : level capacity period now bucket = capacity := by
  cases bucket with
  | none => rfl
  | some used =>
    obtain ⟨holds,elapsed⟩ := rested used rfl
    apply min_eq_right
    have long : period ≤ max (now - used.last) 0 := (le_sub_iff_add_le'.mpr elapsed).trans (le_max_left _ _)
    calc capacity = period * (capacity / period) := (mul_div_cancel₀ capacity lasts.ne').symm
      _ ≤ max (now - used.last) 0 * (capacity / period) := mul_le_mul_of_nonneg_right long (div_nonneg positive.le lasts.le)
      _ ≤ _ := le_add_of_nonneg_left holds

theorem consume_sound (positive : 0 < capacity) (lasts : 0 < period) (sound : Sound bucket now) :
    Sound (some (consume capacity period bucket now).1) now := by
  rintro used ⟨⟩
  exact ⟨sub_nonneg.mpr (taken_le (level_nonneg positive lasts sound)),le_refl _⟩

theorem level_consume :
    level capacity period now (some (consume capacity period bucket now).1) =
      level capacity period now bucket - taken (level capacity period now bucket) := by
  rw [level,consume,sub_self,max_self,zero_mul,add_zero]
  exact min_eq_left ((sub_le_self _ taken_nonneg).trans level_le)

theorem level_kept (positive : 0 < capacity) (lasts : 0 < period) (order : now ≤ later) (sound : Sound bucket now) :
    level capacity period later bucket ≤
      level capacity period later (some (consume capacity period bucket now).1) + taken (level capacity period now bucket) := by
  have rate : 0 ≤ capacity / period := div_nonneg positive.le lasts.le
  have flows := level_later positive lasts order sound
  rw [level,consume,max_eq_left (sub_nonneg.mpr order),← min_add_add_right]
  refine le_min ?_ (level_le.trans (le_add_of_nonneg_right taken_nonneg))
  linarith

end Levels

section Runs
variable [IsStrictOrderedRing K] {capacity period : K} {bucket : Option (Bucket K)} {times : List K}

theorem admitted_from (positive : 0 < capacity) (lasts : 0 < period) {start first finish : K} (inside : start ≤ first)
    (order : first ≤ finish) (sound : Sound bucket first) (sorted : times.Pairwise (· ≤ ·)) (since : ∀ time ∈ times, first ≤ time) :
    (admitted (fun time => start ≤ time ∧ time ≤ finish) (outcomes capacity period bucket times) : K) ≤
      level capacity period first bucket + (finish - first) * (capacity / period) := by
  have rate : 0 ≤ capacity / period := div_nonneg positive.le lasts.le
  have nothing {bucket : Option (Bucket K)} {first : K} (sound : Sound bucket first) (order : first ≤ finish) :
      ((0 : Nat) : K) ≤ level capacity period first bucket + (finish - first) * (capacity / period) := by
    rw [Nat.cast_zero]
    exact add_nonneg (level_nonneg positive lasts sound) (mul_nonneg (sub_nonneg.mpr order) rate)
  induction times generalizing bucket first with
  | nil => exact nothing sound order
  | cons now rest ih =>
    have from' := since now List.mem_cons_self
    have soundNow : Sound bucket now := fun used member => ⟨(sound used member).1,(sound used member).2.trans from'⟩
    obtain ⟨ahead,sortedRest⟩ := List.pairwise_cons.mp sorted
    by_cases within : now ≤ finish
    · have later := ih (inside.trans from') within (consume_sound positive lasts soundNow) sortedRest ahead
      rw [level_consume] at later
      have flows := level_later positive lasts from' sound
      have counted : (decide (start ≤ now ∧ now ≤ finish)) = true := decide_eq_true ⟨inside.trans from',within⟩
      rw [outcomes,admitted_cons,counted,Bool.and_true,Nat.cast_add]
      rw [taken_level]
      linarith
    · have past : ∀ call ∈ outcomes capacity period bucket (now :: rest), decide (start ≤ call.1 ∧ call.1 ≤ finish) = false := by
        intro call member
        apply decide_eq_false
        rintro ⟨_,before⟩
        rcases List.mem_cons.mp (time_of_outcome member) with same | later
        · exact within (same ▸ before)
        · exact within ((ahead _ later).trans before)
      rw [admitted_eq_zero past]
      exact nothing sound order

theorem admitted_window (positive : 0 < capacity) (lasts : 0 < period) {start length : K} (long : 0 ≤ length)
    {first : K} (sound : Sound bucket first) (sorted : times.Pairwise (· ≤ ·)) (since : ∀ time ∈ times, first ≤ time) :
    (admitted (fun time => start ≤ time ∧ time ≤ start + length) (outcomes capacity period bucket times) : K) ≤
      capacity + capacity * length / period := by
  have rate : 0 ≤ capacity / period := div_nonneg positive.le lasts.le
  have flow : capacity * length / period = length * (capacity / period) := by
    rw [mul_comm capacity length,mul_div_assoc]
  have some' : 0 ≤ length * (capacity / period) := mul_nonneg long rate
  rw [flow]
  induction times generalizing bucket first with
  | nil =>
    rw [outcomes,admitted,List.countP_nil,Nat.cast_zero]
    exact add_nonneg positive.le some'
  | cons now rest ih =>
    have from' := since now List.mem_cons_self
    have soundNow : Sound bucket now := fun used member => ⟨(sound used member).1,(sound used member).2.trans from'⟩
    obtain ⟨ahead,sortedRest⟩ := List.pairwise_cons.mp sorted
    have early (outside : ¬(start ≤ now ∧ now ≤ start + length)) :
        (admitted (fun time => start ≤ time ∧ time ≤ start + length) (outcomes capacity period bucket (now :: rest)) : K) ≤
          capacity + length * (capacity / period) := by
      rw [outcomes,admitted_cons,decide_eq_false outside,Bool.and_false]
      exact ih (consume_sound positive lasts soundNow) sortedRest ahead
    by_cases begun : start ≤ now
    · by_cases within : now ≤ start + length
      · have bound := admitted_from positive lasts begun within soundNow sorted (by
          intro time member
          rcases List.mem_cons.mp member with rfl | later
          · exact le_refl _
          · exact ahead time later)
        have held : level capacity period now bucket ≤ capacity := level_le
        have shorter : (start + length - now) * (capacity / period) ≤ length * (capacity / period) :=
          mul_le_mul_of_nonneg_right (by linarith) rate
        linarith
      · exact early fun both => within both.2
    · exact early fun both => begun both.1

theorem granted_since (positive : 0 < capacity) (lasts : 0 < period) {first : K} (sound : Sound bucket first)
    (sorted : times.Pairwise (· ≤ ·)) (since : ∀ time ∈ times, first ≤ time) {before after : List (K × Bool)} {now : K} {ok : Bool}
    (split : outcomes capacity period bucket times = before ++ (now,ok) :: after)
    (enough : (before.countP Prod.snd : K) + 1 ≤ level capacity period now bucket) : ok = true := by
  induction before generalizing bucket first times with
  | nil =>
    cases times with
    | nil => cases split
    | cons time rest =>
      obtain ⟨head,_⟩ := List.cons.inj split
      obtain ⟨rfl,rfl⟩ := Prod.mk.inj head
      rw [List.countP_nil,Nat.cast_zero,zero_add] at enough
      exact decide_eq_true enough
  | cons call before ih =>
    cases times with
    | nil => cases split
    | cons time rest =>
      obtain ⟨rfl,tail⟩ := List.cons.inj split
      obtain ⟨ahead,sortedRest⟩ := List.pairwise_cons.mp sorted
      have from' := since time List.mem_cons_self
      have soundTime : Sound bucket time := fun used member => ⟨(sound used member).1,(sound used member).2.trans from'⟩
      have order : time ≤ now := by
        have there : (now,ok) ∈ outcomes capacity period (some (consume capacity period bucket time).1) rest := by
          rw [tail]
          exact List.mem_append_right _ List.mem_cons_self
        exact ahead now (time_of_outcome there)
      refine ih (consume_sound positive lasts soundTime) sortedRest ahead tail ?_
      have kept := level_kept positive lasts order soundTime
      rw [List.countP_cons,Nat.cast_add] at enough
      rw [taken_level] at enough
      linarith

theorem granted_after_rest (positive : 0 < capacity) (lasts : 0 < period) {before after : List (K × Bool)} {now : K} {ok : Bool}
    (rested : ∀ used ∈ bucket, 0 ≤ used.tokens ∧ used.last + period ≤ now) {first : K} (sound : Sound bucket first)
    (sorted : times.Pairwise (· ≤ ·)) (since : ∀ time ∈ times, first ≤ time)
    (split : outcomes capacity period bucket times = before ++ (now,ok) :: after)
    (few : (admitted (fun time => now - period < time) before : K) + 1 ≤ capacity) : ok = true := by
  induction before generalizing bucket first times with
  | nil =>
    refine granted_since positive lasts sound sorted since split ?_
    rw [level_full positive lasts rested]
    exact few
  | cons call before ih =>
    cases times with
    | nil => cases split
    | cons time rest =>
      obtain ⟨rfl,tail⟩ := List.cons.inj split
      obtain ⟨ahead,sortedRest⟩ := List.pairwise_cons.mp sorted
      have from' := since time List.mem_cons_self
      have soundTime : Sound bucket time := fun used member => ⟨(sound used member).1,(sound used member).2.trans from'⟩
      by_cases recent : now - period < time
      · -- From here on every call is in the window.
        have every : admitted (fun time => now - period < time) ((time,(consume capacity period bucket time).2) :: before) =
            ((time,(consume capacity period bucket time).2) :: before).countP Prod.snd := by
          apply List.countP_congr
          intro call member
          have inside : now - period < call.1 := by
            rcases List.mem_cons.mp member with rfl | later
            · exact recent
            · have there : call ∈ outcomes capacity period (some (consume capacity period bucket time).1) rest := by
                rw [tail]
                exact List.mem_append_left _ later
              exact recent.trans_le (ahead _ (time_of_outcome there))
          dsimp only
          rw [decide_eq_true inside,Bool.and_true]
        refine granted_since positive lasts sound sorted since split ?_
        rw [level_full positive lasts rested,← every]
        exact few
      · rw [admitted_cons,decide_eq_false recent,Bool.and_false] at few
        have restedNow : ∀ used ∈ some (consume capacity period bucket time).1, 0 ≤ used.tokens ∧ used.last + period ≤ now := by
          rintro used ⟨⟩
          have left := (consume_sound positive lasts soundTime _ rfl).1
          exact ⟨left,le_sub_iff_add_le.mp (not_lt.mp recent)⟩
        exact ih restedNow (consume_sound positive lasts soundTime) sortedRest ahead tail few

theorem limits_outcomes {capacity : Nat} (positive : 0 < capacity) (lasts : 0 < period) (sorted : times.Pairwise (· ≤ ·)) :
    Limits capacity period (outcomes (capacity : K) period none times) := by
  have positive' : (0 : K) < capacity := Nat.cast_pos.mpr positive
  have fresh (first : K) : Sound (none : Option (Bucket K)) first := fun _ member => by cases member
  obtain ⟨first,since⟩ : ∃ first, ∀ time ∈ times, first ≤ time := by
    cases times with
    | nil => exact ⟨0,fun _ member => by cases member⟩
    | cons time rest =>
      refine ⟨time,fun other member => ?_⟩
      rcases List.mem_cons.mp member with rfl | later
      · exact le_refl _
      · exact (List.pairwise_cons.mp sorted).1 other later
  refine ⟨?_,?_⟩
  · intro start length long
    exact admitted_window positive' lasts long (fresh first) sorted since
  · intro before now ok after split few
    refine granted_after_rest positive' lasts (fun _ member => by cases member) (fresh first) sorted since split ?_
    exact_mod_cast Nat.succ_le_of_lt few

end Runs

end GrassWorker.TokenBucket
