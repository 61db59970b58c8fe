import GrassWorker.Entity

/-! The retention of artifacts: when one has expired, in the arithmetic of the time library, which panics where a
duration or a date leaves its range. -/
namespace GrassWorker.Retention

def second : Int := 1000000000

def day : Int := 86400 * second

def minInstant : Int := -377705116800 * second

def maxInstant : Int := 253402300800 * second - 1

structure Artifact where
  kind : ArtifactKind
  createdAt : Int
  deletedAt : Option Int

structure Deployment where
  environment : Environment
  buildStatus : BuildStatus
  createdAt : Int

/-- The values are of the type `u64`, and the settings take every one of them. -/
structure RetentionPolicy where
  logRetentionDays : UInt64
  previewRetentionDays : UInt64
  failedRetentionDays : UInt64
  productionKeep : UInt64
deriving DecidableEq

/-- `days as i64`. -/
def asI64 (value : UInt64) : Int := if value.toNat < 2 ^ 63 then value.toNat else value.toNat - 2 ^ 64

/-- `Duration::days`, which counts seconds in an `i64`. -/
def durationDays (days : Int) : Option Int :=
  if -(2 ^ 63) ≤ days * 86400 ∧ days * 86400 < 2 ^ 63 then some (days * day) else none

/-- `OffsetDateTime - Duration`. -/
def subtract (now : Int) (duration : Int) : Option Int :=
  if minInstant ≤ now - duration ∧ now - duration ≤ maxInstant then some (now - duration) else none

/-- `older_than`; none is a panic. -/
def olderThan (createdAt : Int) (days : UInt64) (now : Int) : Option Bool :=
  if days = 0 then some false
  else do
    let duration ← durationDays (asI64 days)
    let bound ← subtract now duration
    return createdAt ≤ bound

def artifactExpired (artifact : Artifact) (deployment : Deployment) (productionRank : Option UInt64) (isProtected : Bool)
    (policy : RetentionPolicy) (now : Int) : Option Bool :=
  if artifact.deletedAt.isSome then some true
  else if isProtected then some false
  else if artifact.kind = .buildLog then olderThan artifact.createdAt policy.logRetentionDays now
  else match deployment.environment with
    | .production => some (0 < policy.productionKeep && productionRank.any (policy.productionKeep ≤ ·))
    | .preview =>
      if deployment.buildStatus = .failed ∨ deployment.buildStatus = .canceled then
        olderThan deployment.createdAt policy.failedRetentionDays now
      else olderThan deployment.createdAt policy.previewRetentionDays now

def governed (artifact : Artifact) (deployment : Deployment) (policy : RetentionPolicy) : Option (UInt64 × Int) :=
  if artifact.kind = .buildLog then some (policy.logRetentionDays,artifact.createdAt)
  else match deployment.environment with
    | .production => none
    | .preview =>
      if deployment.buildStatus = .failed ∨ deployment.buildStatus = .canceled then
        some (policy.failedRetentionDays,deployment.createdAt)
      else some (policy.previewRetentionDays,deployment.createdAt)

def ofAge (createdAt : Int) (days : UInt64) (now : Int) : Bool :=
  0 < days.toNat ∧ (days.toNat : Int) * day ≤ now - createdAt

def Raised (before after : UInt64) : Prop := before = after ∨ 0 < before ∧ before ≤ after

structure RetentionPolicy.RaisedTo (before after : RetentionPolicy) : Prop where
  log : Raised before.logRetentionDays after.logRetentionDays
  preview : Raised before.previewRetentionDays after.previewRetentionDays
  failed : Raised before.failedRetentionDays after.failedRetentionDays
  keep : Raised before.productionKeep after.productionKeep

/-- What an artifact can expect of a policy: an answer, the right one for its age, and none that is worse for having
raised the policy. -/
structure Expected (policy : RetentionPolicy) (now : Int) (artifact : Artifact) (deployment : Deployment)
    (rank : Option UInt64) (isProtected : Bool) : Prop where
  answers : (artifactExpired artifact deployment rank isProtected policy now).isSome
  ages : isProtected = false → artifact.deletedAt = none → ∀ governs ∈ governed artifact deployment policy,
    artifactExpired artifact deployment rank isProtected policy now = some (ofAge governs.2 governs.1 now)
  raises : ∀ before : RetentionPolicy, before.RaisedTo policy →
    artifactExpired artifact deployment rank isProtected before now = some false →
      artifactExpired artifact deployment rank isProtected policy now = some false

/-- A policy is safe at a time if every artifact created between 1970 and then can expect that of it. -/
def Safe (policy : RetentionPolicy) (now : Int) : Prop :=
  ∀ artifact deployment rank isProtected, 0 ≤ artifact.createdAt → artifact.createdAt ≤ now →
    0 ≤ deployment.createdAt → deployment.createdAt ≤ now → Expected policy now artifact deployment rank isProtected

def Dated (days : UInt64) (now : Int) : Prop := (days.toNat : Int) * day ≤ now - minInstant

instance (days : UInt64) (now : Int) : Decidable (Dated days now) := inferInstanceAs (Decidable (_ ≤ _))

def RetentionPolicy.Dated (policy : RetentionPolicy) (now : Int) : Prop :=
  Retention.Dated policy.logRetentionDays now ∧ Retention.Dated policy.previewRetentionDays now ∧
    Retention.Dated policy.failedRetentionDays now

section Arithmetic
variable {createdAt now : Int} {days before : UInt64}

theorem olderThan_of_dated (latest : now ≤ maxInstant) (dated : Dated days now) :
    olderThan createdAt days now = some (ofAge createdAt days now) := by
  unfold Dated at dated
  by_cases zero : days = 0
  · subst zero
    rfl
  · have positive : 0 < days.toNat := by
      apply Nat.pos_of_ne_zero
      intro none'
      exact zero (UInt64.toNat_inj.mp none')
    have small : asI64 days = days.toNat := by
      unfold asI64
      apply if_pos
      unfold day second minInstant maxInstant at *
      simp only [second] at *
      omega
    have duration : durationDays days.toNat = some ((days.toNat : Int) * day) := by
      unfold durationDays
      apply if_pos
      unfold day minInstant maxInstant at *
      simp only [second] at *
      omega
    have bound : subtract now ((days.toNat : Int) * day) = some (now - (days.toNat : Int) * day) := by
      unfold subtract
      apply if_pos
      unfold day minInstant maxInstant at *
      simp only [second] at *
      omega
    rw [olderThan,if_neg zero,small,duration]
    change (subtract now _).bind _ = _
    rw [bound]
    change some (decide _) = some (decide _)
    rw [Option.some.injEq,decide_eq_decide]
    constructor
    · intro old
      exact ⟨positive,by omega⟩
    · rintro ⟨_,old⟩
      omega

theorem dated_of_answer (first : 0 ≤ now) (exact' : olderThan now days now = some (ofAge now days now)) : Dated days now := by
  unfold Dated
  by_contra undated
  have zero : days ≠ 0 := by
    rintro rfl
    apply undated
    have none' : ((UInt64.toNat 0 : Nat) : Int) * day = 0 := rfl
    rw [none']
    unfold minInstant
    simp only [second]
    omega
  have young : ofAge now days now = false := by
    apply decide_eq_false
    rintro ⟨positive,old⟩
    unfold day at old
    simp only [second] at old
    omega
  rw [young,olderThan,if_neg zero] at exact'
  obtain ⟨duration,found,rest⟩ := Option.bind_eq_some_iff.mp exact'
  obtain ⟨bound,dated,answer⟩ := Option.bind_eq_some_iff.mp rest
  unfold durationDays at found
  split at found
  · cases found
    unfold subtract at dated
    split at dated
    · rename_i within
      cases dated
      have older : ¬now ≤ now - asI64 days * day := of_decide_eq_false (Option.some.inj answer)
      have value : asI64 days = days.toNat ∨ asI64 days = days.toNat - 2 ^ 64 := by
        unfold asI64
        split
        · exact .inl rfl
        · exact .inr rfl
      have range := days.toNat_lt
      unfold day minInstant at *
      simp only [second] at *
      rcases value with plain | wrapped
      · omega
      · omega
    · cases dated
  · cases found

theorem Raised.toNat_le (raised : Raised before days) : before.toNat ≤ days.toNat := by
  rcases raised with rfl | ⟨_,more⟩
  · exact Nat.le_refl _
  · exact UInt64.le_iff_toNat_le.mp more

theorem Dated.of_raised (raised : Raised before days) (dated : Dated days now) : Dated before now := by
  have fewer : (before.toNat : Int) * day ≤ (days.toNat : Int) * day :=
    Int.mul_le_mul_of_nonneg_right (Int.ofNat_le.mpr raised.toNat_le) (by decide)
  exact Int.le_trans fewer dated

theorem ofAge_of_raised (raised : Raised before days) (young : ofAge createdAt before now = false) :
    ofAge createdAt days now = false := by
  rcases raised with rfl | ⟨positive,more⟩
  · exact young
  · apply decide_eq_false
    rintro ⟨_,old⟩
    refine of_decide_eq_false young ⟨UInt64.lt_iff_toNat_lt.mp positive,Int.le_trans ?_ old⟩
    exact Int.mul_le_mul_of_nonneg_right (Int.ofNat_le.mpr (UInt64.le_iff_toNat_le.mp more)) (by decide)

end Arithmetic

section Policies
variable {policy before : RetentionPolicy} {now : Int} {artifact : Artifact} {deployment : Deployment} {rank : Option UInt64}

theorem artifactExpired_governed {governs : UInt64 × Int} (kept : artifact.deletedAt = none)
    (found : governed artifact deployment policy = some governs) :
    artifactExpired artifact deployment rank false policy now = olderThan governs.2 governs.1 now := by
  unfold governed at found
  rw [artifactExpired,kept]
  simp only [Option.isSome_none,Bool.false_eq_true,if_false]
  split at found
  · rename_i log
    cases found
    rw [if_pos log]
  · rename_i log
    rw [if_neg log]
    cases environment : deployment.environment with
    | production =>
      rw [environment] at found
      cases found
    | preview =>
      rw [environment] at found
      dsimp only at found ⊢
      split at found
      · rename_i failed
        cases found
        rw [if_pos failed]
      · rename_i built
        cases found
        rw [if_neg built]

theorem dated_of_governed {governs : UInt64 × Int} (dated : policy.Dated now)
    (found : governed artifact deployment policy = some governs) : Dated governs.1 now := by
  obtain ⟨log,preview,failed⟩ := dated
  unfold governed at found
  split at found
  · cases found
    exact log
  · split at found
    · cases found
    · split at found
      · cases found
        exact failed
      · cases found
        exact preview

theorem governed_raised (artifact : Artifact) (deployment : Deployment) (raised : before.RaisedTo policy) :
    (governed artifact deployment before = none ∧ governed artifact deployment policy = none) ∨
      ∃ days more createdAt, Raised days more ∧ governed artifact deployment before = some (days,createdAt) ∧
        governed artifact deployment policy = some (more,createdAt) := by
  unfold governed
  split
  · exact .inr ⟨_,_,_,raised.log,rfl,rfl⟩
  · split
    · exact .inl ⟨rfl,rfl⟩
    · split
      · exact .inr ⟨_,_,_,raised.failed,rfl,rfl⟩
      · exact .inr ⟨_,_,_,raised.preview,rfl,rfl⟩

theorem artifactExpired_ranked (kept : artifact.deletedAt = none) (found : governed artifact deployment policy = none) :
    artifactExpired artifact deployment rank false policy now =
      some (0 < policy.productionKeep && rank.any (policy.productionKeep ≤ ·)) := by
  unfold governed at found
  rw [artifactExpired,kept]
  simp only [Option.isSome_none,Bool.false_eq_true,if_false]
  split at found
  · cases found
  · rename_i log
    rw [if_neg log]
    cases environment : deployment.environment with
    | production => rfl
    | preview =>
      rw [environment] at found
      dsimp only at found
      split at found
      · cases found
      · cases found

theorem ranked_of_raised {keep more : UInt64} (raised : Raised keep more) (within : (0 < keep && rank.any (keep ≤ ·)) = false) :
    (0 < more && rank.any (more ≤ ·)) = false := by
  rcases raised with rfl | ⟨positive,order⟩
  · exact within
  · rw [decide_eq_true positive,Bool.true_and] at within
    apply Bool.and_eq_false_imp.mpr
    intro _
    cases rank with
    | none => rfl
    | some rank =>
      apply decide_eq_false
      intro old
      exact of_decide_eq_false within (UInt64.le_trans order old)

theorem expected_of_dated (latest : now ≤ maxInstant) (dated : policy.Dated now) (isProtected : Bool) :
    Expected policy now artifact deployment rank isProtected := by
  have datedBefore {before : RetentionPolicy} (raised : before.RaisedTo policy) : before.Dated now :=
    ⟨.of_raised raised.log dated.1,.of_raised raised.preview dated.2.1,.of_raised raised.failed dated.2.2⟩
  cases gone : artifact.deletedAt with
  | some deletedAt =>
    have expired (policy : RetentionPolicy) : artifactExpired artifact deployment rank isProtected policy now = some true := by
      rw [artifactExpired,gone]
      rfl
    refine ⟨by rw [expired]; rfl,fun _ kept => ?_,fun before _ unexpired => ?_⟩
    · rw [gone] at kept
      cases kept
    · rw [expired] at unexpired
      cases unexpired
  | none =>
    cases isProtected with
    | true =>
      have kept (policy : RetentionPolicy) : artifactExpired artifact deployment rank true policy now = some false := by
        rw [artifactExpired,gone]
        rfl
      refine ⟨by rw [kept]; rfl,fun unprotected => ?_,fun _ _ _ => kept policy⟩
      cases unprotected
    | false =>
      have exact' {governs : UInt64 × Int} {policy : RetentionPolicy} (dated : policy.Dated now)
          (found : governed artifact deployment policy = some governs) :
          artifactExpired artifact deployment rank false policy now = some (ofAge governs.2 governs.1 now) := by
        rw [artifactExpired_governed gone found]
        exact olderThan_of_dated latest (dated_of_governed dated found)
      refine ⟨?_,fun _ _ governs found => exact' dated found,fun before raised unexpired => ?_⟩
      · cases found : governed artifact deployment policy with
        | none =>
          rw [artifactExpired_ranked gone found]
          rfl
        | some governs =>
          rw [exact' dated found]
          rfl
      · rcases governed_raised artifact deployment raised with
          ⟨foundBefore,found⟩ | ⟨days,more,createdAt,raisedDays,foundBefore,found⟩
        · rw [artifactExpired_ranked gone foundBefore] at unexpired
          rw [artifactExpired_ranked gone found,ranked_of_raised raised.keep (Option.some.inj unexpired)]
        · rw [exact' (datedBefore raised) foundBefore] at unexpired
          rw [exact' dated found,ofAge_of_raised raisedDays (Option.some.inj unexpired)]

end Policies

/-- A policy is safe exactly while it does not reach back past the first date of the time library. -/
theorem retention_safe_iff (policy : RetentionPolicy) (now : Int) (first : 0 ≤ now) (latest : now ≤ maxInstant) :
    Safe policy now ↔ policy.Dated now := by
  constructor
  · intro safe
    have log := (safe ⟨.buildLog,now,none⟩ ⟨.preview,.ready,now⟩ none false first (Int.le_refl _) first (Int.le_refl _)).ages
      rfl rfl _ rfl
    have preview := (safe ⟨.grassOutput,now,none⟩ ⟨.preview,.ready,now⟩ none false first (Int.le_refl _) first (Int.le_refl _)).ages
      rfl rfl _ rfl
    have failed := (safe ⟨.grassOutput,now,none⟩ ⟨.preview,.failed,now⟩ none false first (Int.le_refl _) first (Int.le_refl _)).ages
      rfl rfl _ rfl
    exact ⟨dated_of_answer first log,dated_of_answer first preview,dated_of_answer first failed⟩
  · intro dated artifact deployment rank isProtected _ _ _ _
    exact expected_of_dated latest dated isProtected

/-- The defaults, in 2026. -/
theorem defaults_safe : Safe ⟨90,7,30,10⟩ (1767225600 * second) ↔ RetentionPolicy.Dated ⟨90,7,30,10⟩ (1767225600 * second) :=
  retention_safe_iff ⟨90,7,30,10⟩ (1767225600 * second) (by decide) (by decide)

/-- The largest value wraps to a day in the future. -/
theorem largest_value_expires_all : ¬Safe ⟨90,0xffffffffffffffff,30,10⟩ (1767225600 * second) := by
  intro safe
  have expected := safe ⟨.grassOutput,1767225600 * second,none⟩ ⟨.preview,.ready,1767225600 * second⟩ none false
    (by decide) (Int.le_refl _) (by decide) (Int.le_refl _)
  have young := expected.ages rfl rfl _ rfl
  exact absurd young (by decide)

end GrassWorker.Retention
