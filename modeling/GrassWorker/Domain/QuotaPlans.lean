import GrassWorker.Domain.Quotas
import GrassWorker.Foundations.Table

/-! Quota plans, which of them a team has, and how administrators change them. -/
namespace GrassWorker.QuotaPlans
open Quotas

structure QuotaPlan where
  id : Uuid
  code : String
  name : String
  description : Option String
  isDefault : Bool
  enabled : Bool
deriving DecidableEq

inductive PlanEntry
  | code (code : String)
  | default
deriving DecidableEq

def QuotaPlan.entries (plan : QuotaPlan) : List PlanEntry := .code plan.code :: if plan.isDefault then [.default] else []

abbrev Plans := Table QuotaPlan QuotaPlan.id QuotaPlan.entries

structure QuotaLimit where
  quotaPlanId : Uuid
  dimension : QuotaDimension
  limitValue : Int
deriving DecidableEq

def QuotaLimit.key (limit : QuotaLimit) : Uuid × QuotaDimension := (limit.quotaPlanId,limit.dimension)

abbrev LimitRows := Table QuotaLimit QuotaLimit.key fun _ => ([] : List Unit)

structure Team where
  id : Uuid
  groupId : Option Uuid
  explicitQuotaPlanId : Option Uuid
  deletedAt : Option Timestamp
deriving DecidableEq

abbrev Teams := Table Team Team.id fun _ => ([] : List Unit)

structure TeamGroup where
  id : Uuid
  quotaPlanId : Option Uuid
  deletedAt : Option Timestamp
deriving DecidableEq

abbrev TeamGroups := Table TeamGroup TeamGroup.id fun _ => ([] : List Unit)

structure Database where
  plans : Plans
  limits : LimitRows
  teams : Teams
  groups : TeamGroups

/-! Resolution. -/

inductive QuotaPlanSource
  | explicit | group | default
deriving DecidableEq

structure ResolvedQuota where
  plan : QuotaPlan
  source : QuotaPlanSource
  limits : Limits

def planById (plans : Plans) (planId : Uuid) : Option QuotaPlan := (plans.find planId).filter QuotaPlan.enabled

def groupPlan (db : Database) (groupId : Option Uuid) : Option QuotaPlan := do
  let groupId ← groupId
  let group ← (db.groups.find groupId).filter fun group => group.deletedAt = none
  let planId ← group.quotaPlanId
  planById db.plans planId

def defaultPlan (plans : Plans) : Option QuotaPlan := plans.rows.find? fun plan => plan.isDefault ∧ plan.enabled

def limitsOf (limits : LimitRows) (planId : Uuid) : Limits := fun dimension =>
  (limits.find (planId,dimension)).map QuotaLimit.limitValue

def resolveTeamQuota (db : Database) (team : Team) : Except String ResolvedQuota := do
  let (plan,source) ← match team.explicitQuotaPlanId with
    | some planId =>
      match planById db.plans planId with
      | some plan => pure (plan,.explicit)
      | none => throw ("explicit quota plan " ++ toString planId ++ " not found")
    | none =>
      match groupPlan db team.groupId with
      | some groupPlan => pure (groupPlan,.group)
      | none =>
        match defaultPlan db.plans with
        | some plan => pure (plan,.default)
        | none => throw "no default quota plan is configured"
  return { plan, source, limits := limitsOf db.limits plan.id }

/-! Changes. -/

def getPlan (plans : Plans) (planId : Uuid) : Option QuotaPlan := plans.find planId

def upsertLimit (planId : Uuid) (limits : LimitRows) (limit : QuotaDimension × Int) : Option LimitRows :=
  match limits.find (planId,limit.1) with
  | some _ => limits.update (planId,limit.1) (fun row => { row with limitValue := limit.2 }) fun _ => rfl
  | none => limits.insert ⟨planId,limit.1,limit.2⟩

def deleteLimit (planId : Uuid) (limits : LimitRows) (dimension : QuotaDimension) : LimitRows :=
  limits.deleteWhere fun row => row.key = (planId,dimension)

structure CreatePlanParams where
  code : String
  name : String
  description : Option String
  limits : List (QuotaDimension × Int)

def createPlan (id : Uuid) (db : Database) (params : CreatePlanParams) : Option Database := do
  let plans ← db.plans.insert ⟨id,params.code,params.name,params.description,false,true⟩
  let limits ← params.limits.foldlM (upsertLimit id) db.limits
  return { db with plans, limits }

/-- The request, with its limits parsed into those to set and those to remove. -/
structure UpdateQuotaPlanRequest where
  name : Option String := none
  description : Option String := none
  enabled : Option Bool := none
  isDefault : Option Bool := none
  limits : List (QuotaDimension × Int) := []
  removed : List QuotaDimension := []
deriving DecidableEq

def UpdateQuotaPlanRequest.writes (body : UpdateQuotaPlanRequest) : Bool :=
  body.name.isSome || body.description.isSome || body.enabled.isSome

def UpdateQuotaPlanRequest.apply (body : UpdateQuotaPlanRequest) (plan : QuotaPlan) : QuotaPlan :=
  { plan with
    name := body.name.getD plan.name
    description := body.description.orElse fun _ => plan.description
    enabled := body.enabled.getD plan.enabled }

def checkUpdate (current : QuotaPlan) (body : UpdateQuotaPlanRequest) : Except String Unit :=
  let staysDefault := body.isDefault.getD current.isDefault
  let staysEnabled := body.enabled.getD current.enabled
  if current.isDefault ∧ body.isDefault = some false then
    throw "promote another plan to default instead of un-defaulting this one"
  else if staysDefault ∧ ¬staysEnabled then throw "the default quota plan must stay enabled"
  else if body.isDefault = some true ∧ ¬staysEnabled then throw "only an enabled plan can become the default"
  else pure ()

def updatePlan (planId : Uuid) (body : UpdateQuotaPlanRequest) (db : Database) : Option Database := do
  let plans ← db.plans.update planId body.apply fun _ => rfl
  let limits ← body.limits.foldlM (upsertLimit planId) db.limits
  return { db with plans, limits := body.removed.foldl (deleteLimit planId) limits }

/-- The demotion, of the default that was found and locked, and the promotion. -/
def setDefaultPlan (planId : Uuid) (demoted : Option Uuid) (plans : Plans) : Option Plans := do
  let without ← demoted.elim (some plans) fun old =>
    plans.update old (fun plan => { plan with isDefault := false }) fun _ => rfl
  without.update planId (fun plan => { plan with isDefault := true }) fun _ => rfl

/-- `validate_plan_reference`, and what `set_quota_plan` checks. -/
def validatePlanReference (plans : Plans) (planId : Uuid) : Except String Unit :=
  match getPlan plans planId with
  | some plan => if plan.enabled then pure () else throw "quota plan is disabled"
  | none => throw "quota plan not found"

/-! Teams whose quota resolves. -/

structure Resolves (db : Database) : Prop where
  once : (db.plans.rows.filter QuotaPlan.isDefault).length = 1
  enabled : ∀ plan ∈ db.plans.rows, plan.isDefault → plan.enabled
  every : ∀ team ∈ db.teams.rows, (resolveTeamQuota db team).isOk

/-- Some default plan is enabled, and so are the plans that teams have been assigned. -/
structure Sound (db : Database) : Prop where
  default : ∃ plan ∈ db.plans.rows, plan.isDefault ∧ plan.enabled
  assigned : ∀ team ∈ db.teams.rows, ∀ planId ∈ team.explicitQuotaPlanId, ∃ plan, db.plans.find planId = some plan ∧ plan.enabled

section Resolution
variable {db : Database} {plans : Plans}

theorem default_unique {first second : QuotaPlan} (left : first ∈ plans.rows) (right : second ∈ plans.rows)
    (one : first.isDefault) (two : second.isDefault) : first = second := by
  have held : .default ∈ first.entries := by simp [QuotaPlan.entries,one]
  exact plans.same_of_entry left right held (by simp [QuotaPlan.entries,two])

theorem defaults_length {plan : QuotaPlan} (member : plan ∈ plans.rows) (isDefault : plan.isDefault) :
    (plans.rows.filter QuotaPlan.isDefault).length = 1 := by
  have only : ∀ other ∈ plans.rows.filter QuotaPlan.isDefault, other = plan := by
    intro other listed
    obtain ⟨listed,chosen⟩ := List.mem_filter.mp listed
    exact default_unique listed member chosen isDefault
  have distinct := plans.nodup_rows.filter QuotaPlan.isDefault
  have there : plan ∈ plans.rows.filter QuotaPlan.isDefault := List.mem_filter.mpr ⟨member,isDefault⟩
  rw [List.eq_replicate_of_mem only] at distinct there ⊢
  rw [List.length_replicate]
  have nonempty := List.length_pos_of_mem there
  have few := List.nodup_iff_count_le_one.mp distinct plan
  rw [List.count_replicate_self] at few
  rw [List.length_replicate] at nonempty
  omega

theorem Sound.resolves (sound : Sound db) : Resolves db := by
  obtain ⟨plan,member,isDefault,enabled⟩ := sound.default
  refine ⟨defaults_length member isDefault,?_,?_⟩
  · intro other listed chosen
    rwa [default_unique listed member chosen isDefault]
  · intro team listed
    unfold resolveTeamQuota
    cases explicit : team.explicitQuotaPlanId with
    | some planId =>
      obtain ⟨assigned,found,usable⟩ := sound.assigned team listed planId explicit
      have there : planById db.plans planId = some assigned := by
        unfold planById
        rw [found]
        exact Option.filter_eq_some_iff.mpr ⟨rfl,usable⟩
      simp only [there]
      rfl
    | none =>
      cases groupPlan db team.groupId with
      | some shared => rfl
      | none =>
        cases found : defaultPlan db.plans with
        | some fallback => rfl
        | none =>
          have refused := List.find?_eq_none.mp found plan member
          exact absurd (decide_eq_true ⟨isDefault,enabled⟩) refused

end Resolution

end GrassWorker.QuotaPlans
