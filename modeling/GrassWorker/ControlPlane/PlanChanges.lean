import GrassWorker.Domain.QuotaPlans
import GrassWorker.Foundations.Mutexes

/-! Administrators change quota plans, and what teams and groups have of them. What a request reads before its
transaction, what the transaction reads and what it commits are actions of their own. -/
namespace GrassWorker.QuotaPlans
open Quotas Interleaving Runs

structure Shared where
  db : Database
  locks : Multiset Uuid := 0
  drawn : Uuid

inductive Request
  | createPlan (params : CreatePlanParams)
  | updatePlan (planId : Uuid) (body : UpdateQuotaPlanRequest)
  | setQuotaPlan (teamId : Uuid) (planId : Option Uuid)
  | updateGroup (groupId : Uuid) (quotaPlanId : Option Uuid)

inductive Handler
  | createPlan (params : CreatePlanParams)
  | readPlan (planId : Uuid) (body : UpdateQuotaPlanRequest)
  | lockPlan (planId : Uuid) (body : UpdateQuotaPlanRequest) (promotes : Bool)
  | readDefault (planId : Uuid) (body : UpdateQuotaPlanRequest)
  | lockDefault (planId : Uuid) (body : UpdateQuotaPlanRequest) (default : Uuid)
  | writePlan (planId : Uuid) (body : UpdateQuotaPlanRequest) (promotes : Bool) (demoted : Option Uuid)
  | readTeam (teamId : Uuid) (planId : Option Uuid)
  | readAssigned (teamId planId : Uuid)
  | writeTeam (teamId : Uuid) (planId : Option Uuid)
  | readGroup (groupId : Uuid) (planId : Option Uuid)
  | readReference (groupId planId : Uuid)
  | writeGroup (groupId : Uuid) (planId : Option Uuid)

def Handler.guards : Handler → Multiset Uuid
  | .readDefault planId body | .lockDefault planId body _ => if body.writes then {planId} else 0
  | .writePlan planId body _ demoted => (if body.writes then {planId} else 0) + demoted.elim 0 fun old => {old}
  | _ => 0

structure Input where
  fails : Bool := false

def Shared.leave (s : Shared) (handler : Handler) : Shared := { s with locks := s.locks - handler.guards }

def commit (s : Shared) (handler : Handler) (written : Option Database) : Shared × Option Handler :=
  match written with
  | some db => ({ s.leave handler with db },none)
  | none => (s.leave handler,none)

def writtenPlan (planId : Uuid) (body : UpdateQuotaPlanRequest) (promotes : Bool) (demoted : Option Uuid) (db : Database) :
    Option Database := do
  let updated ← updatePlan planId body db
  if promotes then
    let plans ← setDefaultPlan planId demoted updated.plans
    return { updated with plans }
  else return updated

def writtenTeam (teamId : Uuid) (planId : Option Uuid) (db : Database) : Option Database :=
  (db.teams.update teamId (fun team => { team with explicitQuotaPlanId := planId }) fun _ => rfl).map fun teams => { db with teams }

def writtenGroup (groupId : Uuid) (planId : Option Uuid) (db : Database) : Option Database :=
  (db.groups.update groupId (fun group => { group with quotaPlanId := planId }) fun _ => rfl).map fun groups => { db with groups }

def advance (input : Input) (s : Shared) (handler : Handler) : Shared × Option Handler :=
  if input.fails then (s.leave handler,none)
  else
    match handler with
    | .createPlan params =>
      ({ (commit s handler (createPlan s.drawn s.db params)).1 with drawn := s.drawn + 1 },none)
    | .readPlan planId body =>
      match getPlan s.db.plans planId with
      | some current =>
        match checkUpdate current body with
        | .ok () => (s,some (.lockPlan planId body (body.isDefault = some true ∧ current.isDefault = false)))
        | .error _ => (s,none)
      | none => (s,none)
    | .lockPlan planId body promotes =>
      match getPlan s.db.plans planId with
      | some _ =>
        let next := if promotes then .readDefault planId body else .writePlan planId body false none
        if body.writes then
          if planId ∈ s.locks then (s,some handler) else ({ s with locks := planId ::ₘ s.locks },some next)
        else (s,some next)
      | none => (s,none)
    | .readDefault planId body =>
      -- the own row keeps nothing back
      match s.db.plans.rows.find? fun plan => plan.isDefault ∧ plan.id ≠ planId with
      | some default => (s,some (.lockDefault planId body default.id))
      | none => (s,some (.writePlan planId body true none))
    | .lockDefault planId body default =>
      if default ∈ s.locks then (s,some handler)
      else
        -- a row that another transaction has demoted meanwhile is passed over
        match (getPlan s.db.plans default).filter QuotaPlan.isDefault with
        | some _ => ({ s with locks := default ::ₘ s.locks },some (.writePlan planId body true (some default)))
        | none => (s,some (.writePlan planId body true none))
    | .writePlan planId body promotes demoted =>
      -- a promotion that has not written its row yet waits for it
      if promotes ∧ ¬body.writes ∧ planId ∈ s.locks then (s,some handler)
      else commit s handler (writtenPlan planId body promotes demoted s.db)
    | .readTeam teamId planId =>
      match (s.db.teams.find teamId).filter fun team => team.deletedAt = none with
      | some _ =>
        match planId with
        | some planId => (s,some (.readAssigned teamId planId))
        | none => (s,some (.writeTeam teamId none))
      | none => (s,none)
    | .readAssigned teamId planId =>
      match validatePlanReference s.db.plans planId with
      | .ok () => (s,some (.writeTeam teamId (some planId)))
      | .error _ => (s,none)
    | .writeTeam teamId planId => commit s handler (writtenTeam teamId planId s.db)
    | .readGroup groupId planId =>
      match (s.db.groups.find groupId).filter fun group => group.deletedAt = none with
      | some _ =>
        match planId with
        | some planId => (s,some (.readReference groupId planId))
        | none => (s,some (.writeGroup groupId none))
      | none => (s,none)
    | .readReference groupId planId =>
      match validatePlanReference s.db.plans planId with
      | .ok () => (s,some (.writeGroup groupId (some planId)))
      | .error _ => (s,none)
    | .writeGroup groupId planId => commit s handler (writtenGroup groupId planId s.db)

def machine : Machine Shared Handler Request Input where
  enter
    | .createPlan params => .createPlan params
    | .updatePlan planId body => .readPlan planId body
    | .setQuotaPlan teamId planId => .readTeam teamId planId
    | .updateGroup groupId planId => .readGroup groupId planId
  advance := advance

def idle (db : Database) (drawn : Uuid) : Config Shared Handler := ⟨{ db, drawn },[]⟩

/-- Nothing is disabled that is the default or assigned to a team when the update is committed, and nothing becomes the
default or a team's plan that is disabled by then. -/
def Harmless (_ : Input) (s : Shared) : Handler → Prop
  | .writePlan planId body promotes _ => ∀ plan ∈ getPlan s.db.plans planId,
    (body.enabled = some false → plan.isDefault = false ∧ ∀ team ∈ s.db.teams.rows, team.explicitQuotaPlanId ≠ some planId) ∧
      (promotes → (body.apply plan).enabled)
  | .writeTeam _ (some planId) => ∀ plan ∈ getPlan s.db.plans planId, plan.enabled
  | _ => True

instance (input : Input) (s : Shared) : ∀ handler, Decidable (Harmless input s handler)
  | .writePlan planId body promotes _ => inferInstanceAs (Decidable (∀ plan ∈ getPlan s.db.plans planId,
    (body.enabled = some false → plan.isDefault = false ∧ ∀ team ∈ s.db.teams.rows, team.explicitQuotaPlanId ≠ some planId) ∧
      (promotes → (body.apply plan).enabled)))
  | .writeTeam _ (some planId) => inferInstanceAs (Decidable (∀ plan ∈ getPlan s.db.plans planId, plan.enabled))
  | .writeTeam _ none | .createPlan _ | .readPlan _ _ | .lockPlan _ _ _ | .readDefault _ _ | .lockDefault _ _ _ | .readTeam _ _
  | .readAssigned _ _ | .readGroup _ _ | .readReference _ _ | .writeGroup _ _ => isTrue trivial

/-- A plan that a handler is about to write or to assign is there: plans are never deleted. -/
def Present (s : Shared) : Handler → Prop
  | .readDefault planId _ | .lockDefault planId _ _ | .writePlan planId _ _ _ | .writeTeam _ (some planId) =>
    (getPlan s.db.plans planId).isSome
  | _ => True

/-! What the writes do to plans and teams. -/

section Writes
variable {db after : Database} {plans : Plans} {planId teamId : Uuid} {body : UpdateQuotaPlanRequest} {promotes : Bool}
  {demoted assigned : Option Uuid} {row : QuotaPlan} {k : Uuid}

theorem createPlan_eq_some {id : Uuid} {params : CreatePlanParams} (created : createPlan id db params = some after) :
    db.plans.insert ⟨id,params.code,params.name,params.description,false,true⟩ = some after.plans ∧ after.teams = db.teams := by
  unfold createPlan at created
  obtain ⟨plans,inserted,created⟩ := Option.bind_eq_some_iff.mp created
  obtain ⟨limits,_,created⟩ := Option.bind_eq_some_iff.mp created
  cases created
  exact ⟨inserted,rfl⟩

theorem updatePlan_eq_some (updated : updatePlan planId body db = some after) :
    db.plans.update planId body.apply (fun _ => rfl) = some after.plans ∧ after.teams = db.teams := by
  unfold updatePlan at updated
  obtain ⟨plans,written,updated⟩ := Option.bind_eq_some_iff.mp updated
  obtain ⟨limits,_,updated⟩ := Option.bind_eq_some_iff.mp updated
  cases updated
  exact ⟨written,rfl⟩

theorem find_setDefaultPlan {before : Plans} (set' : setDefaultPlan planId demoted before = some plans) (found : before.find k = some row) :
    ∃ next, plans.find k = some next ∧ next.enabled = row.enabled ∧ (k = planId → next.isDefault) := by
  unfold setDefaultPlan at set'
  obtain ⟨without,first,second⟩ := Option.bind_eq_some_iff.mp set'
  have between : ∃ middle, without.find k = some middle ∧ middle.enabled = row.enabled := by
    cases demoted with
    | none =>
      cases first
      exact ⟨row,found,rfl⟩
    | some old =>
      rw [Table.find_update first,found]
      split
      · exact ⟨_,rfl,rfl⟩
      · exact ⟨row,rfl,rfl⟩
  obtain ⟨middle,there,same⟩ := between
  rw [Table.find_update second,there]
  split
  · exact ⟨_,rfl,same,fun _ => rfl⟩
  · rename_i other
    exact ⟨middle,rfl,same,fun own => absurd own other⟩

theorem find_writtenPlan (written : writtenPlan planId body promotes demoted db = some after) (found : db.plans.find k = some row) :
    ∃ next, after.plans.find k = some next ∧ next.enabled = (if k = planId then body.apply row else row).enabled ∧
      (promotes = false → next.isDefault = row.isDefault) ∧ (promotes → k = planId → next.isDefault) := by
  unfold writtenPlan at written
  obtain ⟨updated,first,rest⟩ := Option.bind_eq_some_iff.mp written
  have plans := (updatePlan_eq_some first).1
  have changed : updated.plans.find k = some (if k = planId then body.apply row else row) := by
    rw [Table.find_update plans,found]
    split <;> rfl
  cases promotes with
  | false =>
    cases rest
    refine ⟨_,changed,rfl,fun _ => ?_,nofun⟩
    split <;> rfl
  | true =>
    obtain ⟨plans,set',rest⟩ := Option.bind_eq_some_iff.mp rest
    cases rest
    obtain ⟨next,there,enabled,isDefault⟩ := find_setDefaultPlan set' changed
    exact ⟨next,there,enabled,nofun,fun _ => isDefault⟩

theorem teams_writtenPlan (written : writtenPlan planId body promotes demoted db = some after) : after.teams = db.teams := by
  unfold writtenPlan at written
  obtain ⟨updated,first,rest⟩ := Option.bind_eq_some_iff.mp written
  rw [← (updatePlan_eq_some first).2]
  cases promotes with
  | false =>
    cases rest
    rfl
  | true =>
    obtain ⟨plans,_,rest⟩ := Option.bind_eq_some_iff.mp rest
    cases rest
    rfl

inductive Changes (s : Shared) : Handler → Database → Prop
  | same (handler : Handler) : Changes s handler s.db
  | created (params : CreatePlanParams) (after : Database) : createPlan s.drawn s.db params = some after → Changes s (.createPlan params) after
  | plan (planId : Uuid) (body : UpdateQuotaPlanRequest) (promotes : Bool) (demoted : Option Uuid) (after : Database) :
    writtenPlan planId body promotes demoted s.db = some after → Changes s (.writePlan planId body promotes demoted) after
  | team (teamId : Uuid) (planId : Option Uuid) (after : Database) :
    writtenTeam teamId planId s.db = some after → Changes s (.writeTeam teamId planId) after
  | group (groupId : Uuid) (planId : Option Uuid) (after : Database) :
    writtenGroup groupId planId s.db = some after → Changes s (.writeGroup groupId planId) after

variable {s : Shared} {handler : Handler} {input : Input}

theorem commit_changes {written : Option Database} (changes : ∀ after, written = some after → Changes s handler after) :
    Changes s handler (commit s handler written).1.db := by
  cases written with
  | none => exact .same handler
  | some after => exact changes after rfl

theorem advance_changes (input : Input) (s : Shared) (handler : Handler) : Changes s handler (advance input s handler).1.db := by
  unfold advance
  split
  · exact .same handler
  · cases handler with
    | createPlan params => exact commit_changes (.created params)
    | writePlan planId body promotes demoted =>
      simp only
      split
      · exact .same _
      · exact commit_changes (.plan planId body promotes demoted)
    | writeTeam teamId planId => exact commit_changes (.team teamId planId)
    | writeGroup groupId planId => exact commit_changes (.group groupId planId)
    | readPlan planId body =>
      simp only
      split
      · split <;> exact .same _
      · exact .same _
    | lockPlan planId body promotes =>
      simp only
      split
      · split
        · split <;> exact .same _
        · exact .same _
      · exact .same _
    | readDefault planId body =>
      simp only
      split <;> exact .same _
    | lockDefault planId body default =>
      simp only
      split
      · exact .same _
      · split <;> exact .same _
    | readTeam teamId planId =>
      simp only
      split
      · split <;> exact .same _
      · exact .same _
    | readAssigned teamId planId =>
      simp only
      split <;> exact .same _
    | readGroup groupId planId =>
      simp only
      split
      · split <;> exact .same _
      · exact .same _
    | readReference groupId planId =>
      simp only
      split <;> exact .same _

theorem Changes.present (changes : Changes s handler after) (there : (getPlan s.db.plans k).isSome) : (getPlan after.plans k).isSome := by
  obtain ⟨row,found⟩ := Option.isSome_iff_exists.mp there
  cases changes with
  | same => exact there
  | created params _ created =>
    unfold getPlan
    rw [Table.find_insert (createPlan_eq_some created).1]
    split
    · rfl
    · exact there
  | plan planId body promotes demoted _ written =>
    obtain ⟨next,there,_⟩ := find_writtenPlan written found
    exact Option.isSome_iff_exists.mpr ⟨next,there⟩
  | team teamId planId _ written =>
    obtain ⟨teams,_,rfl⟩ := Option.map_eq_some_iff.mp written
    exact there
  | group groupId planId _ written =>
    obtain ⟨groups,_,rfl⟩ := Option.map_eq_some_iff.mp written
    exact there

theorem enabled_apply (kept : body.enabled ≠ some false) (enabled : row.enabled) : (body.apply row).enabled := by
  unfold UpdateQuotaPlanRequest.apply
  cases given : body.enabled with
  | none => exact enabled
  | some value =>
    cases value with
    | true => rfl
    | false => exact absurd given kept

theorem enabled_writtenPlan (written : writtenPlan planId body promotes demoted db = some after) (found : db.plans.find k = some row)
    (enabled : row.enabled) (kept : k = planId → body.enabled ≠ some false) :
    ∃ next, after.plans.find k = some next ∧ next.enabled ∧ (promotes = false → next.isDefault = row.isDefault) := by
  obtain ⟨next,there,same,default,_⟩ := find_writtenPlan written found
  refine ⟨next,there,?_,default⟩
  rw [same]
  split
  · rename_i own
    exact enabled_apply (kept own) enabled
  · exact enabled

theorem Changes.sound (changes : Changes s handler after) (harmless : Harmless input s handler) (present : Present s handler)
    (sound : Sound s.db) : Sound after := by
  obtain ⟨plan,member,isDefault,enabled⟩ := sound.default
  cases changes with
  | same => exact sound
  | created params _ created =>
    obtain ⟨inserted,teams⟩ := createPlan_eq_some created
    constructor
    · refine ⟨plan,?_,isDefault,enabled⟩
      rw [Table.rows_insert inserted]
      exact List.mem_append_left _ member
    · intro team listed planId explicit
      rw [teams] at listed
      obtain ⟨assigned,found,usable⟩ := sound.assigned team listed planId explicit
      refine ⟨assigned,?_,usable⟩
      rw [Table.find_insert inserted,if_neg]
      · exact found
      · intro fresh
        have absent := Table.find_before_insert inserted
        rw [← fresh,found] at absent
        cases absent
  | plan planId body promotes demoted _ written =>
    constructor
    · cases promotes with
      | false =>
        have kept : plan.id = planId → body.enabled ≠ some false := by
          intro own disables
          have found : getPlan s.db.plans planId = some plan := own ▸ Table.find_of_mem member
          rw [((harmless plan found).1 disables).1] at isDefault
          cases isDefault
        obtain ⟨next,there,usable,same⟩ := enabled_writtenPlan written (Table.find_of_mem member) enabled kept
        exact ⟨next,Table.find_mem there,(same rfl).trans isDefault,usable⟩
      | true =>
        obtain ⟨row,found⟩ := Option.isSome_iff_exists.mp present
        obtain ⟨next,there,same,_,promoted⟩ := find_writtenPlan written found
        refine ⟨next,Table.find_mem there,promoted rfl rfl,?_⟩
        rw [same,if_pos rfl]
        exact (harmless row found).2 rfl
    · intro team listed k explicit
      rw [teams_writtenPlan written] at listed
      obtain ⟨assigned,found,usable⟩ := sound.assigned team listed k explicit
      have kept : k = planId → body.enabled ≠ some false := by
        intro own disables
        subst own
        exact ((harmless assigned found).1 disables).2 team listed explicit
      obtain ⟨next,there,usable,_⟩ := enabled_writtenPlan written found usable kept
      exact ⟨next,there,usable⟩
  | team teamId planId _ written =>
    obtain ⟨teams,updated,rfl⟩ := Option.map_eq_some_iff.mp written
    refine ⟨⟨plan,member,isDefault,enabled⟩,?_⟩
    intro team listed k explicit
    rw [Table.rows_update updated] at listed
    obtain ⟨old,inside,rfl⟩ := List.mem_map.mp listed
    by_cases own : old.id = teamId
    · rw [if_pos own] at explicit
      obtain rfl : planId = some k := explicit
      obtain ⟨row,found⟩ := Option.isSome_iff_exists.mp present
      exact ⟨row,found,harmless row found⟩
    · rw [if_neg own] at explicit
      exact sound.assigned old inside k explicit
  | group groupId planId _ written =>
    obtain ⟨groups,_,rfl⟩ := Option.map_eq_some_iff.mp written
    exact ⟨sound.default,sound.assigned⟩

theorem commit_ends {written : Option Database} {rest : Handler} (next : (commit s handler written).2 = some rest) : False := by
  cases written <;> cases next

theorem validate_present {answer : Unit} (valid : validatePlanReference plans planId = .ok answer) : (getPlan plans planId).isSome := by
  unfold validatePlanReference at valid
  cases found : getPlan plans planId with
  | some plan => rfl
  | none =>
    rw [found] at valid
    cases valid

theorem advance_present {rest : Handler} (present : Present s handler) (next : (advance input s handler).2 = some rest) :
    Present s rest := by
  unfold advance at next
  split at next
  · cases next
  · cases handler with
    | createPlan params => cases next
    | readPlan planId body =>
      simp only at next
      split at next
      · split at next
        · cases next
          trivial
        · cases next
      · cases next
    | lockPlan planId body promotes =>
      simp only at next
      split at next
      · rename_i row found
        have there : (getPlan s.db.plans planId).isSome := by rw [found]; rfl
        have either : Present s (if promotes then Handler.readDefault planId body else .writePlan planId body false none) := by
          split <;> exact there
        split at next
        · split at next
          · cases next
            trivial
          · cases next
            exact either
        · cases next
          exact either
      · cases next
    | readDefault planId body =>
      simp only at next
      split at next <;> cases next <;> exact present
    | lockDefault planId body default =>
      simp only at next
      split at next
      · cases next
        exact present
      · split at next <;> cases next <;> exact present
    | writePlan planId body promotes demoted =>
      simp only at next
      split at next
      · cases next
        exact present
      · exact (commit_ends next).elim
    | readTeam teamId planId =>
      simp only at next
      split at next
      · split at next <;> cases next <;> trivial
      · cases next
    | readAssigned teamId planId =>
      simp only at next
      split at next
      · rename_i valid
        cases next
        exact validate_present valid
      · cases next
    | writeTeam teamId planId => exact (commit_ends next).elim
    | readGroup groupId planId =>
      simp only at next
      split at next
      · split at next <;> cases next <;> trivial
      · cases next
    | readReference groupId planId =>
      simp only at next
      split at next <;> cases next
      trivial
    | writeGroup groupId planId => exact (commit_ends next).elim

theorem Changes.present_of {other : Handler} {s' : Shared} (changes : Changes s handler s'.db) (present : Present s other) :
    Present s' other := by
  cases other with
  | readDefault planId body => exact changes.present present
  | lockDefault planId body default => exact changes.present present
  | writePlan planId body promotes demoted => exact changes.present present
  | writeTeam teamId planId =>
    cases planId with
    | none => trivial
    | some planId => exact changes.present present
  | _ => trivial

end Writes

/-- From one enabled default plan and teams without an explicit plan on, in every run of which all commits are harmless,
every committed state has one default plan, it is enabled, and the quota of every team resolves. -/
theorem quota_resolution_never_fails (db : Database) (drawn : Uuid) (events : List (Event Request Input))
    (default : ∃ plan ∈ db.plans.rows, plan.isDefault ∧ plan.enabled) (inherits : ∀ team ∈ db.teams.rows, team.explicitQuotaPlanId = none)
    (harmless : Along machine.step (Acting Harmless) (idle db drawn) events) :
    Throughout machine.step (fun config => Resolves config.shared.db) (idle db drawn) events := by
  have first : Holds (fun s => Sound s.db) Present (idle db drawn) := by
    refine ⟨⟨default,?_⟩,?_⟩
    · intro team listed planId explicit
      rw [inherits team listed] at explicit
      cases explicit
    · intro _ member
      cases member
  refine throughout_of_invariant ?_ (fun config holds => holds.state.resolves) (idle db drawn) events first harmless
  intro config event holds meets
  refine Holds.step ?_ ?_ ?_ config event holds meets
  · intro s request _
    cases request <;> trivial
  · intro input s handler permitted sound present
    have changes := advance_changes input s handler
    exact ⟨changes.sound permitted present sound,fun rest next => changes.present_of (advance_present present next)⟩
  · intro input s handler other _ _ _ present
    exact (advance_changes input s handler).present_of present

def twoPlans : Database where
  plans := ⟨[⟨0,"free","Free",none,true,true⟩,⟨1,"pro","Pro",none,false,true⟩],by decide,by decide⟩
  limits := ∅
  teams := ⟨[⟨0,none,none,none⟩],by decide,by decide⟩
  groups := ∅

def resumed (indices : List Nat) : List (Event Request Input) := indices.map fun index => .resume index {}

def assignedThenDisabled : List (Event Request Input) :=
  [.arrive (.setQuotaPlan 0 (some 1))] ++ resumed [0,0,0] ++ [.arrive (.updatePlan 1 { enabled := some false })] ++ resumed [0,0,0]

/-- A plan is disabled and made the default by two requests that have both read it before. -/
def disabledWhilePromoted : List (Event Request Input) :=
  [.arrive (.updatePlan 1 { isDefault := some true }),.arrive (.updatePlan 1 { enabled := some false })] ++
    resumed [0,1,1,1,0,0,0,0]

theorem disabling_plan_breaks_resolution :
    ¬Throughout machine.step (fun config => Resolves config.shared.db) (idle twoPlans 2) assignedThenDisabled ∧
      ¬Throughout machine.step (fun config => Resolves config.shared.db) (idle twoPlans 2) disabledWhilePromoted := by
  constructor
  · intro throughout
    have every := throughout.last.every
    have broken : ∃ team ∈ (run machine.step (idle twoPlans 2) assignedThenDisabled).shared.db.teams.rows,
        (resolveTeamQuota (run machine.step (idle twoPlans 2) assignedThenDisabled).shared.db team).isOk = false := by
      decide
    obtain ⟨team,listed,fails⟩ := broken
    rw [every team listed] at fails
    cases fails
  · intro throughout
    have enabled := throughout.last.enabled
    have broken : ∃ plan ∈ (run machine.step (idle twoPlans 2) disabledWhilePromoted).shared.db.plans.rows,
        plan.isDefault ∧ plan.enabled = false := by
      decide +kernel
    obtain ⟨plan,listed,isDefault,disabled⟩ := broken
    rw [enabled plan listed isDefault] at disabled
    cases disabled

/-- The other plan becomes the default and is assigned, and then the old default is disabled. -/
theorem quota_resolution_after_promotion :
    Throughout machine.step (fun config => Resolves config.shared.db) (idle twoPlans 2)
      ([.arrive (.updatePlan 1 { isDefault := some true })] ++ resumed [0,0,0,0,0] ++ [.arrive (.setQuotaPlan 0 (some 1))] ++
        resumed [0,0,0] ++ [.arrive (.updatePlan 0 { enabled := some false })] ++ resumed [0,0,0]) ∧
    defaultPlan (run machine.step (idle twoPlans 2)
      ([.arrive (.updatePlan 1 { isDefault := some true })] ++ resumed [0,0,0,0,0] ++ [.arrive (.setQuotaPlan 0 (some 1))] ++
        resumed [0,0,0] ++ [.arrive (.updatePlan 0 { enabled := some false })] ++ resumed [0,0,0])).shared.db.plans =
      some ⟨1,"pro","Pro",none,true,true⟩ :=
  ⟨quota_resolution_never_fails twoPlans 2 _ (by decide) (by decide) (by decide),by decide⟩

end GrassWorker.QuotaPlans
