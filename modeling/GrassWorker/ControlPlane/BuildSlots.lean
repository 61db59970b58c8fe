import GrassWorker.ControlPlane.BuildStatus
import Mathlib.Algebra.Order.BigOperators.Group.List
import Mathlib.Algebra.Order.Group.Int
import Mathlib.Algebra.Order.Group.Nat

/-! The build slots of a team over whole runs. A team's counter is charged for
its running builds and for the slots that handlers in flight have acquired and
not yet given back; each deployment's slot is given back once. -/
namespace GrassWorker.ControlPlane
open Interleaving Runs Transaction Deployments

abbrev isRunning (status : BuildStatus) : Bool := Stage.cancellationReleasesBuildSlot status

/-- The number of a team's deployments whose build is Claimed, Queued or Building. -/
def runningBuilds (db : Database) (team : Uuid) : Nat :=
  (db.deployments.rows.filter fun row => row.teamId = team ∧ isRunning row.buildStatus).length

def buildPhase : BuildStatus → Nat
  | .pending => 0
  | .claimed | .queued | .building => 1
  | .ready | .failed | .canceled => 2

theorem buildPhase_le {source target : BuildStatus} (edge : canTransitionBuild source target) :
    buildPhase source ≤ buildPhase target := by
  cases source <;> cases target <;> first | decide | cases edge

/-! What a handler in flight owes. -/

def Handler.slots (team : Uuid) : Handler → Int
  | .claimTimeout _ candidate _ | .commit (.claim _ candidate) _ => if candidate.teamId = team then 1 else 0
  | .claimRelease _ owner _ | .releaseSlot owner _ | .releaseMark owner _ _ => if owner = team then 1 else 0
  | .cancelFlag deployment => if deployment.teamId = team then 1 else 0
  | _ => 0

def Handler.releases (id : Uuid) : Handler → Nat
  | .releaseMark _ deployment _ => if deployment = id then 1 else 0
  | .cancelFlag deployment => if deployment.id = id then 1 else 0
  | _ => 0

def Handler.indebted : Handler → Bool
  | .claimTimeout .. | .commit (.claim ..) _ | .claimRelease .. | .releaseSlot .. | .releaseMark ..
  | .cancelFlag .. => true
  | _ => false

theorem Handler.slots_nonneg (team : Uuid) (handler : Handler) : 0 ≤ handler.slots team := by
  unfold Handler.slots
  split <;> first | exact le_refl _ | (split <;> decide)

section Free
variable {handler : Handler}

theorem Handler.slots_of_free (free : handler.indebted = false) (team : Uuid) : handler.slots team = 0 := by
  cases handler with
  | commit action others => cases action <;> first | rfl | cases free
  | _ => first | rfl | cases free

theorem Handler.releases_of_free (free : handler.indebted = false) (id : Uuid) : handler.releases id = 0 := by
  cases handler with
  | _ => first | rfl | cases free

def Progress.free : Progress → Bool
  | .resume handler => !handler.indebted
  | .respond _ => true

variable {progress : Progress}

theorem rest_slots_of_free (free : progress.free) (team : Uuid) : rest (Handler.slots team) progress.handler = 0 := by
  cases progress with
  | respond answer => rfl
  | resume handler => exact Handler.slots_of_free (by simpa [Progress.free] using free) team

theorem rest_releases_of_free (free : progress.free) (id : Uuid) :
    rest (Handler.releases id) progress.handler = 0 := by
  cases progress with
  | respond answer => rfl
  | resume handler => exact Handler.releases_of_free (by simpa [Progress.free] using free) id

theorem free_read {input : Input} (free : progress.free) : (read input progress).free := by
  unfold read
  split
  · rfl
  · exact free

theorem free_permitted {input : Input} (free : progress.free) : (permitted input progress).free := by
  unfold permitted
  split
  · rfl
  · exact free

theorem free_ofAnswer {α : Type} {answer : Except AppError α} {next : α → Progress}
    (free : ∀ value, (next value).free) : (ofAnswer answer next).free := by
  cases answer with
  | ok value => exact free value
  | error error => rfl

private theorem free_begin (db : Database) (call : Request) : (begin db call).free := by
  cases call with
  | node node call =>
    refine free_ofAnswer ?_
    intro node
    cases call <;> rfl
  | project project call =>
    refine free_ofAnswer ?_
    rintro ⟨project,team⟩
    cases call with
    | create => exact free_ofAnswer fun _ => rfl
    | bindHost =>
      simp only [callProject]
      split <;> rfl
    | _ => rfl
  | rollback | createSource =>
    simp only [begin]
    split <;> rfl
  | createProject =>
    simp only [begin]
    split
    · rfl
    · rfl
    · split <;> rfl
  | cancelStream => rfl
  | direct action =>
    obtain ⟨action,direct⟩ := action
    cases action <;> first | rfl | cases direct

private theorem free_stageAction (owned : Stage.OwnedDeployment) (body : Stage.StageRequest) :
    (proceed (stageAction owned body)).free := by
  unfold stageAction
  split <;> rfl

private theorem free_refused (request : Hosts.BindHostRequest) (attempt : Option Nat) (error : AppError) :
    (refused request attempt error).free := by
  unfold refused retryAssignment
  split
  · rfl
  · split
    · split <;> rfl
    · rfl

private theorem free_bindFree (db : Database) (request : Hosts.BindHostRequest) (attempt : Option Nat) :
    (bindFree db request attempt).free := by
  unfold bindFree
  split
  · exact free_refused _ _ _
  · rfl

end Free

/-! What a deployment is charged for. -/

def chargeOf (team owner : Uuid) (status : BuildStatus) : Int := if owner = team ∧ isRunning status then 1 else 0

def charge (team : Uuid) (row : Deployment) : Int := chargeOf team row.teamId row.buildStatus

def endedOf (status : BuildStatus) : Nat := if Stage.isTerminal status then 1 else 0

def ended (db : Database) (id : Uuid) : Nat := ((db.deployments.find id).map fun row => endedOf row.buildStatus).getD 0

def marked (cache : Cache) (id : Uuid) : Nat := if cache.ownsRelease id then 0 else 1

theorem runningBuilds_eq (db : Database) (team : Uuid) :
    (runningBuilds db team : Int) = db.deployments.total (charge team) := by
  unfold runningBuilds Table.total
  induction db.deployments.rows with
  | nil => rfl
  | cons row rows ih =>
    by_cases counted : row.teamId = team ∧ isRunning row.buildStatus
    · rw [List.filter_cons_of_pos (by simpa using counted),List.map_cons,List.sum_cons,← ih]
      simp [charge,chargeOf,counted,add_comm]
    · rw [List.filter_cons_of_neg (by simpa using counted),List.map_cons,List.sum_cons,← ih]
      simp [charge,chargeOf,counted]

theorem endedOf_mono {source target : BuildStatus} (later : buildPhase source ≤ buildPhase target) :
    endedOf source ≤ endedOf target := by
  cases source <;> cases target <;> first | decide | simp [buildPhase] at later

theorem Advances.ended {db after : Database} (advances : Advances buildPhase db after) (id : Uuid) :
    ended db id ≤ ended after id := by
  unfold ControlPlane.ended
  cases found : db.deployments.find id with
  | none => simp
  | some row =>
    obtain ⟨next,reached,_,later⟩ := advances id row found
    rw [reached]
    exact endedOf_mono later

/-- A Queued or Building report that would reopen an ended build, a cancellation that is
mistaken about whether the build runs, or a failure at creation of a build that was claimed. -/
def strays (db : Database) : Action → Bool
  | .report owned status _ =>
    (status = .queued || status = .building) && canTransitionBuild owned.row.buildStatus status.target &&
      (db.deployments.find owned.row.id).any fun row => Stage.isTerminal row.buildStatus
  | .cancel deployment _ => (db.deployments.find deployment.id).any fun row =>
      canTransitionBuild row.buildStatus .canceled && (isRunning deployment.buildStatus != isRunning row.buildStatus)
  | .failUnimplemented deployment => (db.deployments.find deployment.id).any fun row => isRunning row.buildStatus
  | _ => false

def refreshes (cache : Cache) : Handler → Bool
  | .stageRefresh owned _ value => (cache (.slot owned.row.teamId)).all (· = value)
  | _ => true

def SlotsKept (input : Input) (world : World) (handler : Handler) : Prop :=
  input.cacheFails = false ∧ refreshes world.cache handler ∧ Avoids strays input world handler

instance (input : Input) (world : World) (handler : Handler) : Decidable (SlotsKept input world handler) :=
  inferInstanceAs (Decidable (_ ∧ _ ∧ _))

def Builders (db : Database) : Prop :=
  ∀ row ∈ db.deployments.rows, row.buildNodeId.isSome → row.buildStatus ≠ .pending

section Steps
variable {mode : Option ReviewMode} {lifecycle next : Lifecycle} {action : Action} {reply : Reply}
  {others : List Deployment} {owner : Uuid}

theorem Step.builder (step : Step mode lifecycle action reply next) :
    next.builder = lifecycle.builder ∨ next.build = .claimed := by
  cases step with
  | claimed waiting => exact .inr rfl
  | released requested | approved _ _ requested | republished _ _ requested | republishedRejected _ _ _ requested =>
    left
    cases requested <;> rfl
  | _ => exact .inl rfl

theorem chargeOf_running {team : Uuid} {status : BuildStatus} (running : isRunning status) :
    chargeOf team owner status = if owner = team then 1 else 0 := by
  simp [chargeOf,running]

theorem chargeOf_idle {team : Uuid} {status : BuildStatus} (idle : isRunning status = false) :
    chargeOf team owner status = 0 := by
  simp [chargeOf,idle]

private theorem running_of_edge {source target : BuildStatus} (edge : canTransitionBuild source target)
    (started : source ≠ .pending) : isRunning source := by
  cases source <;> cases target <;> first | decide | exact absurd rfl started | cases edge

private theorem running_of_open {status : BuildStatus} (started : status ≠ .pending)
    (unfinished : ¬Stage.isTerminal status) : isRunning status := by
  cases status <;> first | decide | exact absurd rfl started | exact absurd rfl unfinished

theorem Step.slots (step : Step mode lifecycle action reply next) (others : List Deployment) (owner team : Uuid)
    (owned : ∀ row, action.row = some row → row.teamId = owner)
    (started : ∀ owned status body, action = .report owned status body → lifecycle.build ≠ .pending)
    (unfinished : Unchecked lifecycle.build action next.build → ¬Stage.isTerminal lifecycle.build)
    (known : ∀ deployment actor, action = .cancel deployment actor → canTransitionBuild lifecycle.build .canceled →
      isRunning deployment.buildStatus = isRunning lifecycle.build)
    (unclaimed : ∀ deployment, action = .failUnimplemented deployment → isRunning lifecycle.build = false) :
    chargeOf team owner next.build + rest (Handler.slots team) (afterCommit others action reply).handler =
      chargeOf team owner lifecycle.build + (Handler.commit action others).slots team := by
  cases step with
  | @advanced report status body early edge =>
    have target : isRunning status.target := by rcases early with rfl | rfl <;> rfl
    have running := running_of_open (started report status body rfl) (unfinished (.report early edge))
    rw [chargeOf_running target,chargeOf_running running]
    rfl
  | @ended report status body terminal edge =>
    have target : isRunning status.target = false := by rcases terminal with rfl | rfl <;> rfl
    have running := running_of_edge edge (started report status body rfl)
    have same : report.row.teamId = owner := owned report.row rfl
    rw [chargeOf_idle target,chargeOf_running running,← same,add_comm]
    rfl
  | @finished report body release edge reviewed =>
    by_cases built : lifecycle.build = .ready
    · rw [chargeOf_idle rfl,chargeOf_idle (by rw [built]; rfl)]
      simp [built,afterCommit,Progress.handler,Handler.slots]
    · have running := running_of_edge (edge built) (started report .ready body rfl)
      have same : report.row.teamId = owner := owned report.row rfl
      rw [chargeOf_idle rfl,chargeOf_running running,← same]
      simp [built,afterCommit,Progress.handler,Handler.slots]
  | @canceled deployment actor edge =>
    have same : deployment.teamId = owner := owned deployment rfl
    have agrees := known deployment actor rfl edge
    rw [chargeOf_idle rfl,← same]
    cases running : isRunning deployment.buildStatus with
    | true =>
      rw [chargeOf_running (agrees.symm.trans running)]
      simp [running,afterCommit,Progress.handler,Handler.slots]
    | false =>
      rw [chargeOf_idle (agrees.symm.trans running)]
      simp [running,afterCommit,Progress.handler,Handler.slots]
  | @claimed node candidate waiting =>
    have same : candidate.teamId = owner := owned candidate rfl
    rw [chargeOf_running rfl,chargeOf_idle (by rw [waiting]; rfl),← same,add_comm]
    rfl
  | @unclaimed node candidate outcome lost =>
    cases outcome with
    | claimed => exact absurd rfl lost
    | nodeGone | lost => rfl
  | @failed deployment unimplemented edge =>
    rw [chargeOf_idle rfl,chargeOf_idle (unclaimed deployment rfl)]
    rfl
  | released requested | approved _ _ requested | republished _ _ requested | republishedRejected _ _ _ requested =>
    rw [requested.build]
    rfl
  | _ => rfl

theorem Step.releases (step : Step mode lifecycle action reply next) (others : List Deployment) (id : Uuid) :
    rest (Handler.releases id) (afterCommit others action reply).handler ≤
      if action.target = some id then endedOf next.build - endedOf lifecycle.build else 0 := by
  cases step with
  | @ended report status body terminal edge =>
    have target : endedOf status.target = 1 := by rcases terminal with rfl | rfl <;> rfl
    have source : endedOf lifecycle.build = 0 := if_neg (terminal_of_edge edge)
    simp only [afterCommit,Progress.handler,rest_some,Handler.releases,Action.target,Option.some.injEq,target,source]
    split <;> decide
  | @finished report body release edge reviewed =>
    by_cases built : lifecycle.build = .ready
    · simp [built,afterCommit,Progress.handler]
    · have source : endedOf lifecycle.build = 0 := if_neg (terminal_of_edge (edge built))
      have target : endedOf .ready = 1 := rfl
      simp only [built,ne_eq,not_false_eq_true,decide_true,afterCommit,Progress.handler,rest_some,Handler.releases,
        Action.target,Option.some.injEq,source,target]
      split <;> decide
  | @canceled deployment actor edge =>
    have source : endedOf lifecycle.build = 0 := if_neg (terminal_of_edge edge)
    simp only [afterCommit,Action.target,Option.some.injEq,source]
    split
    · simp only [Progress.handler,rest_some,Handler.releases]
      split <;> decide
    · exact Nat.zero_le _
  | @unclaimed node candidate outcome lost =>
    cases outcome with
    | claimed => exact absurd rfl lost
    | nodeGone | lost => exact Nat.zero_le _
  | _ => exact Nat.zero_le _

end Steps

structure Traced (db : Database) (row : Deployment) : Prop where
  behind : Behind buildPhase db row
  built : row.buildNodeId.isSome → row.buildStatus ≠ .pending

section Commits
variable {input : Input} {world : World} {handler : Handler} {action : Action} {reply : Reply}
  {demoted : Option Uuid} {after : Database}

theorem target_of_row {row : Deployment} (prepared : action.row = some row) : action.target = some row.id := by
  cases action <;> cases prepared <;> rfl

theorem traced_target (traced : ∀ row ∈ handler.rows, Traced world.db row) (acts : handler.action = some action)
    {id : Uuid} {row read : Deployment} (found : world.db.deployments.find id = some row)
    (aimed : action.target = some id) (prepared : action.row = some read) :
    read.id = id ∧ row.identity = read.identity ∧ buildPhase read.buildStatus ≤ buildPhase row.buildStatus := by
  obtain ⟨now,current,identity,later⟩ := (traced read (row_mem acts prepared)).behind.follows
  have same : read.id = id := Option.some.inj ((target_of_row prepared).symm.trans aimed)
  rw [same,found] at current
  cases current
  exact ⟨same,identity,later⟩

theorem unfinished (kept : SlotsKept input world handler) (commit : Commit input world.db handler action reply after)
    {row : Deployment} {target : BuildStatus} {id : Uuid} (found : world.db.deployments.find id = some row)
    (aimed : action.target = some id) (unchecked : Unchecked row.buildStatus action target) :
    ¬Stage.isTerminal row.buildStatus := by
  have permitted := kept.2.2.commit commit
  cases unchecked with
  | @report owned status body early edge =>
    obtain rfl : owned.row.id = id := Option.some.inj aimed
    simpa [strays,early,edge,found] using permitted

theorem advances_phase (kept : SlotsKept input world handler)
    (commit : Commit input world.db handler action reply after)
    (effect : Effect input.instant action reply demoted world.db after) : Advances buildPhase world.db after := by
  intro id row found
  obtain ⟨next,reached,identity,mid,changes,settles⟩ := effect.rows.kept id row found
  refine ⟨next,reached,identity,?_⟩
  have settled : next.buildStatus = mid.build := settles.build
  rw [settled]
  rcases changes.build with same | ⟨aimed,edge | unchecked⟩
  · rw [same]
    exact le_refl _
  · exact buildPhase_le edge
  · have key : row.id = id := Table.find_key found
    have still := unfinished kept commit found (aimed.trans (congrArg some key)) unchecked
    generalize mid.build = target at unchecked
    cases unchecked with
    | @report owned status body early edge =>
      have running : buildPhase status.target = 1 := by rcases early with rfl | rfl <;> rfl
      rw [running]
      cases source : row.buildStatus <;> rw [source] at still <;> first | decide | exact absurd rfl still

theorem builders_kept (builders : Builders world.db) (advances : Advances buildPhase world.db after)
    (effect : Effect input.instant action reply demoted world.db after) : Builders after := by
  intro next member built
  rcases effect.rows.origin (Table.find_of_mem member) with ⟨row,found,_,mid,changes,settles⟩ | ⟨_,born⟩
  · obtain ⟨last,reached,_,later⟩ := advances next.id row found
    rw [Table.find_of_mem member] at reached
    cases reached
    have kept : next.buildNodeId = mid.builder := by
      rcases settles with same | ⟨_,_,same⟩
      · exact congrArg Lifecycle.builder same
      · exact congrArg Lifecycle.builder same
    have settled : next.buildStatus = mid.build := settles.build
    have source : mid.builder = row.buildNodeId ∨ mid.build = .claimed := by
      unfold Changes at changes
      split at changes
      · exact changes.builder
      · split at changes
        · left
          rw [changes]
          rfl
        · left
          rw [changes]
          rfl
    rcases source with same | claimed
    · have waited := builders row (Table.find_mem found) (by rwa [← same,← kept])
      intro pending
      rw [pending] at later
      cases status : row.buildStatus <;> rw [status] at later waited <;>
        first | exact absurd rfl waited | simp [buildPhase] at later
    · rw [settled,claimed]
      decide
  · obtain ⟨params,selectedNode,region,placement,_,rfl,_⟩ := born
    cases built

structure Accounts (input : Input) (world : World) (handler : Handler) : Prop where
  slots : ∀ team, (advance input world handler).1.cache.counter team + world.db.deployments.total (charge team) +
      handler.slots team =
    (advance input world handler).1.db.deployments.total (charge team) + world.cache.counter team +
      rest (Handler.slots team) (advance input world handler).2.handler
  releases : ∀ id, rest (Handler.releases id) (advance input world handler).2.handler +
      marked (advance input world handler).1.cache id + ended world.db id ≤
    handler.releases id + marked world.cache id + ended (advance input world handler).1.db id

theorem charge_other {team : Uuid} {row next : Deployment} (other : action.target ≠ some row.id)
    (becomes : next.identity = row.identity ∧ ∃ mid,
      Changes action reply demoted (modeOf world.db row.identity) row.id row.lifecycle mid ∧ Settles mid next.lifecycle) :
    charge team next = charge team row := by
  obtain ⟨identity,mid,changes,settles⟩ := becomes
  have status : next.buildStatus = row.buildStatus := by
    rcases changes.build with same | ⟨aimed,_⟩
    · exact settles.build.trans same
    · exact absurd aimed other
  have owner : next.teamId = row.teamId := congrArg Identity.team identity
  unfold charge
  rw [status,owner]

theorem charge_born {instant : Instant} {row : Deployment} {team : Uuid} (born : Born instant action reply row) :
    charge team row = 0 := by
  obtain ⟨params,selectedNode,region,placement,_,rfl,_⟩ := born
  exact chargeOf_idle rfl

theorem rest_afterCommit_of_none (others : List Deployment)
    (effect : Effect input.instant action reply demoted world.db after)
    (missing : ∀ id, action.target = some id → world.db.deployments.find id = none) (team id : Uuid) :
    rest (Handler.slots team) (afterCommit others action reply).handler = (Handler.commit action others).slots team ∧
      rest (Handler.releases id) (afterCommit others action reply).handler = 0 := by
  have unlocated (target : Uuid) (located : action.located reply = some target) : False := by
    obtain ⟨row,found⟩ := effect.located target located
    rw [missing target (located_target located)] at found
    cases found
  cases action with
  | report owned status body => exact (unlocated owned.row.id rfl).elim
  | cancel deployment actor => exact (unlocated deployment.id rfl).elim
  | claim node candidate =>
    cases reply with
    | claim outcome =>
      cases outcome with
      | claimed => exact (unlocated candidate.id rfl).elim
      | nodeGone | lost => exact ⟨rfl,rfl⟩
    | _ => exact ⟨rfl,rfl⟩
  | create params selectedNode region =>
    cases reply with
    | created deployment =>
      simp only [afterCommit]
      split <;> exact ⟨rfl,rfl⟩
    | _ => exact ⟨rfl,rfl⟩
  | createProject => cases reply <;> exact ⟨rfl,rfl⟩
  | _ => exact ⟨rfl,rfl⟩

theorem accounts_commit {others : List Deployment} (kept : SlotsKept input world (.commit action others))
    (traced : ∀ row ∈ (Handler.commit action others).rows, Traced world.db row)
    (commit : Commit input world.db (.commit action others) action reply after)
    (effect : Effect input.instant action reply demoted world.db after) (team id : Uuid) :
    after.deployments.total (charge team) + rest (Handler.slots team) (afterCommit others action reply).handler =
        world.db.deployments.total (charge team) + (Handler.commit action others).slots team ∧
      rest (Handler.releases id) (afterCommit others action reply).handler + ended world.db id ≤ ended after id := by
  have later := (advances_phase kept commit effect).ended id
  by_cases present : ∃ target row, action.target = some target ∧ world.db.deployments.find target = some row
  · obtain ⟨target,row,aimed,found⟩ := present
    have key : row.id = target := Table.find_key found
    obtain ⟨next,reached,identity,mid,changes,settles⟩ := effect.rows.kept target row found
    have step : Step (modeOf world.db row.identity) row.lifecycle action reply mid := by
      rwa [Changes,if_pos (aimed.trans (congrArg some key.symm))] at changes
    have settled : next.buildStatus = mid.build := settles.build
    have owner : next.teamId = row.teamId := congrArg Identity.team identity
    have permitted := kept.2.2.commit commit
    constructor
    · have total := effect.rows.total_one (f := charge team) found reached
        (fun old _ new other becomes => charge_other (fun same => other (Option.some.inj (aimed.symm.trans same)).symm) becomes)
        (fun new born => charge_born born)
      have balance := step.slots others row.teamId team
        (by
          intro read prepared
          exact (congrArg Identity.team (traced_target traced commit.acts found aimed prepared).2.1).symm)
        (by
          rintro owned status body rfl
          have read := traced_target traced commit.acts found aimed rfl
          have built := (traced owned.row (row_mem commit.acts rfl)).built (by rw [owned.builds]; rfl)
          intro pending
          have status : row.buildStatus = .pending := pending
          rw [status] at read
          cases earlier : owned.row.buildStatus <;> simp [earlier,buildPhase] at read built)
        (fun unchecked => unfinished kept commit found aimed unchecked)
        (by
          rintro deployment actor rfl edge
          obtain rfl : deployment.id = target := Option.some.inj aimed
          have edge : canTransitionBuild row.buildStatus .canceled = true := edge
          have agrees : isRunning deployment.buildStatus = isRunning row.buildStatus := by
            simpa [strays,found,edge] using permitted
          exact agrees)
        (by
          rintro deployment rfl
          obtain rfl : deployment.id = target := Option.some.inj aimed
          have idle : isRunning row.buildStatus = false := by simpa [strays,found] using permitted
          exact idle)
      have charged : charge team next = chargeOf team row.teamId mid.build := by
        unfold charge
        rw [owner,settled]
      rw [charged] at total
      change _ + chargeOf team row.teamId row.lifecycle.build = _ at total
      omega
    · have decided := step.releases others id
      split at decided
      · rename_i same
        obtain rfl : target = id := Option.some.inj (aimed.symm.trans same)
        have before : ended world.db target = endedOf row.lifecycle.build := by
          unfold ended
          rw [found]
          rfl
        have now : ended after target = endedOf mid.build := by
          unfold ended
          rw [reached,Option.map_some,settled]
          rfl
        omega
      · omega
  · have missing (target : Uuid) (aimed : action.target = some target) : world.db.deployments.find target = none := by
      cases found : world.db.deployments.find target with
      | none => rfl
      | some row => exact absurd ⟨target,row,aimed,found⟩ present
    obtain ⟨same,none⟩ := rest_afterCommit_of_none others effect missing team id
    have total := effect.rows.total_eq (f := charge team)
      (fun old member new becomes => charge_other
        (fun aimed => present ⟨old.id,old,aimed,Table.find_of_mem member⟩) becomes)
      (fun new born => charge_born born)
    rw [same,none,total]
    exact ⟨rfl,by omega⟩

theorem accounts_of_free (same : (advance input world handler).1 = world) (free : (advance input world handler).2.free)
    (owes : handler.indebted = false) : Accounts input world handler where
  slots team := by
    rw [same,rest_slots_of_free free,Handler.slots_of_free owes]
    omega
  releases id := by
    rw [same,rest_releases_of_free free,Handler.releases_of_free owes]

private theorem rest_afterFailure (error : AppError) (others : List Deployment) (team id : Uuid) :
    rest (Handler.slots team) (afterFailure error action).handler = (Handler.commit action others).slots team ∧
      rest (Handler.releases id) (afterFailure error action).handler = 0 := by
  cases action <;> exact ⟨rfl,rfl⟩

private theorem accounts_of_commit {others : List Deployment} (kept : SlotsKept input world (.commit action others))
    (traced : ∀ row ∈ (Handler.commit action others).rows, Traced world.db row) :
    Accounts input world (.commit action others) := by
  cases result : transact input action world.db with
  | error error =>
    constructor
    · intro team
      simp only [advance,result,committed,commitProgress]
      rw [(rest_afterFailure error others team 0).1]
      omega
    · intro id
      simp only [advance,result,committed,commitProgress]
      rw [(rest_afterFailure error others 0 id).2]
      omega
  | ok outcome =>
    obtain ⟨reply,after⟩ := outcome
    have commit : Commit input world.db (.commit action others) action reply after := ⟨rfl,result⟩
    obtain ⟨demoted,effect⟩ := commit.effect
    constructor
    · intro team
      have balance := (accounts_commit kept traced commit effect team 0).1
      simp only [advance,result,committed,commitProgress]
      omega
    · intro id
      have balance := (accounts_commit kept traced commit effect 0 id).2
      simp only [advance,result,committed,commitProgress]
      have alone : (Handler.commit action others).releases id = 0 := rfl
      omega

private theorem accounts_of_bind {request : Hosts.BindHostRequest} {attempt : Option Nat}
    (kept : SlotsKept input world (.bindCommit request attempt)) :
    Accounts input world (.bindCommit request attempt) := by
  have free : (advance input world (.bindCommit request attempt)).2.free := by
    simp only [advance]
    unfold afterBind
    split
    · unfold bindingOutcome
      split <;> rfl
    · rfl
    · exact free_refused _ _ _
  cases result : transact input (.createBinding request) world.db with
  | error error =>
    refine accounts_of_free ?_ free rfl
    simp only [advance,result,committed]
  | ok outcome =>
    obtain ⟨reply,after⟩ := outcome
    have commit : Commit input world.db (.bindCommit request attempt) (.createBinding request) reply after :=
      ⟨rfl,result⟩
    obtain ⟨demoted,effect⟩ := commit.effect
    have moved : (advance input world (.bindCommit request attempt)).1 = { world with db := after } := by
      simp only [advance,result,committed]
    constructor
    · intro team
      have total := effect.rows.total_eq (f := charge team)
        (fun old _ new becomes => charge_other (by simp [Action.target]) becomes) (fun new born => charge_born born)
      have owes : (Handler.bindCommit request attempt).slots team = 0 := rfl
      rw [moved,rest_slots_of_free free,total,owes,add_zero,add_zero,add_comm]
    · intro id
      have later := (advances_phase kept commit effect).ended id
      rw [moved,rest_releases_of_free free]
      have owes : (Handler.bindCommit request attempt).releases id = 0 := rfl
      simp only
      omega

private theorem counter_updateIfPresent {cache : Cache} {owner : Uuid} {value : Int} (team : Uuid)
    (current : (cache (.slot owner)).all (· = value)) :
    (cache.updateIfPresent (.slot owner) value).counter team = cache.counter team := by
  unfold Cache.updateIfPresent
  cases found : cache (.slot owner) with
  | none => rfl
  | some count =>
    obtain rfl : count = value := by simpa [found] using current
    by_cases same : team = owner <;> simp [Cache.counter,Cache.set,same,found]

private theorem marked_set {cache : Cache} {key : CacheKey} {value : Option Int} (id : Uuid)
    (other : key ≠ .slotReleased id) : marked (cache.set key value) id = marked cache id := by
  unfold marked Cache.ownsRelease
  rw [Cache.set_other _ _ (Ne.symm other)]

private theorem marked_updateIfPresent {cache : Cache} {owner : Uuid} {value : Int} (id : Uuid) :
    marked (cache.updateIfPresent (.slot owner) value) id = marked cache id := by
  unfold Cache.updateIfPresent
  split
  · exact marked_set id (by simp)
  · rfl

private theorem accounts_of_release {owner : Uuid} {progress : Progress}
    (goes : advance input world handler = ({ world with cache := world.cache.releaseSlot owner },progress))
    (free : progress.free) (owes : ∀ team, handler.slots team = if owner = team then 1 else 0)
    (decided : ∀ id, handler.releases id = 0) (covered : handler.slots owner ≤ world.cache.counter owner) :
    Accounts input world handler where
  slots team := by
    rw [goes,rest_slots_of_free free,owes]
    rw [owes,if_pos rfl] at covered
    by_cases same : team = owner
    · subst same
      simp only [Cache.counter_releaseSlot,if_true]
      omega
    · simp only [Cache.counter_releaseSlot,if_neg same,if_neg (Ne.symm same)]
      omega
  releases id := by
    rw [goes,rest_releases_of_free free,decided]
    unfold Cache.releaseSlot
    rw [marked_set id (by simp)]

theorem accounts (kept : SlotsKept input world handler) (traced : ∀ row ∈ handler.rows, Traced world.db row)
    (covered : ∀ team, handler.slots team ≤ world.cache.counter team)
    (once : ∀ id, handler.releases id + marked world.cache id ≤ 1) : Accounts input world handler := by
  have works : input.cacheFails = false := kept.1
  cases handler with
  | arrived call => exact accounts_of_free rfl (free_read (free_permitted (free_begin _ _))) rfl
  | commit action others => exact accounts_of_commit kept traced
  | stageRead node deployment body => exact accounts_of_free rfl (free_read (free_ofAnswer fun _ => rfl)) rfl
  | stageFlag owned body =>
    refine accounts_of_free rfl ?_ rfl
    simp only [advance,stageFlag]
    split
    · split <;> rfl
    · rfl
  | stageAcknowledge deployment =>
    constructor
    · intro team
      have owes : (Handler.stageAcknowledge deployment).slots team = 0 := rfl
      simp [advance,works,Progress.handler,owes,add_comm]
    · intro id
      simp only [advance,works]
      rw [if_neg (by decide),marked_set id (by simp)]
      exact le_refl _
  | stageSlot owned body =>
    refine accounts_of_free rfl ?_ rfl
    simp only [advance,stageSlot]
    split
    · rfl
    · exact free_stageAction _ _
  | stageRefresh owned body value =>
    have free : (advance input world (.stageRefresh owned body value)).2.free := free_stageAction _ _
    constructor
    · intro team
      rw [rest_slots_of_free free,Handler.slots_of_free rfl]
      simp only [advance,works]
      rw [if_neg (by decide),counter_updateIfPresent team kept.2.1,add_zero,add_zero,add_comm]
    · intro id
      rw [rest_releases_of_free free,Handler.releases_of_free rfl]
      simp only [advance,works]
      rw [if_neg (by decide),marked_updateIfPresent]
  | cancelRead project deployment actor =>
    refine accounts_of_free rfl (free_read ?_) rfl
    unfold cancelRead
    split <;> rfl
  | cancelFlag deployment =>
    constructor
    · intro team
      simp [advance,works,Progress.handler,Handler.slots]
      omega
    · intro id
      simp only [advance,works]
      rw [if_neg (by decide),marked_set id (by simp)]
      exact le_refl _
  | releaseMark owner deployment answer =>
    have free : marked world.cache deployment = 0 := by
      have single := once deployment
      simp only [Handler.releases,if_true] at single
      omega
    have owns : world.cache.ownsRelease deployment := by
      unfold marked at free
      split at free
      · assumption
      · cases free
    have goes : advance input world (.releaseMark owner deployment answer) =
        ({ world with cache := world.cache.markReleased deployment },.resume (.releaseSlot owner answer)) := by
      simp [advance,works,owns]
    constructor
    · intro team
      rw [goes]
      simp only [Cache.counter_markReleased,Progress.handler,rest_some,Handler.slots]
      omega
    · intro id
      rw [goes]
      simp only [Progress.handler,rest_some,Handler.releases]
      by_cases same : deployment = id
      · subst same
        rw [if_pos rfl,free]
        simp [marked,Cache.ownsRelease,Cache.markReleased]
      · rw [if_neg same]
        unfold Cache.markReleased
        rw [marked_set id (by simpa using same)]
  | releaseSlot owner answer =>
    have goes : advance input world (.releaseSlot owner answer) =
        ({ world with cache := world.cache.releaseSlot owner },.respond answer) := by
      simp [advance,works]
    exact accounts_of_release goes rfl (fun _ => rfl) (fun _ => rfl) (covered owner)
  | claimRead node capacity =>
    refine accounts_of_free rfl (free_read ?_) rfl
    unfold claimRead
    split
    · rfl
    · split <;> rfl
  | claimNext node candidates =>
    refine accounts_of_free rfl (free_read ?_) rfl
    cases candidates with
    | nil => rfl
    | cons candidate others => exact free_ofAnswer fun _ => rfl
  | claimLimit node candidate others => exact accounts_of_free rfl (free_read rfl) rfl
  | claimAcquire node candidate others max =>
    by_cases may : world.cache.mayAcquire candidate.teamId max
    · have goes : advance input world (.claimAcquire node candidate others max) =
          ({ world with cache := world.cache.acquireSlot candidate.teamId },
            .resume (.claimTimeout node candidate others)) := by
        simp [advance,works,may]
      constructor
      · intro team
        rw [goes]
        have owes : (Handler.claimAcquire node candidate others max).slots team = 0 := rfl
        simp only [Cache.counter_acquireSlot,Progress.handler,rest_some,Handler.slots,eq_comm]
        omega
      · intro id
        rw [goes]
        unfold Cache.acquireSlot
        simp only
        rw [marked_set id (by simp)]
        exact le_refl _
    · have goes : advance input world (.claimAcquire node candidate others max) =
          (world,.resume (.claimNext node others)) := by
        simp [advance,works,may]
      exact accounts_of_free (by rw [goes]) (by rw [goes]; rfl) rfl
  | claimTimeout node candidate others =>
    constructor
    · intro team
      simp only [advance]
      split <;> exact add_right_cancel_iff.mpr (add_comm _ _)
    · intro id
      simp only [advance]
      split <;> exact le_refl _
  | claimRelease node owner others =>
    have goes : advance input world (.claimRelease node owner others) =
        ({ world with cache := world.cache.releaseSlot owner },.resume (.claimNext node others)) := by
      simp [advance,works]
    exact accounts_of_release goes rfl (fun _ => rfl) (fun _ => rfl) (covered owner)
  | activateRead project deployment reason actor => exact accounts_of_free rfl (free_read (free_ofAnswer fun _ => rfl)) rfl
  | activatePolicy deployment reason actor => exact accounts_of_free rfl (free_read (free_ofAnswer fun _ => rfl)) rfl
  | retryRead project deployment actor =>
    refine accounts_of_free rfl (free_read (free_ofAnswer ?_)) rfl
    intro read
    split
    · exact free_ofAnswer fun _ => rfl
    · rfl
  | createHost => exact accounts_of_free rfl (free_permitted rfl) rfl
  | bindSource project team host environment source region =>
    refine accounts_of_free rfl (free_read (free_permitted ?_)) rfl
    unfold bindSource
    split
    · rfl
    · split
      · rfl
      · split
        · rfl
        · split <;> rfl
  | bindExisting => exact accounts_of_free rfl (free_read (free_permitted rfl)) rfl
  | bindFree request => exact accounts_of_free rfl (free_read (free_permitted (free_bindFree _ _ _))) rfl
  | assignSource project =>
    refine accounts_of_free rfl ?_ rfl
    simp only [advance]
    split
    · rfl
    · unfold assignSource
      split <;> rfl
  | assignFree project team source attempt =>
    refine accounts_of_free rfl ?_ rfl
    simp only [advance,assignFree]
    split
    · rfl
    · exact free_bindFree _ _ _
  | bindCommit request attempt => exact accounts_of_bind kept

end Commits

/-! Whole runs. -/

structure Sound (state : State) : Prop where
  tracked : Tracked Builders Traced state
  slots : ∀ team, state.shared.cache.counter team =
    state.shared.db.deployments.total (charge team) + owed (Handler.slots team) state
  once : ∀ id, owed (Handler.releases id) state + marked state.shared.cache id ≤ ended state.shared.db id

theorem ended_le_one (db : Database) (id : Uuid) : ended db id ≤ 1 := by
  unfold ended
  cases db.deployments.find id with
  | none => decide
  | some row =>
    simp only [Option.map_some,Option.getD_some,endedOf]
    split <;> decide

theorem total_charge_nonneg (db : Database) (team : Uuid) : 0 ≤ db.deployments.total (charge team) := by
  rw [← runningBuilds_eq]
  exact Int.natCast_nonneg _

private theorem le_owed_slots {state : State} {handler : Handler} (team : Uuid) (inflight : handler ∈ state.inflight) :
    handler.slots team ≤ owed (Handler.slots team) state := by
  refine List.single_le_sum ?_ _ (List.mem_map_of_mem inflight)
  intro value member
  obtain ⟨other,_,rfl⟩ := List.mem_map.mp member
  exact other.slots_nonneg team

private theorem le_owed_releases {state : State} {handler : Handler} (id : Uuid) (inflight : handler ∈ state.inflight) :
    handler.releases id ≤ owed (Handler.releases id) state :=
  List.single_le_sum (fun _ _ => Nat.zero_le _) _ (List.mem_map_of_mem inflight)

theorem Sound.once_inflight {state : State} {handler : Handler} (sound : Sound state) (inflight : handler ∈ state.inflight)
    (id : Uuid) : handler.releases id + marked state.shared.cache id ≤ 1 := by
  have decided := le_owed_releases id inflight
  have single := sound.once id
  have one := ended_le_one state.shared.db id
  omega

private theorem accounts_inflight {state : State} {index : Nat} {input : Input} {handler : Handler} (sound : Sound state)
    (found : state.inflight[index]? = some handler) (kept : SlotsKept input state.shared handler) :
    Accounts input state.shared handler := by
  have inflight := List.mem_of_getElem? found
  refine accounts kept (sound.tracked.handlers handler inflight) ?_ (sound.once_inflight inflight)
  intro team
  have owes := le_owed_slots team inflight
  have charged := total_charge_nonneg state.shared.db team
  have balance := sound.slots team
  omega

theorem sound_step (state : State) (event : Happening) (sound : Sound state) (meets : Acting SlotsKept state event) :
    Sound (machine.step state event) := by
  have tracked : Tracked Builders Traced (machine.step state event) := by
    refine tracked_step ?_ ?_ state event sound.tracked meets
    · intro db row builders member
      exact ⟨behind_of_mem member,builders row member⟩
    · intro input world handler action reply demoted after kept commit effect builders rows
      have advances := advances_phase kept commit effect
      exact ⟨builders_kept builders advances effect,fun row traced => ⟨traced.behind.kept advances,traced.built⟩⟩
  cases event with
  | arrive call =>
    refine ⟨tracked,fun team => ?_,fun id => ?_⟩
    · rw [owed_arrive]
      exact (sound.slots team).trans (by rw [show (machine.enter call).slots team = 0 from rfl,add_zero]; rfl)
    · rw [owed_arrive]
      exact sound.once id
  | resume index input =>
    cases found : state.inflight[index]? with
    | none =>
      have stays : machine.step state (.resume index input) = state := by simp only [Machine.step,found]
      rw [stays]
      exact sound
    | some handler =>
      have balance := accounts_inflight sound found (meets handler found)
      have shared : (machine.step state (.resume index input)).shared = (advance input state.shared handler).1 := by
        simp only [Machine.step,found]
        rfl
      refine ⟨tracked,fun team => ?_,fun id => ?_⟩
      · have ledger := owed_resume machine (Handler.slots team) state index input handler found
        have moved := balance.slots team
        have before := sound.slots team
        change _ = _ + rest _ (advance input state.shared handler).2.handler at ledger
        rw [shared]
        omega
      · have ledger := owed_resume machine (Handler.releases id) state index input handler found
        have moved := balance.releases id
        have before := sound.once id
        change _ = _ + rest _ (advance input state.shared handler).2.handler at ledger
        rw [shared]
        omega

/-- Counters that agree with the running builds and with the releases already made. -/
structure Balanced (world : World) : Prop where
  counters : ∀ team, world.cache.counter team = runningBuilds world.db team
  markers : ∀ id, marked world.cache id ≤ ended world.db id
  builders : Builders world.db

/-- Every slot is given back once: with no handler in flight a team's counter is the number
of its running builds, and no release meets the marker of an earlier one. -/
def SlotsBalance (world : World) (events : List Happening) : Prop :=
  ((run machine.step (idle world) events).inflight = [] → ∀ team,
      (run machine.step (idle world) events).shared.cache.counter team =
        runningBuilds (run machine.step (idle world) events).shared.db team) ∧
    Along machine.step (Acting fun _ world handler => ∀ owner id answer, handler = .releaseMark owner id answer →
      world.cache.ownsRelease id) (idle world) events

theorem slots_balance_of_kept (world : World) (events : List Happening) (balanced : Balanced world)
    (kept : Along machine.step (Acting SlotsKept) (idle world) events) : SlotsBalance world events := by
  have start : Sound (idle world) := by
    refine ⟨⟨balanced.builders,fun _ member => by cases member⟩,fun team => ?_,fun id => ?_⟩
    · exact (balanced.counters team).trans ((runningBuilds_eq world.db team).trans (add_zero _).symm)
    · exact (Nat.zero_add _).le.trans (balanced.markers id)
  constructor
  · intro settled team
    have sound := invariant_run sound_step (idle world) events start kept
    have balance := sound.slots team
    have none : owed (Handler.slots team) (run machine.step (idle world) events) = 0 := by
      unfold owed
      rw [settled]
      rfl
    rw [balance,none,add_zero,runningBuilds_eq]
  · refine along_of_invariant sound_step ?_ (idle world) events start kept
    intro state event sound _
    cases event with
    | arrive call => trivial
    | resume index input =>
      rintro handler found owner id answer rfl
      have single := sound.once_inflight (List.mem_of_getElem? found) id
      simp only [Handler.releases,if_true,marked] at single
      split at single
      · assumption
      · omega

section Examples
open Sample

/-- A cancellation reads a waiting deployment, a node claims it, the cancellation commits. -/
def claimedBehindCancellation : List Happening :=
  .arrive (.project 3 (.cancel 1 9)) :: steps 0 2 ++ .arrive (.node 7 (.claim 1)) :: steps 1 7 ++ steps 0 1

theorem canceled_claim_leaks_slot : ¬SlotsBalance (holding { deployment with buildNodeId := none }) claimedBehindCancellation := by
  intro balance
  have settled : (run machine.step (idle (holding { deployment with buildNodeId := none })) claimedBehindCancellation).inflight = [] := by
    decide +kernel
  have counter : (run machine.step (idle (holding { deployment with buildNodeId := none })) claimedBehindCancellation).shared.cache.counter 2 = 1 := by
    decide
  have running : runningBuilds (run machine.step (idle (holding { deployment with buildNodeId := none })) claimedBehindCancellation).shared.db 2 = 0 := by
    decide +kernel
  have leaked := balance.1 settled 2
  rw [counter,running] at leaked
  cases leaked

theorem balanced_waiting : Balanced (holding { deployment with buildNodeId := none }) where
  counters team := by
    simp [Cache.counter,holding,Cache.empty,runningBuilds,deployment,Stage.cancellationReleasesBuildSlot]
  markers id := Nat.zero_le _
  builders row member built := by
    obtain rfl := List.mem_singleton.mp member
    cases built

/-- The claim first, then the cancellation. -/
theorem slots_balance_claimed_then_canceled :
    SlotsBalance (holding { deployment with buildNodeId := none })
      (.arrive (.node 7 (.claim 1)) :: steps 0 7 ++ .arrive (.project 3 (.cancel 1 9)) :: steps 0 6) :=
  slots_balance_of_kept _ _ balanced_waiting (by decide +kernel)

end Examples

end GrassWorker.ControlPlane
