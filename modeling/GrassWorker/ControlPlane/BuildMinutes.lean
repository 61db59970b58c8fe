import GrassWorker.ControlPlane.BuildStatus
import GrassWorker.Domain.Quotas
import GrassWorker.Foundations.Obligations
import Mathlib.Algebra.Order.BigOperators.Group.List

/-! The build minutes of a deployment: its node sends the report that ends the build, once or again and again, and a
user may cancel the build meanwhile. What a handler reads, its transaction and the statements of a charge are actions. -/
namespace GrassWorker.BuildMinutes
open ControlPlane Deployments Interleaving Quotas Runs Transaction

structure TerminalReport where
  node : Uuid
  deployment : Uuid
  status : Stage.ReportedStatus
  body : Stage.StageRequest
  buildMinutes : Option Int
  terminal : Stage.isTerminal status.target
  reports : body.status = some status

structure Shared where
  db : Database
  cancelFlagged : Bool := false
  /-- The counter of the cache. -/
  used : Int := 0
  ledger : Ledger
  /-- A report has been answered without an error. -/
  processed : Bool := false

inductive Request
  | stage
  | cancel (actor : Uuid)

inductive Handler
  | readOwned
  | readFlag (owned : Stage.OwnedDeployment)
  | deleteFlag (team : Uuid)
  | report (owned : Stage.OwnedDeployment)
  | adjustCounter (team : Uuid) (minutes : Int)
  | recordEvent (team : Uuid) (minutes : Int)
  | readDeployment (actor : Uuid)
  | cancel (row : Deployment) (actor : Uuid)
  | setFlag
deriving DecidableEq

structure Input where
  instant : Instant

section Machine
variable (calendar : Calendar) (sent : TerminalReport)

def answered (s : Shared) : Shared × Option Handler := ({ s with processed := true },none)

/-- `charge_unchecked`, if there is anything to charge. -/
def charging (s : Shared) (team : Uuid) : Shared × Option Handler :=
  match sent.buildMinutes.filter (0 < ·) with
  | some minutes => (s,some (.adjustCounter team minutes))
  | none => answered s

def minutesParams (team : Uuid) (minutes : Int) : RecordEventParams where
  teamId := team
  dimension := .buildMinutesMonthly
  kind := .consume
  deltaValue := minutes
  resourceType := some "deployment"
  resourceId := some sent.deployment

def advance (input : Input) (s : Shared) : Handler → Shared × Option Handler
  | .readOwned =>
    match Stage.buildOwnedDeployment s.db sent.node sent.deployment with
    | .ok owned => (s,some (.readFlag owned))
    | .error _ => (s,none)
  | .readFlag owned =>
    if Stage.cancellationWasRequested owned.row.buildStatus s.cancelFlagged then
      if sent.status = .canceled then (s,some (.deleteFlag owned.row.teamId)) else answered s
    else (s,some (.report owned))
  | .deleteFlag team => charging sent { s with cancelFlagged := false } team
  | .report owned =>
    match (Action.report owned sent.status sent.body).run input.instant s.db with
    | .ok (.buildEnded true,db) => charging sent { s with db } owned.row.teamId
    | .ok (_,db) => answered { s with db }
    | .error _ => (s,none)
  | .adjustCounter team minutes => ({ s with used := s.used + minutes },some (.recordEvent team minutes))
  | .recordEvent team minutes =>
    match s.ledger.recordEvent calendar (minutesParams sent team minutes) input.instant.now with
    | some ledger => answered { s with ledger }
    | none => (s,none)
  | .readDeployment actor =>
    match getById s.db sent.deployment with
    | some row => (s,some (.cancel row actor))
    | none => (s,none)
  | .cancel row actor =>
    match (Action.cancel row actor).run input.instant s.db with
    | .ok (_,db) => ({ s with db },if Stage.cancellationReleasesBuildSlot row.buildStatus then some .setFlag else none)
    | .error _ => (s,none)
  | .setFlag => ({ s with cancelFlagged := true },none)

def machine : Machine Shared Handler Request Input where
  enter
    | .stage => .readOwned
    | .cancel actor => .readDeployment actor
  advance := advance calendar sent

end Machine

abbrev State := Config Shared Handler

def idle (db : Database) (ledger : Ledger) : State := ⟨{ db, ledger },[]⟩

def charges (sent : TerminalReport) (s : Shared) : List Int :=
  (s.ledger.events.filter fun event =>
    event.kind = .consume ∧ event.dimension = .buildMinutesMonthly ∧ event.resourceId = some sent.deployment).map (·.deltaValue)

def ChargedOnce (sent : TerminalReport) (minutes : Int) (s : Shared) : Prop := s.processed → charges sent s = [minutes]

def Handler.charges : Handler → Nat
  | .deleteFlag _ | .adjustCounter _ _ | .recordEvent _ _ => 1
  | _ => 0

def findsCanceled (s : Shared) : Handler → Bool
  | .readFlag owned => Stage.cancellationWasRequested owned.row.buildStatus s.cancelFlagged
  | _ => false

/-- The build is ready already when the transaction of a Ready report sees it. -/
def findsReady (sent : TerminalReport) (s : Shared) : Handler → Bool
  | .report _ => sent.status = .ready && (s.db.deployments.find sent.deployment).any fun row => row.buildStatus = .ready
  | _ => false

/-- Only a Canceled report finds that the build is to be canceled, and no minutes have been charged yet; a Ready report finds
the build ready only after its minutes have been charged. -/
def Accounted (sent : TerminalReport) (_ : Input) (s : Shared) (handler : Handler) : Prop :=
  (findsCanceled s handler → sent.status = .canceled ∧ charges sent s = []) ∧ (findsReady sent s handler → charges sent s ≠ [])

/-- A report that finds that the build is to be canceled finds no other one about to charge its minutes. -/
def Alone (_ : Input) (s : Shared) (handler other : Handler) : Prop := findsCanceled s handler → other.charges = 0

instance (sent : TerminalReport) (input : Input) (s : Shared) (handler : Handler) : Decidable (Accounted sent input s handler) :=
  inferInstanceAs (Decidable (_ ∧ _))

instance (input : Input) (s : Shared) (handler other : Handler) : Decidable (Alone input s handler other) :=
  inferInstanceAs (Decidable (_ → _))

/-! The build of the deployment. -/

def Over (db : Database) (id : Uuid) : Prop := ∃ row, db.deployments.find id = some row ∧ Stage.isTerminal row.buildStatus

section Builds
variable {instant : Instant} {db after : Database} {owned : Stage.OwnedDeployment} {status : Stage.ReportedStatus}
  {body : Stage.StageRequest} {row : Deployment} {actor id : Uuid} {reply : Reply}

theorem over_of_effect {action : Action} {demoted : Option Uuid} (effect : Effect instant action reply demoted db after)
    (checked : ∀ source target, ¬Unchecked source action target) (stopped : Over db id) : Over after id := by
  obtain ⟨row,found,ended⟩ := stopped
  obtain ⟨next,reached,_,mid,changes,settles⟩ := effect.rows.kept id row found
  refine ⟨next,reached,?_⟩
  have settled : next.buildStatus = mid.build := settles.build
  rw [settled]
  rcases changes.build with same | ⟨_,edge | unchecked⟩
  · rw [same]
    exact ended
  · exact absurd ended (terminal_of_edge edge)
  · exact absurd unchecked (checked _ _)

theorem checked_report (terminal : Stage.isTerminal status.target) (source target : BuildStatus) :
    ¬Unchecked source (.report owned status body) target := by
  intro unchecked
  generalize same : Action.report owned status body = action at unchecked
  cases unchecked with
  | report early edge =>
    cases same
    rcases early with rfl | rfl <;> cases terminal

theorem checked_cancel (source target : BuildStatus) : ¬Unchecked source (.cancel row actor) target := by
  intro unchecked
  generalize same : Action.cancel row actor = action at unchecked
  cases unchecked with
  | report early edge => cases same

/-- A report that ends the build finds it open and leaves it over; one that does not finds it ready. -/
theorem report_outcome (terminal : Stage.isTerminal status.target)
    (runs : (Action.report owned status body).run instant db = .ok (reply,after)) :
    (reply = .buildEnded true ∧ ¬Over db owned.row.id ∧ Over after owned.row.id) ∨
      (reply ≠ .buildEnded true ∧ status = .ready ∧
        ∃ row, db.deployments.find owned.row.id = some row ∧ row.buildStatus = .ready) := by
  obtain ⟨demoted,effect⟩ := commits instant _ db reply after runs
  obtain ⟨row,found⟩ := effect.located owned.row.id (by cases reply <;> rfl)
  obtain ⟨next,reached,_,mid,changes,settles⟩ := effect.rows.kept _ row found
  have settled : next.buildStatus = mid.build := settles.build
  have key := Table.find_key found
  unfold ControlPlane.Changes at changes
  rw [if_pos (by rw [key]; rfl)] at changes
  have opened (edge : ¬Stage.isTerminal row.buildStatus) : ¬Over db owned.row.id := by
    rintro ⟨other,same,ended⟩
    rw [found] at same
    cases same
    exact edge ended
  generalize same : Action.report owned status body = action at changes
  cases changes with
  | advanced early edge =>
    cases same
    rcases early with rfl | rfl <;> cases terminal
  | ended _ edge =>
    cases same
    exact .inl ⟨rfl,opened (terminal_of_edge edge),next,reached,by rw [settled]; exact terminal⟩
  | finished edge reviewed =>
    cases same
    by_cases built : row.buildStatus = .ready
    · refine .inr ⟨?_,rfl,row,found,built⟩
      intro ends
      have not : decide (row.lifecycle.build ≠ .ready) = true := Reply.buildEnded.inj ends
      exact absurd built (of_decide_eq_true not)
    · refine .inl ⟨congrArg _ (decide_eq_true built),opened (terminal_of_edge (edge built)),next,reached,?_⟩
      rw [settled]
      rfl
  | _ => cases same

theorem cancel_outcome (runs : (Action.cancel row actor).run instant db = .ok (reply,after)) : Over after row.id := by
  obtain ⟨demoted,effect⟩ := commits instant _ db reply after runs
  obtain ⟨current,found⟩ := effect.located row.id (by cases reply <;> rfl)
  obtain ⟨next,reached,_,mid,changes,settles⟩ := effect.rows.kept _ current found
  have settled : next.buildStatus = mid.build := settles.build
  unfold ControlPlane.Changes at changes
  rw [if_pos (by rw [Table.find_key found]; rfl)] at changes
  refine ⟨next,reached,?_⟩
  rw [settled]
  generalize same : Action.cancel row actor = action at changes
  cases changes with
  | canceled edge => rfl
  | _ => cases same

theorem owned_row {node : Uuid} (read : Stage.buildOwnedDeployment db node id = .ok owned) : db.deployments.find id = some owned.row := by
  unfold Stage.buildOwnedDeployment at read
  split at read
  · cases read
  · rename_i row found
    split at read
    · cases read
      exact (getByIdForUpdate_eq_some.mp found).1
    · cases read

end Builds

/-! One action. -/

section Actions
variable (sent : TerminalReport) (minutes : Int)

def Knows (s : Shared) : Handler → Prop
  | .readFlag owned => owned.row.id = sent.deployment ∧ (owned.row.buildStatus = .canceled → Over s.db sent.deployment)
  | .report owned => owned.row.id = sent.deployment
  | .cancel row _ => row.id = sent.deployment
  | .setFlag => Over s.db sent.deployment
  | .adjustCounter _ amount | .recordEvent _ amount => amount = minutes
  | .readOwned | .deleteFlag _ | .readDeployment _ => True

/-- The charges an action records and leaves to be recorded are those its handler had decided on, or there is a first one. -/
inductive Charging (s : Shared) (handler : Handler) (s' : Shared) (next : Option Handler) (added : List Int) : Prop
  | old (fewer : added.length + rest Handler.charges next ≤ handler.charges)
  | first (nothing : added = []) (free : handler.charges = 0) (one : rest Handler.charges next ≤ 1)
      (stopped : Over s'.db sent.deployment) (new : ¬Over s.db sent.deployment ∨ findsCanceled s handler)

structure Moved (s : Shared) (handler : Handler) (s' : Shared) (next : Option Handler) : Prop where
  stopped : Over s.db sent.deployment → Over s'.db sent.deployment
  flagged : s'.cancelFlagged → s.cancelFlagged ∨ Over s'.db sent.deployment
  knows : ∀ rest, next = some rest → Knows sent minutes s' rest
  charged : ∃ added, charges sent s' = charges sent s ++ added ∧ (∀ amount ∈ added, amount = minutes) ∧
    Charging sent s handler s' next added
  processed : s'.processed → s.processed ∨ charges sent s' ≠ []

variable {sent minutes} {calendar : Calendar} {input : Input} {s : Shared} {handler : Handler}

theorem Moved.goesOn {s' : Shared} {next : Option Handler} (stopped : Over s.db sent.deployment → Over s'.db sent.deployment)
    (flagged : s'.cancelFlagged → s.cancelFlagged ∨ Over s'.db sent.deployment)
    (knows : ∀ rest, next = some rest → Knows sent minutes s' rest) (ledger : s'.ledger = s.ledger)
    (charging : Charging sent s handler s' next []) (processed : s'.processed → s.processed ∨ charges sent s ≠ []) :
    Moved sent minutes s handler s' next := by
  have same : charges sent s' = charges sent s := by
    unfold charges
    rw [ledger]
  refine ⟨stopped,flagged,knows,⟨[],by rw [same,List.append_nil],fun _ impossible => absurd impossible List.not_mem_nil,charging⟩,?_⟩
  rw [same]
  exact processed

theorem knows_none {s' : Shared} : ∀ rest, (none : Option Handler) = some rest → Knows sent minutes s' rest := by
  intro rest impossible
  cases impossible

theorem charges_recordEvent {ledger : Ledger} {team : Uuid} {now : Timestamp} {amount : Int}
    (recorded : s.ledger.recordEvent calendar (minutesParams sent team amount) now = some ledger) :
    charges sent { s with ledger } = charges sent s ++ [amount] := by
  unfold charges
  rw [recordEvent_events recorded,List.filter_append,List.map_append]
  congr 1
  simp [minutesParams,RecordEventParams.event]

theorem charging_eq (reported : sent.buildMinutes = some minutes) (positive : 0 < minutes) (s : Shared) (team : Uuid) :
    charging sent s team = (s,some (.adjustCounter team minutes)) := by
  have kept : sent.buildMinutes.filter (0 < ·) = some minutes := by
    rw [reported]
    exact Option.filter_eq_some_iff.mpr ⟨rfl,decide_eq_true positive⟩
  unfold charging
  simp only [kept]

theorem advance_moved (reported : sent.buildMinutes = some minutes) (positive : 0 < minutes) (accounted : Accounted sent input s handler)
    (knows : Knows sent minutes s handler) (flagged : s.cancelFlagged → Over s.db sent.deployment) :
    Moved sent minutes s handler (advance calendar sent input s handler).1 (advance calendar sent input s handler).2 := by
  have nothing : rest Handler.charges (none : Option Handler) = 0 := rfl
  cases handler with
  | readOwned =>
    simp only [advance]
    split
    · rename_i owned read
      have found := owned_row read
      refine .goesOn id .inl ?_ rfl (.old (Nat.le_refl _)) .inl
      intro rest same
      cases same
      refine ⟨Table.find_key found,fun canceled => ⟨owned.row,found,?_⟩⟩
      rw [canceled]
      rfl
    · exact .goesOn id .inl knows_none rfl (.old (Nat.le_refl _)) .inl
  | readFlag owned =>
    simp only [advance]
    by_cases requested : Stage.cancellationWasRequested owned.row.buildStatus s.cancelFlagged
    · obtain ⟨canceled,free⟩ := accounted.1 requested
      have stopped : Over s.db sent.deployment := by
        simp only [Stage.cancellationWasRequested,Bool.or_eq_true,decide_eq_true_eq] at requested
        exact requested.elim knows.2 flagged
      rw [if_pos requested,if_pos canceled]
      refine .goesOn id .inl ?_ rfl (.first rfl rfl (Nat.le_refl _) stopped (.inr requested)) .inl
      intro rest same
      cases same
      trivial
    · rw [if_neg requested]
      refine .goesOn id .inl ?_ rfl (.old (Nat.le_refl _)) .inl
      intro rest same
      cases same
      exact knows.1
  | deleteFlag team =>
    simp only [advance]
    rw [charging_eq reported positive]
    refine .goesOn id nofun ?_ rfl (.old (Nat.le_refl _)) .inl
    intro rest same
    cases same
    rfl
  | report owned =>
    have named : owned.row.id = sent.deployment := knows
    simp only [advance]
    cases runs : (Action.report owned sent.status sent.body).run input.instant s.db with
    | error error => exact .goesOn id .inl knows_none rfl (.old (Nat.le_refl _)) .inl
    | ok result =>
      obtain ⟨reply,after⟩ := result
      obtain ⟨demoted,effect⟩ := commits input.instant _ s.db reply after runs
      have stopped : Over s.db sent.deployment → Over after sent.deployment := over_of_effect effect (checked_report sent.terminal)
      rcases report_outcome sent.terminal runs with ⟨rfl,opened,ended⟩ | ⟨other,ready,row,found,built⟩
      · rw [named] at opened ended
        simp only
        rw [charging_eq reported positive]
        refine .goesOn stopped .inl ?_ rfl (.first rfl rfl (Nat.le_refl _) ended (.inl opened)) .inl
        intro rest same
        cases same
        rfl
      · rw [named] at found
        have finds : findsReady sent s (.report owned) := by
          simp [findsReady,ready,found,built]
        have charged := accounted.2 finds
        have done : Moved sent minutes s (.report owned) (answered { s with db := after }).1 (answered { s with db := after }).2 :=
          .goesOn stopped .inl knows_none rfl (.old (Nat.le_refl _)) fun _ => .inr charged
        cases reply with
        | buildEnded ended =>
          cases ended with
          | true => exact absurd rfl other
          | false => exact done
        | _ => exact done
  | adjustCounter team amount =>
    refine .goesOn id .inl ?_ rfl (.old (Nat.le_refl _)) .inl
    intro rest same
    cases same
    exact knows
  | recordEvent team amount =>
    simp only [advance]
    split
    · rename_i ledger recorded
      have same := charges_recordEvent recorded
      refine ⟨id,.inl,knows_none,⟨[amount],same,?_,.old (Nat.le_refl _)⟩,fun _ => .inr ?_⟩
      · intro other member
        rw [List.mem_singleton.mp member]
        exact knows
      · have appended : charges sent (answered { s with ledger }).1 = charges sent s ++ [amount] := same
        rw [appended]
        exact List.append_ne_nil_of_right_ne_nil _ (List.cons_ne_nil _ _)
    · exact .goesOn id .inl knows_none rfl (.old (Nat.zero_le _)) .inl
  | readDeployment actor =>
    simp only [advance]
    split
    · rename_i row found
      refine .goesOn id .inl ?_ rfl (.old (Nat.le_refl _)) .inl
      intro rest same
      cases same
      exact Table.find_key (getByIdForUpdate_eq_some.mp found).1
    · exact .goesOn id .inl knows_none rfl (.old (Nat.le_refl _)) .inl
  | cancel row actor =>
    have named : row.id = sent.deployment := knows
    simp only [advance]
    cases runs : (Action.cancel row actor).run input.instant s.db with
    | error error => exact .goesOn id .inl knows_none rfl (.old (Nat.le_refl _)) .inl
    | ok result =>
      obtain ⟨reply,after⟩ := result
      obtain ⟨demoted,effect⟩ := commits input.instant _ s.db reply after runs
      have stopped : Over s.db sent.deployment → Over after sent.deployment := over_of_effect effect checked_cancel
      have ended := cancel_outcome runs
      rw [named] at ended
      refine .goesOn stopped .inl ?_ rfl (.old ?_) .inl
      · intro rest same
        simp only at same
        split at same
        · cases same
          exact ended
        · cases same
      · simp only
        split <;> exact Nat.le_refl _
  | setFlag => exact .goesOn id (fun _ => .inr knows) knows_none rfl (.old (Nat.le_refl _)) .inl

theorem Moved.knows_other {s' : Shared} {next : Option Handler} {other : Handler} (moved : Moved sent minutes s handler s' next)
    (knows : Knows sent minutes s other) : Knows sent minutes s' other := by
  cases other with
  | readFlag owned => exact ⟨knows.1,fun canceled => moved.stopped (knows.2 canceled)⟩
  | setFlag => exact moved.stopped knows
  | _ => exact knows

end Actions

/-! Runs. -/

section Runs
variable (sent : TerminalReport) (minutes : Int)

/-- At most one charge is recorded or decided on, and then the build is over. -/
structure Kept (state : State) : Prop where
  few : (charges sent state.shared).length + owed Handler.charges state ≤ 1
  stopped : 0 < (charges sent state.shared).length + owed Handler.charges state → Over state.shared.db sent.deployment
  amounts : ∀ amount ∈ charges sent state.shared, amount = minutes
  processed : state.shared.processed → charges sent state.shared ≠ []
  flagged : state.shared.cancelFlagged → Over state.shared.db sent.deployment
  known : ∀ handler ∈ state.inflight, Knows sent minutes state.shared handler

variable {sent minutes} {calendar : Calendar} {state : State}

theorem Kept.charged (kept : Kept sent minutes state) : ChargedOnce sent minutes state.shared := by
  intro processed
  have some' := List.length_pos_iff.mpr (kept.processed processed)
  have few := kept.few
  obtain ⟨amount,single⟩ := List.length_eq_one_iff.mp (show (charges sent state.shared).length = 1 by omega)
  have same := kept.amounts amount (by rw [single]; exact List.mem_singleton.mpr rfl)
  rw [single,same]

/-- The others owe nothing, and neither does a handler that finds that the build is to be canceled. -/
theorem nothing_owed {index : Nat} {input : Input} {handler : Handler} (found : state.inflight[index]? = some handler)
    (free : handler.charges = 0) (alone : ∀ other ∈ state.inflight.eraseIdx index, Alone input state.shared handler other)
    (finds : findsCanceled state.shared handler) : owed Handler.charges state = 0 := by
  rw [owed_eq Handler.charges found,free,Nat.add_zero]
  refine List.sum_eq_zero ?_
  intro amount member
  obtain ⟨other,there,rfl⟩ := List.mem_map.mp member
  exact alone other there finds

theorem Kept.step (reported : sent.buildMinutes = some minutes) (positive : 0 < minutes) (event : Event Request Input)
    (kept : Kept sent minutes state) (meets : ActingApart (Accounted sent) Alone state event) :
    Kept sent minutes ((machine calendar sent).step state event) := by
  cases event with
  | arrive request =>
    have free : ((machine calendar sent).enter request).charges = 0 := by cases request <;> rfl
    have same : owed Handler.charges ((machine calendar sent).step state (.arrive request)) =
        owed Handler.charges state + ((machine calendar sent).enter request).charges := owed_arrive Handler.charges state request
    rw [free,Nat.add_zero] at same
    refine ⟨?_,?_,kept.amounts,kept.processed,kept.flagged,?_⟩
    · rw [same]
      exact kept.few
    · rw [same]
      exact kept.stopped
    · intro handler member
      rcases List.mem_append.mp member with old | new
      · exact kept.known handler old
      · rw [List.mem_singleton.mp new]
        cases request <;> trivial
  | resume index input =>
    cases found : state.inflight[index]? with
    | none => simpa only [Machine.step,found] using kept
    | some handler =>
      obtain ⟨accounted,alone⟩ := meets handler found
      have moved : Moved sent minutes state.shared handler (advance calendar sent input state.shared handler).1
          (advance calendar sent input state.shared handler).2 :=
        advance_moved reported positive accounted (kept.known handler (List.mem_of_getElem? found)) kept.flagged
      have ledger := owed_resume (machine calendar sent) Handler.charges state index input handler found
      have shared : ((machine calendar sent).step state (.resume index input)).shared = (advance calendar sent input state.shared handler).1 := by
        simp only [Machine.step,found]
        rfl
      have known : ∀ other ∈ ((machine calendar sent).step state (.resume index input)).inflight,
          Knows sent minutes (advance calendar sent input state.shared handler).1 other := by
        intro other member
        simp only [Machine.step,found] at member
        rcases mem_settle member with old | new
        · exact moved.knows_other (kept.known other old)
        · exact moved.knows other new
      have few := kept.few
      have stopped := kept.stopped
      change _ = owed Handler.charges state + rest Handler.charges (advance calendar sent input state.shared handler).2 at ledger
      generalize advance calendar sent input state.shared handler = outcome at moved ledger shared known
      obtain ⟨s',next⟩ := outcome
      simp only at moved ledger shared known
      obtain ⟨added,appended,amounts,charging⟩ := moved.charged
      have account : (charges sent s').length + owed Handler.charges ((machine calendar sent).step state (.resume index input)) ≤ 1 ∧
          (0 < (charges sent s').length + owed Handler.charges ((machine calendar sent).step state (.resume index input)) →
            Over s'.db sent.deployment) := by
        rw [appended,List.length_append]
        cases charging with
        | old fewer => exact ⟨by omega,fun some' => moved.stopped (stopped (by omega))⟩
        | first nothing free one ended new =>
          have none : (charges sent state.shared).length + owed Handler.charges state = 0 := by
            rcases new with opened | finds
            · by_contra some'
              exact opened (stopped (Nat.pos_of_ne_zero some'))
            · rw [nothing_owed found free alone finds,(accounted.1 finds).2]
              rfl
          rw [nothing,List.length_nil]
          exact ⟨by omega,fun _ => ended⟩
      refine ⟨?_,?_,?_,?_,?_,?_⟩
      · rw [shared]
        exact account.1
      · rw [shared]
        exact account.2
      · rw [shared,appended]
        intro amount member
        exact (List.mem_append.mp member).elim (kept.amounts amount) (amounts amount)
      · rw [shared]
        intro processed
        rcases moved.processed processed with before | after
        · rw [appended]
          exact List.append_ne_nil_of_left_ne_nil (kept.processed before) _
        · exact after
      · rw [shared]
        intro flagged
        rcases moved.flagged flagged with before | after
        · exact moved.stopped (kept.flagged before)
        · exact after
      · rw [shared]
        exact known

end Runs

/-- In every run of a report, its repetitions and cancellations in which every report is accounted for: once a report has been
processed, exactly one charge is recorded, of the minutes it reports. -/
theorem build_minutes_charged_once (calendar : Calendar) (sent : TerminalReport) (minutes : Int) (db : Database) (ledger : Ledger)
    (events : List (Event Request Input)) (reported : sent.buildMinutes = some minutes) (positive : 0 < minutes)
    (uncharged : charges sent { db, ledger } = [])
    (accounted : Along (machine calendar sent).step (ActingApart (Accounted sent) Alone) (idle db ledger) events) :
    Throughout (machine calendar sent).step (fun state => ChargedOnce sent minutes state.shared) (idle db ledger) events := by
  have start : Kept sent minutes (idle db ledger) := by
    refine ⟨?_,?_,?_,nofun,nofun,fun _ impossible => absurd impossible List.not_mem_nil⟩
    · exact Nat.le_of_eq (congrArg (fun list => list.length + 0) uncharged) |>.trans (Nat.zero_le 1)
    · intro some'
      have none : (charges sent (idle db ledger).shared).length + owed Handler.charges (idle db ledger) = 0 :=
        congrArg (fun list => list.length + 0) uncharged
      omega
    · intro amount member
      have empty : charges sent (idle db ledger).shared = [] := uncharged
      rw [empty] at member
      cases member
  exact throughout_of_invariant (fun state event kept meets => kept.step reported positive event meets)
    (fun state kept => kept.charged) (idle db ledger) events start accounted

section Examples
open Sample

def reporting (status : Stage.ReportedStatus) (terminal : Stage.isTerminal status.target) : TerminalReport where
  node := 7
  deployment := 1
  status := status
  body := { status := some status }
  buildMinutes := some 3
  terminal := terminal
  reports := rfl

def building : Database := (holding { deployment with buildStatus := .building }).db

def happening (resumed : List Nat) : List (Event Request Input) := resumed.map fun index => .resume index ⟨{ now := 0 }⟩

/-- The build is canceled, and after that the node reports that it is ready. -/
def readyAfterCancellation : List (Event Request Input) := .arrive (.cancel 9) :: happening [0,0,0] ++ .arrive .stage :: happening [0,0]

def canceledTwice : List (Event Request Input) :=
  .arrive (.cancel 9) :: happening [0,0,0] ++ .arrive .stage :: happening [0,0,0,0,0] ++ .arrive .stage :: happening [0,0,0,0,0]

abbrev noCalendar : Calendar := fun now => (now,now)

/-- A report that comes after the cancellation is not charged, and a Canceled one is charged each time. -/
theorem canceled_build_is_charged_never_or_twice :
    ¬Throughout (machine noCalendar (reporting .ready rfl)).step (fun state => ChargedOnce (reporting .ready rfl) 3 state.shared)
      (idle building {}) readyAfterCancellation ∧
    ¬Throughout (machine noCalendar (reporting .canceled rfl)).step (fun state => ChargedOnce (reporting .canceled rfl) 3 state.shared)
      (idle building {}) canceledTwice := by
  constructor
  · intro throughout
    have once := throughout.last (by decide)
    have never : charges (reporting .ready rfl)
        (run (machine noCalendar (reporting .ready rfl)).step (idle building {}) readyAfterCancellation).shared = [] := by
      decide
    rw [never] at once
    cases once
  · intro throughout
    have once := throughout.last (by decide)
    have twice : charges (reporting .canceled rfl)
        (run (machine noCalendar (reporting .canceled rfl)).step (idle building {}) canceledTwice).shared = [3,3] := by
      decide
    rw [twice] at once
    cases once

/-- A Ready report that is sent again after it has been processed. -/
theorem ready_report_charged_once :
    Throughout (machine noCalendar (reporting .ready rfl)).step (fun state => ChargedOnce (reporting .ready rfl) 3 state.shared)
      (idle building {}) (.arrive .stage :: happening [0,0,0,0,0] ++ .arrive .stage :: happening [0,0,0]) ∧
    (run (machine noCalendar (reporting .ready rfl)).step (idle building {})
      (.arrive .stage :: happening [0,0,0,0,0] ++ .arrive .stage :: happening [0,0,0])).shared.processed :=
  ⟨build_minutes_charged_once noCalendar (reporting .ready rfl) 3 building {} _ rfl (by decide) rfl (by decide +kernel),
    by decide +kernel⟩

end Examples

end GrassWorker.BuildMinutes
