import GrassWorker.Domain.SourceCredentials
import GrassWorker.Features.Claim
import GrassWorker.Foundations.Mutexes
import GrassWorker.Foundations.Obligations

/-! The transactions of `claim`, statement by statement, each of which may fail. A statement
that fails aborts its transaction, and the commit of an aborted transaction writes nothing
and reports no error. -/
namespace GrassWorker.ClaimTransactions
open Interleaving Runs SourceCredentials

structure Deployment extends GrassWorker.Deployment where
  sourceCredentialVersionId : Option Uuid
deriving DecidableEq

abbrev Deployments := Table Deployment (fun row => row.id) fun _ => ([] : List Unit)

inductive Lock
  | node (id : Uuid)
  | deployment (id : Uuid)
deriving DecidableEq

/-- A deployment that `claim` has returned to a node. -/
structure Answer where
  node : Uuid
  deployment : Deployment
  claimedAt : Timestamp
  lease : Option SourceCredentialLease
deriving DecidableEq

structure Shared where
  db : Database
  deployments : Deployments
  leases : Leases
  cache : Cache
  drawn : Nat
  timeline : List DeploymentEvent := []
  locks : Multiset Lock := 0
  answers : List Answer := []

structure Claiming where
  node : Uuid
  candidate : Deployment
  others : List Deployment
deriving DecidableEq

structure Request where
  node : Node
  capacity : Nat

inductive Handler
  | list (node : Node) (capacity : Nat)
  | team (claiming : Claiming)
  | acquire (claiming : Claiming) (team : Uuid)
  | timeout (claiming : Claiming) (team : Uuid)
  | start (claiming : Claiming) (team : Uuid)
  | lockNode (claiming : Claiming) (team : Uuid)
  | update (claiming : Claiming) (team : Uuid)
  | issue (claiming : Claiming) (team versionId : Uuid) (claimedAt : Timestamp)
  | append (claiming : Claiming) (team : Uuid) (claimedAt : Timestamp) (lease : Option SourceCredentialLease)
  | commit (claiming : Claiming) (team : Uuid) (claimedAt : Timestamp) (lease : Option SourceCredentialLease) (aborted : Bool)
  | rollback (claiming : Claiming) (team : Uuid) (held : Multiset Lock) (goesOn : Bool)
  /-- The slot is given back; a transaction that is still open ends with the call. -/
  | release (claiming : Claiming) (team : Uuid) (held : Multiset Lock) (goesOn : Bool)

structure Input where
  now : Timestamp
  fails : Bool := false

def Claiming.locks (claiming : Claiming) : Multiset Lock := {.deployment claiming.candidate.id,.node claiming.node}

def Handler.guards : Handler → Multiset Lock
  | .update claiming _ => {.node claiming.node}
  | .issue claiming _ _ _ | .append claiming _ _ _ | .commit claiming _ _ _ _ => claiming.locks
  | .rollback _ _ held _ | .release _ _ held _ => held
  | _ => 0

def Handler.slot : Handler → Option Uuid
  | .list .. | .team _ | .acquire .. => none
  | .timeout _ owner | .start _ owner | .lockNode _ owner | .update _ owner | .issue _ owner _ _ | .append _ owner _ _
  | .commit _ owner _ _ _ | .rollback _ owner _ _ | .release _ owner _ _ => some owner

def Handler.slots (owner : Uuid) (handler : Handler) : Int := if handler.slot = some owner then 1 else 0

def Shared.leave (s : Shared) (handler : Handler) : Shared := { s with locks := s.locks - handler.guards }

def locking (s : Shared) (lock : Lock) (waiting next : Handler) : Shared × Option Handler :=
  if lock ∈ s.locks then (s,some waiting) else ({ s with locks := lock ::ₘ s.locks },some next)

def candidates (s : Shared) : List Deployment :=
  ((s.deployments.rows.filter fun row => Claim.claimable row.toDeployment).insertionSort
    fun first second => first.createdAt ≤ second.createdAt).take 10

def proceed (node : Uuid) : List Deployment → Option Handler
  | [] => none
  | candidate :: others => some (.team ⟨node,candidate,others⟩)

def setClaimed (claimedAt : Timestamp) (node : Uuid) (row : Deployment) : Deployment :=
  { row with toDeployment := Claim.setClaimed claimedAt node row.toDeployment }

def issuing (claiming : Claiming) (team : Uuid) (claimedAt : Timestamp) : Handler :=
  match claiming.candidate.sourceCredentialVersionId with
  | some versionId => .issue claiming team versionId claimedAt
  | none => .append claiming team claimedAt none

/-- `issue_lease`. -/
def newLease (s : Shared) (claiming : Claiming) (versionId : Uuid) (now : Timestamp) : SourceCredentialLease :=
  ⟨s.drawn,s.drawn,claiming.node,claiming.candidate.id,versionId,now + leaseTtl,none⟩

def insertLease (leases : Leases) : Option SourceCredentialLease → Option Leases
  | some lease => leases.insert lease
  | none => some leases

def claimEvent (claiming : Claiming) : DeploymentEvent where
  deploymentId := claiming.candidate.id
  kind := .build
  message := "build status changed to claimed"
  metadata := [("status",.string "claimed"),("build_node_id",.uuid claiming.node)]

def written (s : Shared) (claiming : Claiming) (claimedAt : Timestamp) (lease : Option SourceCredentialLease) :
    Option (Deployments × Leases) := do
  let deployments ← s.deployments.update claiming.candidate.id (setClaimed claimedAt claiming.node) fun _ => rfl
  let leases ← insertLease s.leases lease
  return (deployments,leases)

def answer (claiming : Claiming) (claimedAt : Timestamp) (lease : Option SourceCredentialLease) : Answer :=
  ⟨claiming.node,claiming.candidate,claimedAt,lease⟩

def advance (input : Input) (s : Shared) (handler : Handler) : Shared × Option Handler :=
  match handler with
  | .list node capacity =>
    if !node.buildEnabled || capacity == 0 || !Claim.canClaimNewBuild node.status || input.fails then (s,none)
    else (s,proceed node.id (candidates s))
  | .team claiming =>
    match Claim.teamFor s.db claiming.candidate.teamId with
    | .error _ => (s,none)
    | .ok team => (s,if input.fails then none else some (.acquire claiming team.id))
  | .acquire claiming team =>
    if input.fails then (s,none)
    else if s.cache.mayAcquire team (Claim.slotLimit s.db team) then
      ({ s with cache := s.cache.acquireSlot team },some (.timeout claiming team))
    else (s,proceed claiming.node claiming.others)
  | .timeout claiming team => (s,some (if input.fails then .release claiming team 0 false else .start claiming team))
  | .start claiming team => (s,some (if input.fails then .release claiming team 0 false else .lockNode claiming team))
  | .lockNode claiming team =>
    if input.fails || (Claim.currentNode s.db claiming.node).isNone then (s,some (.rollback claiming team 0 false))
    else locking s (.node claiming.node) handler (.update claiming team)
  | .update claiming team =>
    if input.fails then (s,some (.release claiming team handler.guards false))
    else if ((s.deployments.find claiming.candidate.id).filter fun row => row.buildStatus = .pending).isNone then
      (s,some (.rollback claiming team handler.guards true))
    else locking s (.deployment claiming.candidate.id) handler (issuing claiming team input.now)
  | .issue claiming team versionId claimedAt =>
    if input.fails || (s.leases.insert (newLease s claiming versionId input.now)).isNone then
      (s,some (.rollback claiming team handler.guards false))
    else ({ s with drawn := s.drawn + 1 },some (.append claiming team claimedAt (some (newLease s claiming versionId input.now))))
  | .append claiming team claimedAt lease => (s,some (.commit claiming team claimedAt lease input.fails))
  | .commit claiming team claimedAt lease aborted =>
    if input.fails then (s.leave handler,some (.release claiming team 0 false))
    else if aborted then ({ s.leave handler with answers := s.answers ++ [answer claiming claimedAt lease] },none)
    else
      match written s claiming claimedAt lease with
      | none => (s.leave handler,some (.release claiming team 0 false))
      | some (deployments,leases) =>
        ({ s.leave handler with
          deployments
          leases
          timeline := s.timeline ++ [claimEvent claiming]
          answers := s.answers ++ [answer claiming claimedAt lease] },none)
  | .rollback claiming team _ goesOn => (s.leave handler,some (.release claiming team 0 (goesOn && !input.fails)))
  | .release claiming team _ goesOn =>
    ({ s.leave handler with cache := s.cache.releaseSlot team },if goesOn then proceed claiming.node claiming.others else none)

def machine : Machine Shared Handler Request Input := ⟨fun request => .list request.node request.capacity,advance⟩

/-- A commit that reports no error is one of a transaction that was not aborted. -/
def Whole (input : Input) (_ : Shared) : Handler → Prop
  | .commit _ _ _ _ aborted => aborted = true → input.fails = true
  | _ => True

instance (input : Input) (s : Shared) : ∀ handler, Decidable (Whole input s handler)
  | .commit _ _ _ _ aborted => inferInstanceAs (Decidable (aborted = true → input.fails = true))
  | .list .. | .team _ | .acquire .. | .timeout .. | .start .. | .lockNode .. | .update .. | .issue .. | .append ..
  | .rollback .. | .release .. => isTrue trivial

def claimedBy (answers : List Answer) (row : Deployment) : Deployment :=
  match answers.find? fun answer => answer.deployment.id = row.id with
  | some answer => setClaimed answer.claimedAt answer.node row
  | none => row

structure Answer.Entitled (answer : Answer) : Prop where
  version : answer.lease.map SourceCredentialLease.credentialVersionId = answer.deployment.sourceCredentialVersionId
  holder : ∀ lease ∈ answer.lease, lease.nodeId = answer.node ∧ lease.deploymentId = answer.deployment.id

/-- The deployments returned are the ones claimed since the start, each once, and each with its lease. -/
structure Answered (start s : Shared) : Prop where
  deployments : s.deployments.rows = start.deployments.rows.map (claimedBy s.answers)
  waiting : ∀ answer ∈ s.answers, answer.deployment ∈ start.deployments.rows ∧ answer.deployment.buildStatus = .pending
  once : (s.answers.map fun answer => answer.deployment.id).Nodup
  leases : s.leases.rows = start.leases.rows ++ s.answers.filterMap Answer.lease
  entitled : ∀ answer ∈ s.answers, answer.Entitled

def returned (s : Shared) (owner : Uuid) : Nat := s.answers.countP fun answer => answer.deployment.teamId = owner

/-- Besides those the calls in flight hold, a slot is held for each deployment that was returned. -/
structure AllOrNothing (start : Shared) (config : Config Shared Handler) : Prop extends Answered start config.shared where
  slots : ∀ owner, config.shared.cache.counter owner =
    start.cache.counter owner + returned config.shared owner + owed (Handler.slots owner) config

def fresh (db : Database) (deployments : Deployments) (leases : Leases) (cache : Cache) (drawn : Nat) : Shared :=
  { db, deployments, leases, cache, drawn }

def Handler.claim : Handler → Option (Claiming × Uuid)
  | .timeout claiming owner | .start claiming owner | .lockNode claiming owner | .update claiming owner
  | .issue claiming owner _ _ | .append claiming owner _ _ | .commit claiming owner _ _ _
  | .rollback claiming owner _ _ | .release claiming owner _ _ => some (claiming,owner)
  | _ => none

def Handler.plain : Handler → Bool
  | .issue .. | .append .. | .commit .. => false
  | _ => true

inductive Acts (input : Input) (s : Shared) : Handler → Shared → Option Handler → Prop
  | waits (handler : Handler) : Acts input s handler s (some handler)
  | ends (handler : Handler) (unheld : handler.claim = none) : Acts input s handler s none
  | listed (node : Node) (capacity : Nat) : Acts input s (.list node capacity) s (proceed node.id (candidates s))
  | found (claiming : Claiming) (owner : Team) (present : Projects.teamById s.db claiming.candidate.teamId = some owner) :
      Acts input s (.team claiming) s (some (.acquire claiming owner.id))
  | denied (claiming : Claiming) (owner : Uuid) : Acts input s (.acquire claiming owner) s (proceed claiming.node claiming.others)
  | acquired (claiming : Claiming) (owner : Uuid) :
      Acts input s (.acquire claiming owner) { s with cache := s.cache.acquireSlot owner } (some (.timeout claiming owner))
  | carried (handler next : Handler) (held : handler.claim.isSome) (same : next.claim = handler.claim)
      (guards : next.guards = handler.guards) (plain : next.plain) : Acts input s handler s (some next)
  | lockedNode (claiming : Claiming) (owner : Uuid) (free : .node claiming.node ∉ s.locks) :
      Acts input s (.lockNode claiming owner) { s with locks := .node claiming.node ::ₘ s.locks } (some (.update claiming owner))
  | lockedDeployment (claiming : Claiming) (owner : Uuid) (row : Deployment)
      (found : s.deployments.find claiming.candidate.id = some row) (waiting : row.buildStatus = .pending)
      (free : .deployment claiming.candidate.id ∉ s.locks) :
      Acts input s (.update claiming owner) { s with locks := .deployment claiming.candidate.id ::ₘ s.locks }
        (some (issuing claiming owner input.now))
  | issued (claiming : Claiming) (owner versionId : Uuid) (claimedAt : Timestamp) :
      Acts input s (.issue claiming owner versionId claimedAt) { s with drawn := s.drawn + 1 }
        (some (.append claiming owner claimedAt (some (newLease s claiming versionId input.now))))
  | appended (claiming : Claiming) (owner : Uuid) (claimedAt : Timestamp) (lease : Option SourceCredentialLease) (aborted : Bool) :
      Acts input s (.append claiming owner claimedAt lease) s (some (.commit claiming owner claimedAt lease aborted))
  | vanished (claiming : Claiming) (owner : Uuid) (claimedAt : Timestamp) (lease : Option SourceCredentialLease)
      (succeeds : input.fails = false) : Acts input s (.commit claiming owner claimedAt lease true)
        { s with locks := s.locks - claiming.locks, answers := s.answers ++ [answer claiming claimedAt lease] } none
  | committed (claiming : Claiming) (owner : Uuid) (claimedAt : Timestamp) (lease : Option SourceCredentialLease)
      (deployments : Deployments) (leases : Leases)
      (updated : s.deployments.update claiming.candidate.id (setClaimed claimedAt claiming.node) (fun _ => rfl) = some deployments)
      (inserted : insertLease s.leases lease = some leases) : Acts input s (.commit claiming owner claimedAt lease false)
        { s with
          deployments
          leases
          timeline := s.timeline ++ [claimEvent claiming]
          locks := s.locks - claiming.locks
          answers := s.answers ++ [answer claiming claimedAt lease] } none
  | abandoned (handler : Handler) (claiming : Claiming) (owner : Uuid) (goesOn : Bool) (held : handler.claim = some (claiming,owner)) :
      Acts input s handler (s.leave handler) (some (.release claiming owner 0 goesOn))
  | released (claiming : Claiming) (owner : Uuid) (held : Multiset Lock) (goesOn : Bool) (rest : Option Handler)
      (goes : rest = none ∨ rest = proceed claiming.node claiming.others) : Acts input s (.release claiming owner held goesOn)
        { s with locks := s.locks - held, cache := s.cache.releaseSlot owner } rest

theorem acts_locking {input : Input} {s : Shared} {handler next : Handler} {lock : Lock}
    (free : lock ∉ s.locks → Acts input s handler { s with locks := lock ::ₘ s.locks } (some next)) :
    Acts input s handler (locking s lock handler next).1 (locking s lock handler next).2 := by
  unfold locking
  split
  · exact .waits handler
  · rename_i unlocked
    exact free unlocked

theorem act_acts (input : Input) (s : Shared) (handler : Handler) :
    Acts input s handler (advance input s handler).1 (advance input s handler).2 := by
  cases handler with
  | list node capacity =>
    unfold advance
    dsimp only
    split
    · exact .ends _ rfl
    · exact .listed node capacity
  | team claiming =>
    cases present : Projects.teamById s.db claiming.candidate.teamId with
    | none =>
      simp only [advance,Claim.teamFor,present]
      exact .ends _ rfl
    | some owner =>
      simp only [advance,Claim.teamFor,present]
      split
      · exact .ends _ rfl
      · exact .found claiming owner present
  | acquire claiming owner =>
    unfold advance
    dsimp only
    split
    · exact .ends _ rfl
    · split
      · exact .acquired claiming owner
      · exact .denied claiming owner
  | timeout claiming owner =>
    unfold advance
    dsimp only
    split
    · exact .carried _ _ rfl rfl rfl rfl
    · exact .carried _ _ rfl rfl rfl rfl
  | start claiming owner =>
    unfold advance
    dsimp only
    split
    · exact .carried _ _ rfl rfl rfl rfl
    · exact .carried _ _ rfl rfl rfl rfl
  | lockNode claiming owner =>
    unfold advance
    dsimp only
    split
    · exact .carried _ _ rfl rfl rfl rfl
    · exact acts_locking (.lockedNode claiming owner)
  | update claiming owner =>
    unfold advance
    dsimp only
    split
    · exact .carried _ _ rfl rfl rfl rfl
    · cases found : (s.deployments.find claiming.candidate.id).filter fun row => row.buildStatus = .pending with
      | none => exact .carried _ _ rfl rfl rfl rfl
      | some row =>
        obtain ⟨present,waiting⟩ := Option.filter_eq_some_iff.mp found
        exact acts_locking (.lockedDeployment claiming owner row present (of_decide_eq_true waiting))
  | issue claiming owner versionId claimedAt =>
    unfold advance
    dsimp only
    split
    · exact .carried _ _ rfl rfl rfl rfl
    · exact .issued claiming owner versionId claimedAt
  | append claiming owner claimedAt lease => exact .appended claiming owner claimedAt lease input.fails
  | commit claiming owner claimedAt lease aborted =>
    unfold advance
    cases fails : input.fails with
    | true => exact .abandoned _ claiming owner false rfl
    | false =>
      cases aborted with
      | true => exact .vanished claiming owner claimedAt lease fails
      | false =>
        simp only [Bool.false_eq_true,if_false]
        cases writes : written s claiming claimedAt lease with
        | none => exact .abandoned _ claiming owner false rfl
        | some pair =>
          obtain ⟨deployments,updated,rest⟩ := Option.bind_eq_some_iff.mp writes
          obtain ⟨leases,inserted,same⟩ := Option.bind_eq_some_iff.mp rest
          cases same
          exact .committed claiming owner claimedAt lease deployments leases updated inserted
  | rollback claiming owner held goesOn => exact .abandoned _ claiming owner _ rfl
  | release claiming owner held goesOn =>
    refine .released claiming owner held goesOn _ ?_
    cases goesOn with
    | true => exact .inr rfl
    | false => exact .inl rfl

/-! What a call knows. -/

def Candidates (start : Shared) (rows : List Deployment) : Prop :=
  ∀ row ∈ rows, row ∈ start.deployments.rows ∧ row.buildStatus = .pending

/-- The candidate of a call, of the team whose slot it has or is about to have. -/
structure Claims (start : Shared) (claiming : Claiming) (owner : Uuid) : Prop where
  candidates : Candidates start (claiming.candidate :: claiming.others)
  owner : owner = claiming.candidate.teamId

def Unanswered (s : Shared) (claiming : Claiming) : Prop := ∀ answer ∈ s.answers, answer.deployment.id ≠ claiming.candidate.id

def Relies (start s : Shared) : Handler → Prop
  | .list .. => True
  | .team claiming => Candidates start (claiming.candidate :: claiming.others)
  | .issue claiming owner versionId _ =>
    Claims start claiming owner ∧ claiming.candidate.sourceCredentialVersionId = some versionId ∧ Unanswered s claiming
  | .append claiming owner claimedAt lease | .commit claiming owner claimedAt lease _ =>
    Claims start claiming owner ∧ (answer claiming claimedAt lease).Entitled ∧ Unanswered s claiming
  | .acquire claiming owner | .timeout claiming owner | .start claiming owner | .lockNode claiming owner
  | .update claiming owner | .rollback claiming owner _ _ | .release claiming owner _ _ => Claims start claiming owner

section Steps
variable {start : Shared} {input : Input} {s s' : Shared} {handler other : Handler} {remaining : Option Handler}

theorem Relies.claims (relies : Relies start s handler) {claiming : Claiming} {owner : Uuid}
    (held : handler.claim = some (claiming,owner)) : Claims start claiming owner := by
  cases handler with
  | list | team | acquire => cases held
  | issue | append | commit =>
    cases held
    exact relies.1
  | _ =>
    cases held
    exact relies

theorem Claims.relies {claiming : Claiming} {owner : Uuid} (claims : Claims start claiming owner) (plain : handler.plain)
    (held : handler.claim = some (claiming,owner)) : Relies start s handler := by
  cases handler with
  | list | team | acquire => cases held
  | issue | append | commit => cases plain
  | _ =>
    cases held
    exact claims

theorem proceed_relies (node : Uuid) {rows : List Deployment} (candidates : Candidates start rows) :
    ∀ next, proceed node rows = some next → Relies start s next := by
  intro next goes
  cases rows with
  | nil => cases goes
  | cons candidate others =>
    cases goes
    exact candidates

theorem claimedBy_id (answers : List Answer) (row : Deployment) : (claimedBy answers row).id = row.id := by
  unfold claimedBy
  split <;> rfl

theorem claimedBy_unanswered {answers : List Answer} {row : Deployment} (unanswered : ∀ answer ∈ answers, answer.deployment.id ≠ row.id) :
    claimedBy answers row = row := by
  unfold claimedBy
  have none' : (answers.find? fun answer => answer.deployment.id = row.id) = none := by
    rw [List.find?_eq_none]
    exact fun answer member same => unanswered answer member (of_decide_eq_true same)
  rw [none']

theorem unanswered_of_waiting {answers : List Answer} {row : Deployment} (waiting : (claimedBy answers row).buildStatus = .pending) :
    ∀ answer ∈ answers, answer.deployment.id ≠ row.id := by
  intro answer member same
  unfold claimedBy at waiting
  split at waiting
  · cases waiting
  · rename_i missing
    exact List.find?_eq_none.mp missing answer member (decide_eq_true same)

theorem claimedBy_append {answers : List Answer} {last : Answer} {row : Deployment}
    (unanswered : ∀ answer ∈ answers, answer.deployment.id ≠ last.deployment.id) : claimedBy (answers ++ [last]) row =
      if row.id = last.deployment.id then setClaimed last.claimedAt last.node (claimedBy answers row) else claimedBy answers row := by
  by_cases here : row.id = last.deployment.id
  · have before : ∀ answer ∈ answers, answer.deployment.id ≠ row.id := by
      rw [here]
      exact unanswered
    have none' : (answers.find? fun answer => answer.deployment.id = row.id) = none := by
      rw [List.find?_eq_none]
      exact fun answer member same => before answer member (of_decide_eq_true same)
    have found : ([last].find? fun answer => answer.deployment.id = row.id) = some last := by simp [here]
    rw [if_pos here,claimedBy_unanswered before]
    unfold claimedBy
    rw [List.find?_append,none',Option.none_or,found]
  · have missing : ([last].find? fun answer => answer.deployment.id = row.id) = none := by simp [Ne.symm here]
    rw [if_neg here]
    unfold claimedBy
    rw [List.find?_append,missing,Option.or_none]

theorem Answered.waiting_row (answered : Answered start s) {row : Deployment} (member : row ∈ s.deployments.rows)
    (waiting : row.buildStatus = .pending) :
    row ∈ start.deployments.rows ∧ ∀ answer ∈ s.answers, answer.deployment.id ≠ row.id := by
  rw [answered.deployments] at member
  obtain ⟨first,inside,rfl⟩ := List.mem_map.mp member
  have unanswered := unanswered_of_waiting waiting
  rw [claimedBy_unanswered unanswered]
  exact ⟨inside,unanswered⟩

theorem acts_relies (acts : Acts input s handler s' remaining) (answered : Answered start s) (relies : Relies start s handler) :
    ∀ next, remaining = some next → Relies start s' next := by
  intro next goes
  cases acts with
  | waits =>
    cases goes
    exact relies
  | ends | vanished | committed => cases goes
  | listed node capacity =>
    refine proceed_relies node.id ?_ next goes
    intro row member
    have inside := (List.mem_insertionSort _).mp (List.mem_of_mem_take member)
    obtain ⟨present,claimable⟩ := List.mem_filter.mp inside
    have waiting : row.buildStatus = .pending := (of_decide_eq_true claimable).1
    exact ⟨(answered.waiting_row present waiting).1,waiting⟩
  | found claiming owner present =>
    cases goes
    exact ⟨relies,Table.find_key (Option.filter_eq_some_iff.mp present).1⟩
  | denied claiming owner => exact proceed_relies _ (fun row member => relies.candidates row (List.mem_cons_of_mem _ member)) next goes
  | acquired claiming owner =>
    cases goes
    exact relies
  | carried handler next held same guards plain =>
    cases goes
    obtain ⟨⟨claiming,owner⟩,concerns⟩ := Option.isSome_iff_exists.mp held
    exact (relies.claims concerns).relies plain (same.trans concerns)
  | lockedNode claiming owner free =>
    cases goes
    exact relies
  | lockedDeployment claiming owner row found waiting free =>
    cases goes
    have unanswered : Unanswered s claiming := by
      have same : row.id = claiming.candidate.id := ((s.deployments.find_eq_some_iff _ _).mp found).2
      unfold Unanswered
      rw [← same]
      exact (answered.waiting_row (Table.find_mem found) waiting).2
    unfold issuing
    split
    · rename_i versionId version
      exact ⟨relies,version,unanswered⟩
    · rename_i none'
      exact ⟨relies,⟨none'.symm,nofun⟩,unanswered⟩
  | issued claiming owner versionId claimedAt =>
    cases goes
    obtain ⟨claims,version,unanswered⟩ := relies
    refine ⟨claims,⟨version.symm,?_⟩,unanswered⟩
    rintro lease ⟨⟩
    exact ⟨rfl,rfl⟩
  | appended claiming owner claimedAt lease aborted =>
    cases goes
    exact relies
  | abandoned handler claiming owner goesOn held =>
    cases goes
    exact relies.claims held
  | released claiming owner held goesOn rest ends =>
    rcases ends with none' | goesOn
    · rw [none'] at goes
      cases goes
    · rw [goesOn] at goes
      exact proceed_relies _ (fun row member => relies.candidates row (List.mem_cons_of_mem _ member)) next goes

theorem acts_answered (acts : Acts input s handler s' remaining) (whole : Whole input s handler) (answered : Answered start s)
    (relies : Relies start s handler) : Answered start s' := by
  cases acts with
  | vanished claiming owner claimedAt lease succeeds =>
    have fails := whole rfl
    rw [succeeds] at fails
    cases fails
  | committed claiming owner claimedAt lease deployments leases updated inserted =>
    obtain ⟨claims,entitled,unanswered⟩ := relies
    constructor
    · change deployments.rows = _
      rw [Table.rows_update updated,answered.deployments,List.map_map]
      apply List.map_congr_left
      intro row _
      change (if (claimedBy s.answers row).id = claiming.candidate.id then _ else _) = claimedBy (s.answers ++ [answer claiming claimedAt lease]) row
      rw [@claimedBy_append s.answers (answer claiming claimedAt lease) row unanswered,claimedBy_id]
      rfl
    · intro last member
      rcases List.mem_append.mp member with old | new
      · exact answered.waiting last old
      · rw [List.mem_singleton.mp new]
        exact claims.candidates _ List.mem_cons_self
    · change ((s.answers ++ [answer claiming claimedAt lease]).map fun answer => answer.deployment.id).Nodup
      rw [List.map_append,List.map_singleton,List.nodup_append]
      refine ⟨answered.once,List.nodup_singleton _,?_⟩
      intro id listed last same equal
      obtain ⟨earlier,member,rfl⟩ := List.mem_map.mp listed
      rw [List.mem_singleton.mp same] at equal
      exact unanswered earlier member equal
    · change leases.rows = start.leases.rows ++ (s.answers ++ [answer claiming claimedAt lease]).filterMap Answer.lease
      rw [List.filterMap_append,← List.append_assoc,← answered.leases]
      cases lease with
      | none =>
        cases inserted
        exact (List.append_nil _).symm
      | some lease => exact Table.rows_insert inserted
    · intro last member
      rcases List.mem_append.mp member with old | new
      · exact answered.entitled last old
      · rw [List.mem_singleton.mp new]
        exact entitled
  | _ => exact ⟨answered.deployments,answered.waiting,answered.once,answered.leases,answered.entitled⟩

theorem Claiming.mem_locks (claiming : Claiming) : Lock.deployment claiming.candidate.id ∈ claiming.locks := by
  unfold Claiming.locks
  exact Multiset.mem_cons_self _ _

theorem Relies.apart (acts : Acts input s handler s' remaining) (apart : Apart Handler.guards Shared.locks s handler other)
    (relies : Relies start s other) : Relies start s' other := by
  have answers : s'.answers = s.answers ∨ ∃ (claiming : Claiming) (last : Answer), Lock.deployment claiming.candidate.id ∈ handler.guards ∧
      s'.answers = s.answers ++ [last] ∧ last.deployment.id = claiming.candidate.id := by
    cases acts with
    | vanished claiming owner claimedAt lease succeeds =>
      exact .inr ⟨claiming,_,claiming.mem_locks,rfl,rfl⟩
    | committed claiming owner claimedAt lease =>
      exact .inr ⟨claiming,_,claiming.mem_locks,rfl,rfl⟩
    | _ => exact .inl rfl
  have unanswered : ∀ claiming : Claiming, Lock.deployment claiming.candidate.id ∈ other.guards → Unanswered s claiming → Unanswered s' claiming := by
    intro claiming mine before answer member
    rcases answers with same | ⟨theirs,last,held,appended,about⟩
    · rw [same] at member
      exact before answer member
    · rw [appended] at member
      rcases List.mem_append.mp member with old | new
      · exact before answer old
      · rw [List.mem_singleton.mp new,about]
        intro equal
        rw [equal] at held
        exact Multiset.disjoint_left.mp apart.2 held mine
  cases other with
  | issue claiming owner versionId claimedAt =>
    exact ⟨relies.1,relies.2.1,unanswered claiming claiming.mem_locks relies.2.2⟩
  | append claiming owner claimedAt lease => exact ⟨relies.1,relies.2.1,unanswered claiming claiming.mem_locks relies.2.2⟩
  | commit claiming owner claimedAt lease aborted =>
    exact ⟨relies.1,relies.2.1,unanswered claiming claiming.mem_locks relies.2.2⟩
  | _ => exact relies

theorem proceed_guards (node : Uuid) (rows : List Deployment) : rest Handler.guards (proceed node rows) = 0 := by
  cases rows <;> rfl

theorem proceed_slots (owner node : Uuid) (rows : List Deployment) : rest (Handler.slots owner) (proceed node rows) = 0 := by
  cases rows <;> rfl

theorem issuing_guards (claiming : Claiming) (owner : Uuid) (claimedAt : Timestamp) :
    (issuing claiming owner claimedAt).guards = claiming.locks := by
  unfold issuing
  split <;> rfl

theorem act_locking (held : handler.guards ≤ s.locks) (acts : Acts input s handler s' remaining) :
    Locking s.locks handler.guards s'.locks (rest Handler.guards remaining) := by
  cases acts with
  | waits => exact .keep
  | ends handler unheld =>
    have free : handler.guards = 0 := by
      cases handler with
      | list | team | acquire => rfl
      | _ => cases unheld
    rw [free]
    exact .keep
  | listed | denied =>
    rw [proceed_guards]
    exact .keep
  | carried handler next held same guards plain =>
    rw [rest_some,guards]
    exact .keep
  | lockedNode claiming owner free => exact .take _ free
  | lockedDeployment claiming owner row found waiting free =>
    rw [rest_some,issuing_guards]
    exact .take _ free
  | vanished | committed | abandoned => exact .leave _ (Multiset.sub_add_cancel held)
  | released claiming owner held' goesOn remaining goes =>
    have none' : rest Handler.guards remaining = 0 := by
      rcases goes with rfl | rfl
      · rfl
      · exact proceed_guards _ _
    rw [none']
    exact .leave _ (Multiset.sub_add_cancel held)
  | _ => exact .keep

theorem Handler.slots_of_claim {claiming : Claiming} {owner : Uuid} (held : handler.claim = some (claiming,owner)) (wanted : Uuid) :
    handler.slots wanted = if owner = wanted then 1 else 0 := by
  have slot : handler.slot = some owner := by
    cases handler with
    | list | team | acquire => cases held
    | _ =>
      cases held
      rfl
  unfold Handler.slots
  rw [slot]
  simp only [Option.some.injEq]

theorem Handler.slots_nonneg (wanted : Uuid) (handler : Handler) : 0 ≤ handler.slots wanted := by
  unfold Handler.slots
  split <;> decide

theorem returned_append {claiming : Claiming} {owner : Uuid} (claims : Claims start claiming owner) {claimedAt : Timestamp}
    {lease : Option SourceCredentialLease} (same : s'.answers = s.answers ++ [answer claiming claimedAt lease]) (wanted : Uuid) :
    (returned s' wanted : Int) = returned s wanted + if owner = wanted then 1 else 0 := by
  unfold returned
  rw [same,List.countP_append,List.countP_singleton,claims.owner]
  by_cases here : claiming.candidate.teamId = wanted <;> simp [answer,here]

theorem act_slots (acts : Acts input s handler s' remaining) (relies : Relies start s handler) (wanted : Uuid)
    (enough : handler.slots wanted ≤ s.cache.counter wanted) :
    s'.cache.counter wanted - returned s' wanted + handler.slots wanted =
      s.cache.counter wanted - returned s wanted + rest (Handler.slots wanted) remaining := by
  cases acts with
  | waits | found | appended => rfl
  | ends handler unheld =>
    have none' : handler.slots wanted = 0 := by
      cases handler with
      | list | team | acquire => rfl
      | _ => cases unheld
    rw [none']
    rfl
  | listed | denied =>
    rw [proceed_slots]
    rfl
  | acquired claiming owner =>
    change (s.cache.acquireSlot owner).counter wanted - (returned s wanted : Int) + 0 = _ + Handler.slots wanted (.timeout claiming owner)
    rw [Cache.counter_acquireSlot,@Handler.slots_of_claim (.timeout claiming owner) claiming owner rfl]
    simp only [eq_comm (a := wanted)]
    omega
  | carried handler next held same =>
    obtain ⟨⟨claiming,owner⟩,concerns⟩ := Option.isSome_iff_exists.mp held
    rw [rest_some,Handler.slots_of_claim concerns,Handler.slots_of_claim (same.trans concerns)]
  | lockedNode claiming owner => rfl
  | lockedDeployment claiming owner row =>
    have claim : (issuing claiming owner input.now).claim = some (claiming,owner) := by
      unfold issuing
      split <;> rfl
    rw [rest_some,Handler.slots_of_claim claim,@Handler.slots_of_claim (.update claiming owner) claiming owner rfl]
    rfl
  | issued claiming owner => rfl
  | vanished claiming owner claimedAt lease succeeds =>
    have count := @returned_append start s { s with locks := s.locks - claiming.locks, answers := s.answers ++ [answer claiming claimedAt lease] }
      claiming owner relies.1 claimedAt lease rfl wanted
    rw [count,@Handler.slots_of_claim (.commit claiming owner claimedAt lease true) claiming owner rfl,rest_none]
    dsimp only
    omega
  | committed claiming owner claimedAt lease deployments leases updated inserted =>
    have count := @returned_append start s { s with
        deployments
        leases
        timeline := s.timeline ++ [claimEvent claiming]
        locks := s.locks - claiming.locks
        answers := s.answers ++ [answer claiming claimedAt lease] } claiming owner relies.1 claimedAt lease rfl wanted
    rw [count,@Handler.slots_of_claim (.commit claiming owner claimedAt lease false) claiming owner rfl,rest_none]
    dsimp only
    omega
  | abandoned handler claiming owner goesOn held =>
    rw [Handler.slots_of_claim held,rest_some,@Handler.slots_of_claim (.release claiming owner 0 goesOn) claiming owner rfl]
    rfl
  | released claiming owner held goesOn remaining goes =>
    have none' : rest (Handler.slots wanted) remaining = 0 := by
      rcases goes with rfl | rfl
      · rfl
      · exact proceed_slots _ _ _
    rw [@Handler.slots_of_claim (.release claiming owner held goesOn) claiming owner rfl] at enough
    rw [none',@Handler.slots_of_claim (.release claiming owner held goesOn) claiming owner rfl]
    change (s.cache.releaseSlot owner).counter wanted - (returned s wanted : Int) + _ = _
    rw [Cache.counter_releaseSlot]
    by_cases here : owner = wanted
    · rw [if_pos here] at enough
      rw [if_pos here,if_pos here.symm]
      omega
    · rw [if_neg here,if_neg (Ne.symm here)]

end Steps

/-! Runs. -/

section Runs
variable {start : Shared} {config : Config Shared Handler}

structure Kept (start : Shared) (config : Config Shared Handler) : Prop where
  holds : Holds (Answered start) (Relies start) config
  guarded : Guarded Handler.guards Shared.locks config
  slots : ∀ owner, owed (Handler.slots owner) config =
    config.shared.cache.counter owner - returned config.shared owner - start.cache.counter owner

theorem Kept.allOrNothing (kept : Kept start config) : AllOrNothing start config := by
  refine ⟨kept.holds.state,fun owner => ?_⟩
  have slots := kept.slots owner
  omega

theorem Kept.enough (kept : Kept start config) (valid : ∀ owner, 0 ≤ start.cache.counter owner) {index : Nat} {handler : Handler}
    (found : config.inflight[index]? = some handler) (owner : Uuid) : handler.slots owner ≤ config.shared.cache.counter owner := by
  have slots := kept.slots owner
  rw [owed_eq (Handler.slots owner) found] at slots
  have others : 0 ≤ owedElsewhere (Handler.slots owner) config index := by
    apply List.sum_nonneg
    intro value member
    obtain ⟨other,_,rfl⟩ := List.mem_map.mp member
    exact other.slots_nonneg owner
  have before := valid owner
  omega

theorem Kept.step (kept : Kept start config) (valid : ∀ owner, 0 ≤ start.cache.counter owner) (event : Event Request Input)
    (whole : Acting Whole config event) : Kept start (machine.step config event) := by
  constructor
  · refine Holds.step_apart (fun _ _ _ => trivial) ?_ ?_ config event kept.holds (kept.guarded.acting_apart event whole)
    · intro input s handler whole answered relies
      have acts := act_acts input s handler
      exact ⟨acts_answered acts whole answered relies,acts_relies acts answered relies⟩
    · intro input s handler other whole apart answered relies relied
      exact Relies.apart (act_acts input s handler) apart relied
  · exact Guarded.step_locking (fun _ => rfl) (fun input s handler held => act_locking held (act_acts input s handler)) event kept.guarded
  · intro owner
    cases event with
    | arrive request =>
      rw [owed_arrive]
      exact (add_zero _).trans (kept.slots owner)
    | resume index input =>
      cases found : config.inflight[index]? with
      | none =>
        simp only [Machine.step,found]
        exact kept.slots owner
      | some handler =>
        have moves := act_slots (act_acts input config.shared handler) (kept.holds.handlers handler (List.mem_of_getElem? found)) owner
          (kept.enough valid found owner)
        refine balanced_resume machine (Handler.slots owner)
          (fun s => s.cache.counter owner - returned s owner - start.cache.counter owner) input found (kept.slots owner) ?_
        change (advance input config.shared handler).1.cache.counter owner - (returned (advance input config.shared handler).1 owner : Int) -
          _ + _ = _ - _ - _ + rest _ (advance input config.shared handler).2
        omega

theorem Kept.whole (kept : Kept start config) (event : Event Request Input) (after : AllOrNothing start (machine.step config event)) :
    Acting Whole config event := by
  cases event with
  | arrive request => trivial
  | resume index input =>
    intro handler found
    cases handler with
    | commit claiming owner claimedAt lease aborted =>
      intro dead
      by_contra succeeds
      have relies := kept.holds.handlers _ (List.mem_of_getElem? found)
      have outcome : (machine.step config (.resume index input)).shared = { config.shared.leave (.commit claiming owner claimedAt lease aborted) with
          answers := config.shared.answers ++ [answer claiming claimedAt lease] } := by
        simp only [Machine.step,found]
        change (advance input config.shared (.commit claiming owner claimedAt lease aborted)).1 = _
        unfold advance
        dsimp only
        rw [if_neg succeeds,if_pos dead]
      have rows := after.deployments
      rw [outcome] at rows
      change config.shared.deployments.rows = _ at rows
      rw [kept.holds.state.deployments,List.map_inj_left] at rows
      obtain ⟨inside,waiting⟩ := relies.1.candidates claiming.candidate List.mem_cons_self
      have same := rows claiming.candidate inside
      rw [@claimedBy_append config.shared.answers (answer claiming claimedAt lease) claiming.candidate relies.2.2,
        claimedBy_unanswered relies.2.2] at same
      change claiming.candidate = if claiming.candidate.id = claiming.candidate.id then _ else _ at same
      rw [if_pos rfl] at same
      have status := congrArg (fun row : Deployment => row.buildStatus) same
      rw [waiting] at status
      cases status
    | _ => trivial

theorem kept_fresh (db : Database) (deployments : Deployments) (leases : Leases) (cache : Cache) (drawn : Nat) :
    Kept (fresh db deployments leases cache drawn) ⟨fresh db deployments leases cache drawn,[]⟩ := by
  constructor
  · constructor
    · constructor
      · exact (List.map_id _).symm
      · exact fun _ impossible => absurd impossible List.not_mem_nil
      · exact List.nodup_nil
      · exact (List.append_nil _).symm
      · exact fun _ impossible => absurd impossible List.not_mem_nil
    · exact fun _ impossible => absurd impossible List.not_mem_nil
  · exact ⟨rfl,Multiset.nodup_zero⟩
  · intro owner
    change (0 : Int) = cache.counter owner - 0 - cache.counter owner
    omega

end Runs

theorem claims_all_or_nothing_iff (db : Database) (deployments : Deployments) (leases : Leases) (cache : Cache) (drawn : Nat)
    (valid : ∀ owner, 0 ≤ cache.counter owner) (events : List (Event Request Input)) :
    let start := fresh db deployments leases cache drawn
    Throughout machine.step (AllOrNothing start) ⟨start,[]⟩ events ↔ Along machine.step (Acting Whole) ⟨start,[]⟩ events := by
  intro start
  have initial : Kept start ⟨start,[]⟩ := kept_fresh db deployments leases cache drawn
  constructor
  · intro holds
    have kept : ∀ config event, Kept start config → AllOrNothing start (machine.step config event) → Kept start (machine.step config event) :=
      fun config event kept after => kept.step valid event (kept.whole event after)
    exact along_of_invariant kept (fun config event kept after => kept.whole event after) _ events initial holds.2
  · intro whole
    exact throughout_of_invariant (fun config event kept whole => kept.step valid event whole) (fun config kept => kept.allOrNothing) _ events
      initial whole

section Examples

def builder (id : Uuid) : Node where
  id := id
  region := "eu"
  status := .active
  buildEnabled := true
  serveEnabled := false
  baseUrl := none
  capacityCpuMillicores := 4000
  capacityMemoryMb := 8192
  capacityDiskMb := 65536
  maxDeployments := 50
  lastHeartbeatAt := some 0

def queued : Deployment where
  id := 5
  projectId := 3
  teamId := 2
  region := "eu"
  serveNodeId := none
  environment := .production
  runtimeKind := .static
  serveCpuMillicores := 0
  serveMemoryMb := 64
  serveDiskMb := 512
  overcommitted := false
  previewHost := none
  createdAt := 10
  sourceCredentialVersionId := some 8

def twoBuilders : Database where
  teams := .single { id := 2 } List.nodup_nil
  nodes := ⟨[builder 6,builder 7],by decide,by decide⟩

def oneQueued : Shared := fresh twoBuilders ⟨[queued],by decide,by decide⟩ ∅ Cache.empty 20

def claimBy (node : Uuid) (recorded : Bool) : List (Event Request Input) :=
  .arrive ⟨builder node,1⟩ :: (List.replicate 8 (.resume 0 { now := 30 }) ++
    [.resume 0 { now := 30, fails := !recorded },.resume 0 { now := 30 }])

/-- The event of the first claim is not recorded: both nodes are given the deployment, and both slots stay taken. -/
theorem deployment_handed_to_two_nodes : let events := claimBy 6 false ++ claimBy 7 true
    let final := run machine.step ⟨oneQueued,[]⟩ events
    ¬Throughout machine.step (AllOrNothing oneQueued) ⟨oneQueued,[]⟩ events ∧ final.inflight.length = 0 ∧
      final.shared.answers.map (fun answer => (answer.node,answer.deployment.id)) = [(6,5),(7,5)] ∧
      final.shared.cache.counter 2 = 2 := by
  refine ⟨fun holds => ?_,by decide,by decide,by decide⟩
  have once := holds.last.once
  revert once
  decide

theorem deployment_handed_out_once : Throughout machine.step (AllOrNothing oneQueued) ⟨oneQueued,[]⟩ (claimBy 6 true ++ claimBy 7 true) := by
  apply (claims_all_or_nothing_iff twoBuilders ⟨[queued],by decide,by decide⟩ ∅ Cache.empty 20 (fun _ => Int.le_refl 0) _).mpr
  decide

end Examples

end GrassWorker.ClaimTransactions
