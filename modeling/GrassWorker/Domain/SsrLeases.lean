import GrassWorker.Domain.Projects
import GrassWorker.Domain.Quotas

/-! Leases of SSR processes and of their hourly blocks. -/
namespace GrassWorker.SsrLeases
open Transaction Deployments Quotas

structure SsrProcessLease where
  id : Uuid
  deploymentId : Uuid
  teamId : Uuid
  nodeId : Uuid
  startedAt : Timestamp
  renewedAt : Timestamp
  expiresAt : Timestamp
  hourBlockStart : Timestamp
  releasedAt : Option Timestamp
deriving DecidableEq

/-- `uq_ssr_process_leases_active_deployment_node`. -/
def SsrProcessLease.entries (lease : SsrProcessLease) : List (Uuid × Uuid) :=
  if lease.releasedAt.isNone then [(lease.deploymentId,lease.nodeId)] else []

abbrev Leases := Table SsrProcessLease (·.id) SsrProcessLease.entries

structure Leasing where
  rows : Database := {}
  leases : Leases := ∅
  ledger : Ledger := {}

inductive LeaseError
  | notAssigned | processQuota | hourQuota | notFound | wrongNode | database
deriving DecidableEq, Repr

abbrev Leased (α : Type) := Transaction Leasing LeaseError α

def seconds (n : Int) : Int := n * 1000000

def leaseTtl : Int := seconds 90
def hourBlock : Int := seconds 3600

def unixTimestamp (time : Timestamp) : Int := time / 1000000

/-! The events of a lease, with the keys they are recorded once under. -/

abbrev KeyedEvent := IdempotencyKey × RecordEventParams

def leaseEvent (lease : SsrProcessLease) (dimension : QuotaDimension) (kind : QuotaEventKind) (deltaValue : Int) :
    RecordEventParams where
  teamId := lease.teamId
  dimension := dimension
  kind := kind
  deltaValue := deltaValue
  resourceType := some "ssr_process_lease"
  resourceId := some lease.id

def recordBlock (lease : SsrProcessLease) : KeyedEvent :=
  (.ssrHour lease.id (unixTimestamp lease.hourBlockStart),leaseEvent lease .ssrHoursMonthly .consume 1)

def releaseProcessEvent (lease : SsrProcessLease) : KeyedEvent :=
  (.ssrProcessRelease lease.id,leaseEvent lease .ssrProcesses .release (-1))

def recordProcessEvent (lease : SsrProcessLease) : KeyedEvent :=
  (.ssrProcess lease.id,leaseEvent lease .ssrProcesses .consume 1)

def releaseBlockEvent (lease : SsrProcessLease) : KeyedEvent :=
  (.ssrHourRelease lease.id (unixTimestamp lease.hourBlockStart),leaseEvent lease .ssrHoursMonthly .release (-1))

section Calls
variable (calendar : Calendar) (limits : Uuid → Limits)

def recordAll (now : Timestamp) (state : Leasing) : List KeyedEvent → Leasing × Option LeaseError
  | [] => (state,none)
  | (key,params) :: rest =>
    match state.ledger.recordEventOnce calendar key params now with
    | none => (state,some .database)
    | some (_,ledger) => recordAll now { state with ledger := ledger } rest

def perform {α : Type} (transaction : Leased (α × List KeyedEvent)) (now : Timestamp) (state : Leasing) :
    Leasing × Except LeaseError α :=
  match transaction state with
  | .error error => (state,.error error)
  | .ok ((value,events),after) =>
    match recordAll calendar now after events with
    | (final,none) => (final,.ok value)
    | (final,some error) => (final,.error error)

/-! The queries of `acquire`. -/

def expiredLease (state : Leasing) (deploymentId nodeId : Uuid) (now : Timestamp) : Option SsrProcessLease :=
  state.leases.rows.find? fun lease => lease.deploymentId = deploymentId ∧ lease.nodeId = nodeId ∧
    lease.releasedAt = none ∧ lease.expiresAt ≤ now

def unreleasedLease (state : Leasing) (deploymentId nodeId : Uuid) : Option SsrProcessLease :=
  state.leases.rows.find? fun lease => lease.deploymentId = deploymentId ∧ lease.nodeId = nodeId ∧ lease.releasedAt = none

def live (teamId : Uuid) (now : Timestamp) (lease : SsrProcessLease) : Bool :=
  lease.teamId = teamId ∧ lease.releasedAt = none ∧ now < lease.expiresAt

def processCount (state : Leasing) (teamId : Uuid) (now : Timestamp) : Nat := state.leases.rows.countP (live teamId now)

def exhausted (limit : Option Int) (usage : Int) : Bool := limit.any (· ≤ usage)

def hourUsage (state : Leasing) (teamId : Uuid) (now : Timestamp) : Int :=
  state.ledger.durableUsage calendar teamId .ssrHoursMonthly now

def assigned (deployment : Deployment) (nodeId : Uuid) : Bool :=
  deployment.runtimeKind = .ssr ∧ deployment.serveNodeId = some nodeId ∧ deployment.buildStatus = .ready ∧
    deployment.releaseStatus ≠ .rejected

inductive Admission
  | existing (lease : SsrProcessLease)
  /-- A lease may be inserted; `count` of the team's leases were live. -/
  | admitted (teamId : Uuid) (count : Nat)
deriving DecidableEq

/-- What `acquire` reads once an expired lease is out of the way. -/
def admission (deployment : Deployment) (nodeId : Uuid) (now : Timestamp) (state : Leasing) : Except LeaseError Admission :=
  match unreleasedLease state deployment.id nodeId with
  | some existing => .ok (.existing existing)
  | none =>
    match Projects.teamById state.rows deployment.teamId with
    | none => .error .notAssigned
    | some team =>
      if exhausted (limitFor (limits team.id) .ssrProcesses) (processCount state team.id now) then .error .processQuota
      else if exhausted (limitFor (limits team.id) .ssrHoursMonthly) (hourUsage calendar state team.id now) then .error .hourQuota
      else .ok (.admitted team.id (processCount state team.id now))

def updateLease (id : Uuid) (change : SsrProcessLease → SsrProcessLease) (keeps : ∀ row, (change row).id = row.id) : Leased Unit :=
  write (fun state => (state.leases.update id change keeps).map fun leases => ((),{ state with leases := leases })) .database

def setReleased (now : Timestamp) (lease : SsrProcessLease) : SsrProcessLease := { lease with releasedAt := some now }

theorem setReleased_id (now : Timestamp) (lease : SsrProcessLease) : (setReleased now lease).id = lease.id := rfl

def markReleased (now : Timestamp) (lease : SsrProcessLease) : Leased Unit :=
  updateLease lease.id (setReleased now) (setReleased_id now)

def newLease (deploymentId nodeId teamId id : Uuid) (now : Timestamp) : SsrProcessLease where
  id := id
  deploymentId := deploymentId
  teamId := teamId
  nodeId := nodeId
  startedAt := now
  renewedAt := now
  expiresAt := now + leaseTtl
  hourBlockStart := now
  releasedAt := none

def insertLease (lease : SsrProcessLease) : Leased SsrProcessLease :=
  write (fun state => (state.leases.insert lease).map fun leases => (lease,{ state with leases := leases })) .database

/-- The events of a new lease, after that of an expired one it takes the place of. -/
def acquireEvents (expired : Option SsrProcessLease) (lease : SsrProcessLease) : List KeyedEvent :=
  (expired.map releaseProcessEvent).toList ++ [recordProcessEvent lease,recordBlock lease]

def reap (now : Timestamp) : Option SsrProcessLease → Leased Unit
  | none => pure ()
  | some lease => markReleased now lease

def enlist (deployment : Deployment) (nodeId : Uuid) (now : Timestamp) (id : Uuid) (expired : Option SsrProcessLease) :
    Leased (SsrProcessLease × List KeyedEvent) := do
  match ← ofExcept (← query (admission calendar limits deployment nodeId now)) with
  | .existing lease => return (lease,[])
  | .admitted teamId _ =>
    let lease ← insertLease (newLease deployment.id nodeId teamId id now)
    return (lease,acquireEvents expired lease)

def acquireTransaction (deploymentId nodeId : Uuid) (now : Timestamp) (id : Uuid) :
    Leased (SsrProcessLease × List KeyedEvent) := do
  let deployment ← orElse (← query fun state => getByIdForUpdate state.rows deploymentId) .notAssigned
  require (assigned deployment nodeId) .notAssigned
  let expired ← query fun state => expiredLease state deploymentId nodeId now
  reap now expired
  enlist calendar limits deployment nodeId now id expired

def acquire (deploymentId nodeId : Uuid) (now : Timestamp) (id : Uuid) : Leasing → Leasing × Except LeaseError SsrProcessLease :=
  perform calendar (acquireTransaction calendar limits deploymentId nodeId now id) now

def findLease (state : Leasing) (leaseId deploymentId : Uuid) : Option SsrProcessLease :=
  (state.leases.find leaseId).filter fun lease => lease.deploymentId = deploymentId

def crosses (lease : SsrProcessLease) (now : Timestamp) : Bool := lease.hourBlockStart + hourBlock ≤ now

def nextBlock (deploymentId : Uuid) (now : Timestamp) : Leased Unit := do
  let deployment ← orElse (← query fun state => getById state.rows deploymentId) .notFound
  let team ← orElse (← query fun state => Projects.teamById state.rows deployment.teamId) .notFound
  let usage ← query fun state => hourUsage calendar state team.id now
  require (!exhausted (limitFor (limits team.id) .ssrHoursMonthly) usage) .hourQuota

def setRenewed (now : Timestamp) (crossing : Bool) (lease : SsrProcessLease) : SsrProcessLease :=
  { lease with
    renewedAt := now
    expiresAt := now + leaseTtl
    hourBlockStart := if crossing then lease.hourBlockStart + hourBlock else lease.hourBlockStart }

theorem setRenewed_id (now : Timestamp) (crossing : Bool) (lease : SsrProcessLease) :
    (setRenewed now crossing lease).id = lease.id := rfl

def renewTransaction (leaseId deploymentId nodeId : Uuid) (now : Timestamp) : Leased (SsrProcessLease × List KeyedEvent) := do
  let lease ← orElse (← query fun state => findLease state leaseId deploymentId) .notFound
  require (lease.nodeId = nodeId) .wrongNode
  require (lease.releasedAt = none ∧ now < lease.expiresAt) .notFound
  if crosses lease now then nextBlock calendar limits deploymentId now
  updateLease leaseId (setRenewed now (crosses lease now)) (setRenewed_id now _)
  let updated := setRenewed now (crosses lease now) lease
  return (updated,if crosses lease now then [recordBlock updated] else [])

def renew (leaseId deploymentId nodeId : Uuid) (now : Timestamp) : Leasing → Leasing × Except LeaseError SsrProcessLease :=
  perform calendar (renewTransaction calendar limits leaseId deploymentId nodeId now) now

def releaseEvents (now : Timestamp) (lease : SsrProcessLease) : List KeyedEvent :=
  releaseProcessEvent lease :: if now < lease.hourBlockStart + hourBlock then [releaseBlockEvent lease] else []

def releaseTransaction (leaseId deploymentId nodeId : Uuid) (now : Timestamp) : Leased (Bool × List KeyedEvent) := do
  match ← query fun state => findLease state leaseId deploymentId with
  | none => return (false,[])
  | some lease =>
    require (lease.nodeId = nodeId) .wrongNode
    if lease.releasedAt.isSome then return (false,[])
    markReleased now lease
    return (true,releaseEvents now lease)

def release (leaseId deploymentId nodeId : Uuid) (now : Timestamp) : Leasing → Leasing × Except LeaseError Bool :=
  perform calendar (releaseTransaction leaseId deploymentId nodeId now) now

/-- What `release_expired` goes through. -/
def expiredLeases (state : Leasing) (now : Timestamp) : List SsrProcessLease :=
  state.leases.rows.filter fun lease => lease.releasedAt = none ∧ lease.expiresAt ≤ now

def releaseExpired (now : Timestamp) (state : Leasing) : Leasing × Nat :=
  (expiredLeases state now).foldl (fun (state,released) lease =>
    let (after,outcome) := release calendar lease.id lease.deploymentId lease.nodeId now state
    (after,if outcome.isOk then released + 1 else released)) (state,0)

end Calls

/-! What the calls do, step by step. -/

section Specifications
variable {calendar : Calendar} {limits : Uuid → Limits} {state : Leasing} {now : Timestamp}

def recorded (calendar : Calendar) (now : Timestamp) (ledger : Ledger) (event : KeyedEvent) : Ledger :=
  ((ledger.recordEventOnce calendar event.1 event.2 now).map Prod.snd).getD ledger

theorem recordAll_eq (events : List KeyedEvent) : recordAll calendar now state events =
    ({ state with ledger := events.foldl (recorded calendar now) state.ledger },none) := by
  induction events generalizing state with
  | nil => rfl
  | cons event rest ih =>
    obtain ⟨key,params⟩ := event
    obtain ⟨fresh,ledger,once⟩ := @recordEventOnce_some state.ledger calendar key params now
    have same : recorded calendar now state.ledger (key,params) = ledger := by
      unfold recorded
      rw [once]
      rfl
    simp only [recordAll,once]
    rw [ih,List.foldl_cons,same]

theorem perform_ok {α : Type} {transaction : Leased (α × List KeyedEvent)} {value : α} {events : List KeyedEvent} {after : Leasing}
    (ok : transaction state = .ok ((value,events),after)) : perform calendar transaction now state =
      ({ after with ledger := events.foldl (recorded calendar now) after.ledger },.ok value) := by
  simp only [perform,ok]
  rw [recordAll_eq]

theorem perform_ensures {α : Type} {transaction : Leased (α × List KeyedEvent)} {post : α × List KeyedEvent → Leasing → Prop}
    (ensured : Ensures transaction state post) {value : α} {final : Leasing}
    (ok : perform calendar transaction now state = (final,.ok value)) :
    ∃ events after, post (value,events) after ∧ final = { after with ledger := events.foldl (recorded calendar now) after.ledger } := by
  cases outcome : transaction state with
  | error error =>
    simp only [perform,outcome] at ok
    cases (Prod.mk.inj ok).2
  | ok pair =>
    obtain ⟨⟨result,events⟩,after⟩ := pair
    rw [perform_ok outcome] at ok
    obtain ⟨rfl,same⟩ := Prod.mk.inj ok
    obtain rfl := Except.ok.inj same
    exact ⟨events,after,ensured _ _ outcome,rfl⟩

theorem updateLease_ok (id : Uuid) (change : SsrProcessLease → SsrProcessLease) (keeps : ∀ row, (change row).id = row.id)
    (value : Unit) (after : Leasing) : updateLease id change keeps state = .ok (value,after) ↔
      ∃ leases, state.leases.update id change keeps = some leases ∧ after = { state with leases := leases } := by
  unfold updateLease
  rw [write_eq_ok]
  cases state.leases.update id change keeps <;> simp [eq_comm]

theorem insertLease_ok (lease value : SsrProcessLease) (after : Leasing) : insertLease lease state = .ok (value,after) ↔
    ∃ leases, state.leases.insert lease = some leases ∧ value = lease ∧ after = { state with leases := leases } := by
  unfold insertLease
  rw [write_eq_ok]
  cases state.leases.insert lease <;> simp [eq_comm]

theorem ensures_updateLease (id : Uuid) (change : SsrProcessLease → SsrProcessLease)
    (keeps : ∀ row, (change row).id = row.id) (post : Unit → Leasing → Prop) :
    Ensures (updateLease id change keeps) state post ↔
      ∀ leases, state.leases.update id change keeps = some leases → post () { state with leases := leases } := by
  unfold Ensures
  simp only [updateLease_ok]
  constructor
  · exact fun holds leases updated => holds () _ ⟨leases,updated,rfl⟩
  · intro holds value after done
    obtain ⟨leases,updated,rfl⟩ := done
    exact holds leases updated

theorem ensures_insertLease (lease : SsrProcessLease) (post : SsrProcessLease → Leasing → Prop) :
    Ensures (insertLease lease) state post ↔
      ∀ leases, state.leases.insert lease = some leases → post lease { state with leases := leases } := by
  unfold Ensures
  simp only [insertLease_ok]
  constructor
  · exact fun holds leases inserted => holds lease _ ⟨leases,inserted,rfl,rfl⟩
  · intro holds value after done
    obtain ⟨leases,inserted,rfl,rfl⟩ := done
    exact holds leases inserted

theorem nextBlock_reads (deploymentId : Uuid) : Ensures (nextBlock calendar limits deploymentId now) state fun _ after => after = state := by
  simp [nextBlock]

theorem renew_ensures (leaseId deploymentId nodeId : Uuid) :
    Ensures (renewTransaction calendar limits leaseId deploymentId nodeId now) state fun result after =>
      ∃ lease leases, state.leases.find leaseId = some lease ∧ lease.releasedAt = none ∧ now < lease.expiresAt ∧
        state.leases.update leaseId (setRenewed now (crosses lease now)) (setRenewed_id now _) = some leases ∧
        after = { state with leases := leases } ∧ result.1 = setRenewed now (crosses lease now) lease ∧
        result.2 = if crosses lease now then [recordBlock result.1] else [] := by
  unfold renewTransaction
  simp only [ensures_bind,ensures_query,ensures_orElse,ensures_require,ensures_ite,ensures_pure,ensures_updateLease]
  intro lease found node unexpired
  have present : state.leases.find leaseId = some lease := (Option.filter_eq_some_iff.mp found).1
  constructor
  · intro crossing
    refine (nextBlock_reads deploymentId).mono ?_
    intro _ after same leases updated
    rw [same] at updated ⊢
    exact ⟨lease,leases,present,unexpired.1,unexpired.2,updated,rfl,rfl,rfl⟩
  · intro _ leases updated
    exact ⟨lease,leases,present,unexpired.1,unexpired.2,updated,rfl,rfl,rfl⟩

theorem reap_ensures (expired : Option SsrProcessLease) : Ensures (reap now expired) state fun _ after =>
    ∃ reaped, after = { state with leases := reaped } ∧ ∀ id, (reaped.find id).isSome = (state.leases.find id).isSome := by
  cases expired with
  | none =>
    unfold reap
    rw [ensures_pure]
    exact ⟨state.leases,rfl,fun id => rfl⟩
  | some lease =>
    unfold reap markReleased
    rw [ensures_updateLease]
    intro reaped updated
    refine ⟨reaped,rfl,fun id => ?_⟩
    rw [Table.find_update updated]
    split
    · exact Option.isSome_map
    · rfl

theorem admission_existing {deployment : Deployment} {nodeId : Uuid} {lease : SsrProcessLease}
    (found : admission calendar limits deployment nodeId now state = .ok (.existing lease)) :
    unreleasedLease state deployment.id nodeId = some lease := by
  unfold admission at found
  split at found
  · rename_i present
    rw [present,Admission.existing.inj (Except.ok.inj found)]
  · split at found
    · cases found
    · split at found
      · cases found
      · split at found <;> cases found

theorem admit_ensures (deployment : Deployment) (nodeId id : Uuid) (expired : Option SsrProcessLease) :
    Ensures (enlist calendar limits deployment nodeId now id expired) state fun result after =>
      unreleasedLease state deployment.id nodeId = some result.1 ∧ result.2 = [] ∧ after = state ∨
        ∃ teamId leases, state.leases.insert (newLease deployment.id nodeId teamId id now) = some leases ∧
          after = { state with leases := leases } ∧ result.1 = newLease deployment.id nodeId teamId id now ∧
          result.2 = acquireEvents expired result.1 := by
  unfold enlist
  simp only [ensures_bind,ensures_query,ensures_ofExcept]
  intro chosen admitted
  cases chosen with
  | existing lease =>
    rw [ensures_pure]
    exact .inl ⟨admission_existing admitted,rfl,rfl⟩
  | admitted teamId count =>
    rw [ensures_bind,ensures_insertLease]
    intro leases inserted
    rw [ensures_pure]
    exact .inr ⟨teamId,leases,inserted,rfl,rfl,rfl⟩

/-- What `acquire` does in terms of the state it started in. -/
theorem acquire_ensures (deploymentId nodeId id : Uuid) :
    Ensures (acquireTransaction calendar limits deploymentId nodeId now id) state fun result after =>
      ∃ (deployment : Deployment) (reaped : Leases), (∀ id, (reaped.find id).isSome = (state.leases.find id).isSome) ∧
        (unreleasedLease { state with leases := reaped } deployment.id nodeId = some result.1 ∧ result.2 = [] ∧
            after = { state with leases := reaped } ∨
          ∃ teamId leases, reaped.insert (newLease deployment.id nodeId teamId id now) = some leases ∧
            after = { state with leases := leases } ∧ result.1 = newLease deployment.id nodeId teamId id now ∧
            result.2 = acquireEvents (expiredLease state deploymentId nodeId now) result.1) := by
  unfold acquireTransaction
  simp only [ensures_bind,ensures_query,ensures_orElse,ensures_require]
  intro deployment found serves
  refine (reap_ensures _).mono ?_
  intro _ between reaped
  obtain ⟨leases,rfl,same⟩ := reaped
  refine (admit_ensures deployment nodeId id _).mono ?_
  intro result after holds
  exact ⟨deployment,leases,same,holds⟩

end Specifications

section Examples

def served : Deployment where
  id := 3
  projectId := 1
  teamId := 2
  region := "eu"
  serveNodeId := some 7
  environment := .production
  runtimeKind := .ssr
  buildStatus := .ready
  serveStatus := .ready
  releaseStatus := .active
  serveCpuMillicores := 200
  serveMemoryMb := 256
  serveDiskMb := 512
  overcommitted := false
  previewHost := none
  createdAt := 0

def serving : Leasing where
  rows := { teams := ⟨[{ id := 2 }],by decide,by decide⟩, deployments := ⟨[served],by decide,by decide⟩ }

def january : Calendar := fun _ => (0,seconds 2678400)

def unlimited : Uuid → Limits := fun _ _ => none

end Examples

end GrassWorker.SsrLeases
