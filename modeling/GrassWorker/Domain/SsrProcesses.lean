import GrassWorker.Domain.QuotaEvents
import GrassWorker.Domain.SsrLeases

/-! The calls on leases among each other. `acquire` locks its deployment and reads in one
action and writes in the next; a call that locks a lease row reads and writes it in one,
and waits while an open `acquire` holds the row. -/
namespace GrassWorker.SsrProcesses
open Transaction Deployments Quotas SsrLeases Interleaving Runs

inductive RowLock
  | deployment (id : Uuid)
  | lease (id : Uuid)
deriving DecidableEq

structure Shared where
  rows : Database
  leases : Leases := ∅
  quota : QuotaEvents.Shared := {}
  /-- The rows that open transactions hold. -/
  locks : List RowLock := []
  clock : Timestamp

def Shared.leasing (shared : Shared) : Leasing := ⟨shared.rows,shared.leases,shared.quota.ledger⟩

inductive Request
  | acquire (deploymentId nodeId id : Uuid)
  | renew (leaseId deploymentId nodeId : Uuid)
  | release (leaseId deploymentId nodeId : Uuid)
  | releaseExpired
  /-- Others change deployments and teams. -/
  | elsewhere (rows : Database)

/-- What an open `acquire` is about to write. -/
structure Placement where
  deployment : Deployment
  nodeId : Uuid
  now : Timestamp
  id : Uuid
  expired : Option SsrProcessLease
  teamId : Uuid
  count : Nat

inductive Handler
  | start (request : Request)
  | enlist (deploymentId nodeId id : Uuid) (now : Timestamp)
  | insert (placement : Placement)
  | renew (leaseId deploymentId nodeId : Uuid) (now : Timestamp)
  | release (leaseId deploymentId nodeId : Uuid) (now : Timestamp)
  | releaseExpired (now : Timestamp)
  /-- The leases `release_expired` has still to release. -/
  | reaping (now : Timestamp) (leases : List SsrProcessLease)
  /-- An event is being recorded, others are to be, and then more leases are to be released. -/
  | record (current : QuotaEvents.Handler) (events : List KeyedEvent) (now : Timestamp) (leases : List SsrProcessLease)

section Machine
variable (calendar : Calendar) (limits : Uuid → Limits)

/-- The transaction of `acquire` up to its last query. -/
def opening (deploymentId nodeId : Uuid) (now : Timestamp) : Leased (Deployment × Option SsrProcessLease × Admission) := do
  let deployment ← orElse (← query fun state => getByIdForUpdate state.rows deploymentId) .notAssigned
  require (assigned deployment nodeId) .notAssigned
  let expired ← query fun state => expiredLease state deploymentId nodeId now
  reap now expired
  let admission ← ofExcept (← query (admission calendar limits deployment nodeId now))
  return (deployment,expired,admission)

/-- The writes of `acquire`. -/
def Placement.write (placement : Placement) : Leased SsrProcessLease := do
  reap placement.now placement.expired
  insertLease (newLease placement.deployment.id placement.nodeId placement.teamId placement.id placement.now)

def Placement.locks (placement : Placement) : List RowLock :=
  .deployment placement.deployment.id :: (placement.expired.map fun lease => RowLock.lease lease.id).toList

def Shared.commit (shared : Shared) (after : Leasing) : Shared := { shared with leases := after.leases }

def Shared.unlock (shared : Shared) (locks : List RowLock) : Shared :=
  { shared with locks := shared.locks.filter fun lock => lock ∉ locks }

def recordNext (now : Timestamp) (leases : List SsrProcessLease) : List KeyedEvent → Option Handler
  | (key,params) :: rest => some (.record (.once key params) rest now leases)
  | [] => if leases = [] then none else some (.reaping now leases)

def releaseOne (shared : Shared) (now : Timestamp) (leaseId deploymentId nodeId : Uuid) (leases : List SsrProcessLease) :
    Shared × Option Handler :=
  match releaseTransaction leaseId deploymentId nodeId now shared.leasing with
  | .error _ => (shared,recordNext now leases [])
  | .ok ((_,events),after) => (shared.commit after,recordNext now leases events)

def act (shared : Shared) : Handler → Shared × Option Handler
  | .start (.acquire deploymentId nodeId id) => (shared,some (.enlist deploymentId nodeId id shared.clock))
  | .start (.renew leaseId deploymentId nodeId) => (shared,some (.renew leaseId deploymentId nodeId shared.clock))
  | .start (.release leaseId deploymentId nodeId) => (shared,some (.release leaseId deploymentId nodeId shared.clock))
  | .start .releaseExpired => (shared,some (.releaseExpired shared.clock))
  | .start (.elsewhere rows) => ({ shared with rows := rows },none)
  | .enlist deploymentId nodeId id now =>
    if .deployment deploymentId ∈ shared.locks then (shared,some (.enlist deploymentId nodeId id now))
    else match opening calendar limits deploymentId nodeId now shared.leasing with
      | .error _ => (shared,none)
      | .ok ((_,_,.existing _),after) => (shared.commit after,none)
      | .ok ((deployment,expired,.admitted teamId count),_) =>
        let placement : Placement := ⟨deployment,nodeId,now,id,expired,teamId,count⟩
        ({ shared with locks := placement.locks ++ shared.locks },some (.insert placement))
  | .insert placement =>
    match placement.write shared.leasing with
    | .error _ => (shared.unlock placement.locks,none)
    | .ok (lease,after) =>
      ((shared.commit after).unlock placement.locks,recordNext placement.now [] (acquireEvents placement.expired lease))
  | .renew leaseId deploymentId nodeId now =>
    if .lease leaseId ∈ shared.locks then (shared,some (.renew leaseId deploymentId nodeId now))
    else match renewTransaction calendar limits leaseId deploymentId nodeId now shared.leasing with
      | .error _ => (shared,none)
      | .ok ((_,events),after) => (shared.commit after,recordNext now [] events)
  | .release leaseId deploymentId nodeId now =>
    if .lease leaseId ∈ shared.locks then (shared,some (.release leaseId deploymentId nodeId now))
    else releaseOne shared now leaseId deploymentId nodeId []
  | .releaseExpired now => (shared,some (.reaping now (expiredLeases shared.leasing now)))
  | .reaping _ [] => (shared,none)
  | .reaping now (lease :: rest) =>
    if .lease lease.id ∈ shared.locks then (shared,some (.reaping now (lease :: rest)))
    else releaseOne shared now lease.id lease.deploymentId lease.nodeId rest
  | .record current events now leases =>
    let (quota,next) := QuotaEvents.advance calendar shared.clock shared.quota current
    ({ shared with quota := quota },
      match next with
      | some current => some (.record current events now leases)
      | none => recordNext now leases (if quota.failures = shared.quota.failures then events else []))

def advance (elapsed : Nat) (shared : Shared) (handler : Handler) : Shared × Option Handler :=
  act calendar limits { shared with clock := shared.clock + elapsed } handler

def machine : Machine Shared Handler Request Nat := ⟨.start,advance calendar limits⟩

/-- A lease is inserted while no more of its team's leases are live than were counted,
and renewed while it has not expired. -/
def Timely (time : Timestamp) (shared : Shared) : Handler → Prop
  | .insert placement => processCount shared.leasing placement.teamId time ≤ placement.count
  | .renew leaseId _ _ now => ∀ lease ∈ shared.leases.find leaseId, lease.releasedAt = none → now < lease.expiresAt →
      time < lease.expiresAt
  | _ => True

instance (time : Timestamp) (shared : Shared) : ∀ handler, Decidable (Timely time shared handler)
  | .insert _ => inferInstanceAs (Decidable (_ ≤ _))
  | .renew leaseId _ _ _ => inferInstanceAs (Decidable (∀ lease ∈ shared.leases.find leaseId, _))
  | .start _ => isTrue trivial
  | .enlist _ _ _ _ => isTrue trivial
  | .release _ _ _ _ => isTrue trivial
  | .releaseExpired _ => isTrue trivial
  | .reaping _ _ => isTrue trivial
  | .record _ _ _ _ => isTrue trivial

/-- `Timely` when the action is taken. -/
abbrev InTime (elapsed : Nat) (shared : Shared) (handler : Handler) : Prop := Timely (shared.clock + elapsed) shared handler

/-- Now and as long as nothing else happens, no more than `limit` leases of the team are live. -/
def Bounded (teamId : Uuid) (limit : Int) (shared : Shared) : Prop :=
  ∀ time, shared.clock ≤ time → (processCount shared.leasing teamId time : Int) ≤ limit

/-- An `acquire` that is to insert has found room. -/
def Admitted : Handler → Prop
  | .insert placement => ∀ limit, limitFor (limits placement.teamId) .ssrProcesses = some limit → (placement.count : Int) < limit
  | _ => True

def idle (rows : Database) (clock : Timestamp) : Config Shared Handler := ⟨{ rows := rows, clock := clock },[]⟩

end Machine

section Counting
variable {calendar : Calendar} {limits : Uuid → Limits} {state : Leasing} {now time : Timestamp} {teamId : Uuid}

theorem live_iff {lease : SsrProcessLease} :
    live teamId time lease ↔ lease.teamId = teamId ∧ lease.releasedAt = none ∧ time < lease.expiresAt := by
  unfold live
  exact decide_eq_true_iff

theorem processCount_later (order : now ≤ time) : processCount state teamId time ≤ processCount state teamId now := by
  apply List.countP_mono_left
  intro lease _ alive
  obtain ⟨team,unreleased,ahead⟩ := live_iff.mp alive
  exact live_iff.mpr ⟨team,unreleased,Int.lt_of_le_of_lt order ahead⟩

theorem processCount_update {id : Uuid} {change : SsrProcessLease → SsrProcessLease} {keeps : ∀ row, (change row).id = row.id}
    {leases : Leases} (updated : state.leases.update id change keeps = some leases)
    (fewer : ∀ row ∈ state.leases.rows, row.id = id → live teamId time (change row) → live teamId time row) :
    processCount { state with leases := leases } teamId time ≤ processCount state teamId time := by
  unfold processCount
  rw [Table.rows_update updated,List.countP_map]
  apply List.countP_mono_left
  intro row member alive
  by_cases chosen : row.id = id
  · rw [Function.comp_apply,if_pos chosen] at alive
    exact fewer row member chosen alive
  · rw [Function.comp_apply,if_neg chosen] at alive
    exact alive

theorem released_dead (lease : SsrProcessLease) : ¬live teamId time (setReleased now lease) := by
  intro alive
  cases (live_iff.mp alive).2.1

theorem markReleased_fewer (lease : SsrProcessLease) : Ensures (markReleased now lease) state fun _ after =>
    processCount after teamId time ≤ processCount state teamId time := by
  unfold markReleased
  rw [ensures_updateLease]
  intro leases updated
  exact processCount_update updated fun row _ _ alive => absurd alive (released_dead row)

theorem reap_fewer (expired : Option SsrProcessLease) : Ensures (reap now expired) state fun _ after =>
    processCount after teamId time ≤ processCount state teamId time := by
  cases expired with
  | none =>
    unfold reap
    rw [ensures_pure]
  | some lease => exact markReleased_fewer lease

theorem release_fewer (leaseId deploymentId nodeId : Uuid) : Ensures (releaseTransaction leaseId deploymentId nodeId now) state
    fun _ after => processCount after teamId time ≤ processCount state teamId time := by
  unfold releaseTransaction
  rw [ensures_bind,ensures_query]
  cases findLease state leaseId deploymentId with
  | none =>
    rw [ensures_pure]
  | some lease =>
    simp only [ensures_bind,ensures_require,ensures_ite,ensures_pure]
    intro node
    refine ⟨fun _ => Nat.le_refl _,fun _ => ?_⟩
    exact markReleased_fewer lease

theorem renew_fewer (leaseId deploymentId nodeId : Uuid)
    (timely : ∀ lease ∈ state.leases.find leaseId, lease.releasedAt = none → now < lease.expiresAt → time < lease.expiresAt) :
    Ensures (renewTransaction calendar limits leaseId deploymentId nodeId now) state
      fun _ after => processCount after teamId time ≤ processCount state teamId time := by
  refine (renew_ensures leaseId deploymentId nodeId).mono ?_
  intro result after renewed
  obtain ⟨lease,leases,found,unreleased,unexpired,updated,rfl,_⟩ := renewed
  apply processCount_update updated
  intro row member chosen alive
  have same : state.leases.find leaseId = some row := (Table.find_eq_some_iff _ _ _).mpr ⟨member,chosen⟩
  obtain rfl : row = lease := Option.some.inj (same.symm.trans found)
  exact live_iff.mpr ⟨(live_iff.mp alive).1,unreleased,timely row found unreleased unexpired⟩

theorem write_count (placement : Placement) : Ensures placement.write state fun _ after =>
    processCount after teamId time ≤ processCount state teamId time + if placement.teamId = teamId then 1 else 0 := by
  unfold Placement.write
  rw [ensures_bind]
  have reaped : Ensures (reap placement.now placement.expired) state fun _ after =>
      processCount after teamId time ≤ processCount state teamId time := reap_fewer placement.expired
  refine reaped.mono ?_
  intro _ between fewer
  rw [ensures_insertLease]
  intro leases inserted
  unfold processCount at fewer ⊢
  rw [Table.rows_insert inserted,List.countP_append]
  apply Nat.add_le_add fewer
  by_cases own : placement.teamId = teamId
  · rw [if_pos own]
    exact List.countP_le_length
  · rw [if_neg own,List.countP_singleton,if_neg]
    intro alive
    exact own (live_iff.mp alive).1

theorem admitted_below {deployment : Deployment} {nodeId team : Uuid} {count : Nat}
    (admitted : admission calendar limits deployment nodeId now state = .ok (.admitted team count)) :
    ∀ limit, limitFor (limits team) .ssrProcesses = some limit → (count : Int) < limit := by
  unfold admission at admitted
  split at admitted
  · cases admitted
  · split at admitted
    · cases admitted
    · split at admitted
      · cases admitted
      · rename_i room
        split at admitted
        · cases admitted
        · obtain ⟨rfl,rfl⟩ := Admission.admitted.inj (Except.ok.inj admitted)
          intro limit finite
          rw [finite] at room
          exact Int.not_le.mp fun exceeds => room (decide_eq_true exceeds)

/-- What an opened `acquire` has found out, or committed. -/
theorem opening_ensures (deploymentId nodeId : Uuid) : Ensures (opening calendar limits deploymentId nodeId now) state
    fun result after => match result.2.2 with
      | .existing _ => processCount after teamId time ≤ processCount state teamId time
      | .admitted team count => ∀ limit, limitFor (limits team) .ssrProcesses = some limit → (count : Int) < limit := by
  unfold opening
  simp only [ensures_bind,ensures_query,ensures_orElse,ensures_require,ensures_ofExcept,ensures_pure]
  intro deployment found serves
  have reaped : Ensures (reap now (expiredLease state deploymentId nodeId now)) state fun _ after =>
      processCount after teamId time ≤ processCount state teamId time := reap_fewer _
  refine reaped.mono ?_
  intro _ after fewer chosen admitted
  cases chosen with
  | existing lease => exact fewer
  | admitted team count => exact admitted_below admitted

end Counting

section Steps
variable {calendar : Calendar} {limits : Uuid → Limits} {teamId : Uuid} {limit : Int} {shared : Shared}

private theorem le_elapsed (clock : Int) (elapsed : Nat) : clock ≤ clock + elapsed := by omega

theorem recordNext_admitted {now : Timestamp} {leases : List SsrProcessLease} {events : List KeyedEvent} {next : Handler}
    (continues : recordNext now leases events = some next) : Admitted limits next := by
  cases events with
  | cons event rest =>
    obtain rfl := Option.some.inj continues
    trivial
  | nil =>
    simp only [recordNext] at continues
    split at continues
    · cases continues
    · obtain rfl := Option.some.inj continues
      trivial

structure Kept (limits : Uuid → Limits) (teamId : Uuid) (limit : Int) (shared : Shared) (outcome : Shared × Option Handler) : Prop where
  clock : outcome.1.clock = shared.clock
  bounded : (processCount outcome.1.leasing teamId shared.clock : Int) ≤ limit
  admitted : ∀ next, outcome.2 = some next → Admitted limits next

theorem Kept.idle (bounded : (processCount shared.leasing teamId shared.clock : Int) ≤ limit) (after : Shared)
    (leases : after.leases = shared.leases) (clock : after.clock = shared.clock) {next : Option Handler}
    (admitted : ∀ handler, next = some handler → Admitted limits handler) : Kept limits teamId limit shared (after,next) := by
  refine ⟨clock,?_,admitted⟩
  have same : processCount after.leasing teamId shared.clock = processCount shared.leasing teamId shared.clock := by
    change after.leases.rows.countP _ = _
    rw [leases]
    rfl
  rw [same]
  exact bounded

theorem Kept.fewer (bounded : (processCount shared.leasing teamId shared.clock : Int) ≤ limit) {after : Leasing}
    (fewer : processCount after teamId shared.clock ≤ processCount shared.leasing teamId shared.clock) {next : Option Handler}
    (admitted : ∀ handler, next = some handler → Admitted limits handler) :
    Kept limits teamId limit shared (shared.commit after,next) := by
  refine ⟨rfl,?_,admitted⟩
  change (processCount after teamId shared.clock : Int) ≤ limit
  omega

theorem releaseOne_kept (bounded : (processCount shared.leasing teamId shared.clock : Int) ≤ limit) (now : Timestamp)
    (leaseId deploymentId nodeId : Uuid) (leases : List SsrProcessLease) :
    Kept limits teamId limit shared (releaseOne shared now leaseId deploymentId nodeId leases) := by
  unfold releaseOne
  split
  · exact Kept.idle bounded shared rfl rfl fun handler continues => recordNext_admitted continues
  · rename_i ok
    exact Kept.fewer bounded (release_fewer leaseId deploymentId nodeId _ _ ok) fun handler continues => recordNext_admitted continues

theorem act_kept (finite : limitFor (limits teamId) .ssrProcesses = some limit)
    (bounded : (processCount shared.leasing teamId shared.clock : Int) ≤ limit) (handler : Handler)
    (admitted : Admitted limits handler) (timely : Timely shared.clock shared handler) :
    Kept limits teamId limit shared (act calendar limits shared handler) := by
  have stays : ∀ (after : Shared) (next : Handler), after.leases = shared.leases → after.clock = shared.clock →
      Admitted limits next → Kept limits teamId limit shared (after,some next) := by
    intro after next leases clock holds
    apply Kept.idle bounded after leases clock
    intro other same
    obtain rfl := Option.some.inj same
    exact holds
  have ends : ∀ after : Shared, after.leases = shared.leases → after.clock = shared.clock →
      Kept limits teamId limit shared (after,none) :=
    fun after leases clock => Kept.idle bounded after leases clock fun _ same => by cases same
  cases handler with
  | start request =>
    cases request with
    | elsewhere rows => exact ends _ rfl rfl
    | acquire deploymentId nodeId id => exact stays _ _ rfl rfl trivial
    | renew leaseId deploymentId nodeId => exact stays _ _ rfl rfl trivial
    | release leaseId deploymentId nodeId => exact stays _ _ rfl rfl trivial
    | releaseExpired => exact stays _ _ rfl rfl trivial
  | enlist deploymentId nodeId id now =>
    simp only [act]
    split
    · exact stays _ _ rfl rfl trivial
    · split
      · exact ends _ rfl rfl
      · rename_i ok
        exact Kept.fewer bounded (opening_ensures deploymentId nodeId _ _ ok) fun _ same => by cases same
      · rename_i ok
        have room := @opening_ensures calendar limits shared.leasing now shared.clock teamId deploymentId nodeId _ _ ok
        exact stays _ _ rfl rfl room
  | insert placement =>
    simp only [act]
    split
    · exact ends _ rfl rfl
    · rename_i lease after ok
      refine ⟨rfl,?_,fun next continues => recordNext_admitted continues⟩
      have counted : processCount after teamId shared.clock ≤ processCount shared.leasing teamId shared.clock +
          if placement.teamId = teamId then 1 else 0 := write_count placement _ _ ok
      change (processCount after teamId shared.clock : Int) ≤ limit
      by_cases own : placement.teamId = teamId
      · rw [if_pos own] at counted
        have room := admitted limit (own ▸ finite)
        have fresh : processCount shared.leasing placement.teamId shared.clock ≤ placement.count := timely
        rw [own] at fresh
        omega
      · rw [if_neg own] at counted
        omega
  | renew leaseId deploymentId nodeId now =>
    simp only [act]
    split
    · exact stays _ _ rfl rfl trivial
    · split
      · exact ends _ rfl rfl
      · rename_i ok
        have fewer := @renew_fewer calendar limits shared.leasing now shared.clock teamId leaseId deploymentId nodeId timely _ _ ok
        exact Kept.fewer bounded fewer fun _ continues => recordNext_admitted continues
  | release leaseId deploymentId nodeId now =>
    simp only [act]
    split
    · exact stays _ _ rfl rfl trivial
    · exact releaseOne_kept bounded now leaseId deploymentId nodeId []
  | releaseExpired now => exact stays _ _ rfl rfl trivial
  | reaping now leases =>
    cases leases with
    | nil => exact ends _ rfl rfl
    | cons lease rest =>
      simp only [act]
      split
      · exact stays _ _ rfl rfl trivial
      · exact releaseOne_kept bounded now _ _ _ rest
  | record current events now leases =>
    simp only [act]
    refine ⟨rfl,bounded,?_⟩
    intro next continues
    split at continues
    · obtain rfl := Option.some.inj continues
      trivial
    · exact recordNext_admitted continues

end Steps

/-- No more leases of a team are live than its limit, if no insertion and no renewal comes too late. -/
theorem processes_bounded_of_timely (calendar : Calendar) (limits : Uuid → Limits) (teamId : Uuid) (limit : Int)
    (finite : limitFor (limits teamId) .ssrProcesses = some limit) (rows : Database) (clock : Timestamp)
    (events : List (Event Request Nat))
    (timely : Along (machine calendar limits).step
      (Acting InTime) (idle rows clock) events) :
    Throughout (machine calendar limits).step (fun config => Bounded teamId limit config.shared) (idle rows clock) events := by
  let invariant : Config Shared Handler → Prop := Holds
    (fun shared => (processCount shared.leasing teamId shared.clock : Int) ≤ limit) fun _ handler => Admitted limits handler
  have own : ∀ (elapsed : Nat) (shared : Shared) (handler : Handler), Timely (shared.clock + elapsed) shared handler →
      (processCount shared.leasing teamId shared.clock : Int) ≤ limit → Admitted limits handler →
      Kept limits teamId limit { shared with clock := shared.clock + elapsed } (advance calendar limits elapsed shared handler) := by
    intro elapsed shared handler timely bounded admitted
    apply act_kept finite _ handler admitted timely
    have fewer := @processCount_later shared.leasing shared.clock (shared.clock + elapsed) teamId (le_elapsed _ _)
    change (processCount shared.leasing teamId (shared.clock + elapsed) : Int) ≤ limit
    omega
  have kept : ∀ (config : Config Shared Handler) (event : Event Request Nat), invariant config →
      Acting InTime config event →
      invariant ((machine calendar limits).step config event) := by
    intro config event holds permitted
    apply Holds.step _ _ _ config event holds permitted
    · exact fun _ _ _ => trivial
    · intro elapsed shared handler timely bounded admitted
      have after := own elapsed shared handler timely bounded admitted
      refine ⟨?_,after.admitted⟩
      have clock := after.clock
      dsimp only at clock
      change (processCount (advance calendar limits elapsed shared handler).1.leasing teamId
        (advance calendar limits elapsed shared handler).1.clock : Int) ≤ limit
      rw [clock]
      exact after.bounded
    · exact fun _ _ _ _ _ _ _ admitted => admitted
  have implied : ∀ config : Config Shared Handler, invariant config → Bounded teamId limit config.shared := by
    intro config holds time order
    have fewer := @processCount_later config.shared.leasing config.shared.clock time teamId order
    have bounded := holds.state
    omega
  have positive : 0 < limit := by
    unfold limitFor at finite
    have holds := (Option.filter_eq_some_iff.mp finite).2
    simp at holds
    exact holds.2
  have start : invariant (idle rows clock) := by
    refine ⟨?_,fun handler member => by cases member⟩
    change ((0 : Nat) : Int) ≤ limit
    omega
  exact throughout_of_invariant kept implied (idle rows clock) events start timely

section Examples

def oneProcess : Uuid → Limits := fun _ dimension => if dimension = .ssrProcesses then some 1 else none

def twoServed : Database where
  teams := .single { id := 2 } List.nodup_nil
  deployments := ⟨[served,{ served with id := 8, projectId := 9 }],by decide,by decide⟩

def acquiredTogether : List (Event Request Nat) :=
  [.arrive (.acquire 3 7 11),.arrive (.acquire 8 7 12),.resume 0 0,.resume 1 0,.resume 0 0,.resume 1 0,.resume 0 0,.resume 1 0]

theorem acquires_exceed_limit : limitFor (oneProcess 2) .ssrProcesses = some 1 ∧
    ¬Throughout (machine january oneProcess).step (fun config => Bounded 2 1 config.shared) (idle twoServed 0) acquiredTogether := by
  refine ⟨by decide,fun bounded => ?_⟩
  have last := bounded.last 0 (by decide)
  revert last
  decide

theorem processes_bounded_one_after_another : Throughout (machine january oneProcess).step
    (fun config => Bounded 2 1 config.shared) (idle twoServed 0)
    [.arrive (.acquire 3 7 11),.resume 0 0,.resume 0 0,.resume 0 5,.arrive (.acquire 8 7 12),.resume 1 0,.resume 1 0] := by
  apply processes_bounded_of_timely january oneProcess 2 1 (by decide) twoServed 0
  decide

end Examples

end GrassWorker.SsrProcesses
