import GrassWorker.Domain.SsrLeases

/-! An expired lease is released by the `acquire` that takes its place, or by
`release_expired` before that. -/
namespace GrassWorker.SsrReaping
open Transaction Deployments Quotas SsrLeases

def SameAccounts (first second : Ledger) : Prop :=
  (∀ event, event ∈ first.events ↔ event ∈ second.events) ∧
    ∀ window : Window, window.dimension = .ssrProcesses ∨ window.dimension = .ssrHoursMonthly → first.used window = second.used window

def refundKey (lease : SsrProcessLease) : IdempotencyKey := .ssrHourRelease lease.id (unixTimestamp lease.hourBlockStart)

section Recording
variable {calendar : Calendar} {now : Timestamp} {ledger : Ledger}

theorem recorded_iff (event : KeyedEvent) (key : IdempotencyKey) :
    (recorded calendar now ledger event).recorded key ↔ ledger.recorded key ∨ event.1 = key := by
  by_cases known : ledger.recorded event.1
  · have same : recorded calendar now ledger event = ledger := by
      unfold recorded
      rw [recordEventOnce_known known]
      rfl
    rw [same]
    constructor
    · exact .inl
    · intro either
      rcases either with held | rfl
      · exact held
      · exact known
  · obtain ⟨fresh,after,once⟩ := @recordEventOnce_some ledger calendar event.1 event.2 now
    have same : recorded calendar now ledger event = after := by
      unfold recorded
      rw [once]
      rfl
    rw [same]
    unfold Ledger.recorded
    rw [recordEventOnce_events known once,List.any_append,Bool.or_eq_true]
    simp [RecordEventParams.event]

theorem recorded_fold (events : List KeyedEvent) (key : IdempotencyKey) :
    (events.foldl (recorded calendar now) ledger).recorded key ↔ ledger.recorded key ∨ key ∈ events.map Prod.fst := by
  induction events generalizing ledger with
  | nil => simp
  | cons event rest ih =>
    rw [List.foldl_cons,ih,recorded_iff,List.map_cons,List.mem_cons,or_assoc,eq_comm (a := key)]

theorem recorded_known {event : KeyedEvent} (known : ledger.recorded event.1) : recorded calendar now ledger event = ledger := by
  unfold recorded
  rw [recordEventOnce_known known]
  rfl

theorem recorded_hours (lease : SsrProcessLease) (teamId : Uuid) (time : Timestamp) :
    (recorded calendar now ledger (releaseProcessEvent lease)).durableUsage calendar teamId .ssrHoursMonthly time =
      ledger.durableUsage calendar teamId .ssrHoursMonthly time := by
  obtain ⟨fresh,after,once⟩ := @recordEventOnce_some ledger calendar (releaseProcessEvent lease).1 (releaseProcessEvent lease).2 now
  have same : recorded calendar now ledger (releaseProcessEvent lease) = after := by
    unfold recorded
    rw [once]
    rfl
  rw [same]
  apply recordEventOnce_other once
  intro equal
  have dimensions := congrArg Window.dimension equal
  cases dimensions

end Recording

section Reaping
variable {calendar : Calendar} {limits : Uuid → Limits} {state : Leasing} {now : Timestamp}
  {deploymentId nodeId : Uuid} {expired : SsrProcessLease}

theorem expiredLease_some (found : expiredLease state deploymentId nodeId now = some expired) :
    expired ∈ state.leases.rows ∧ expired.deploymentId = deploymentId ∧ expired.nodeId = nodeId ∧ expired.releasedAt = none := by
  have member := List.mem_of_find?_eq_some found
  have holds := List.find?_some found
  simp only [decide_eq_true_eq] at holds
  exact ⟨member,holds.1,holds.2.1,holds.2.2.1⟩

theorem unreleasedLease_reaped (found : expiredLease state deploymentId nodeId now = some expired) {leases : Leases}
    (updated : state.leases.update expired.id (setReleased now) (setReleased_id now) = some leases) (other : Leasing)
    (same : other.leases = leases) : unreleasedLease other deploymentId nodeId = none := by
  obtain ⟨member,deployment,node,unreleased⟩ := expiredLease_some found
  unfold unreleasedLease
  rw [same,List.find?_eq_none,Table.rows_update updated]
  intro lease inside holds
  obtain ⟨row,present,rfl⟩ := List.mem_map.mp inside
  have holds := of_decide_eq_true holds
  by_cases chosen : row.id = expired.id
  · rw [if_pos chosen] at holds
    cases holds.2.2
  · rw [if_neg chosen] at holds
    have entry : (deploymentId,nodeId) ∈ row.entries := by
      unfold SsrProcessLease.entries
      rw [holds.2.2,holds.1,holds.2.1]
      exact List.mem_singleton_self _
    have held : (deploymentId,nodeId) ∈ expired.entries := by
      unfold SsrProcessLease.entries
      rw [unreleased,deployment,node]
      exact List.mem_singleton_self _
    have equal := state.leases.same_of_entry present member entry held
    exact chosen (congrArg SsrProcessLease.id equal)

theorem expiredLease_reaped (now : Timestamp) (other : Leasing) (none' : unreleasedLease other deploymentId nodeId = none) :
    expiredLease other deploymentId nodeId now = none := by
  unfold expiredLease
  unfold unreleasedLease at none'
  rw [List.find?_eq_none] at none' ⊢
  intro lease member holds
  have holds := of_decide_eq_true holds
  exact none' lease member (decide_eq_true ⟨holds.1,holds.2.1,holds.2.2.1⟩)

/-- `release` does to an expired lease what `acquire` does, and records its events. -/
theorem release_expired (calendar : Calendar) (found : expiredLease state deploymentId nodeId now = some expired) {leases : Leases}
    (updated : state.leases.update expired.id (setReleased now) (setReleased_id now) = some leases) :
    release calendar expired.id deploymentId nodeId now state =
      ({ state with leases := leases, ledger := (releaseEvents now expired).foldl (recorded calendar now) state.ledger },.ok true) := by
  obtain ⟨member,deployment,node,unreleased⟩ := expiredLease_some found
  have present : findLease state expired.id deploymentId = some expired := by
    unfold findLease
    rw [Table.find_of_mem member,Option.filter_some,if_pos (decide_eq_true deployment)]
  have transaction : releaseTransaction expired.id deploymentId nodeId now state =
      .ok ((true,releaseEvents now expired),{ state with leases := leases }) := by
    simp [-bind_pure_comp,releaseTransaction,bind_apply,query,present,require,node,unreleased,markReleased,updateLease,write,updated,pure_apply]
  unfold release
  rw [perform_ok transaction]

/-- What an `acquire` that finds an expired lease has gone through. -/
theorem acquire_reaped {id : Uuid} {result : SsrProcessLease × List KeyedEvent} {after : Leasing}
    (found : expiredLease state deploymentId nodeId now = some expired)
    (ok : acquireTransaction calendar limits deploymentId nodeId now id state = .ok (result,after)) :
    ∃ deployment leases, getByIdForUpdate state.rows deploymentId = some deployment ∧ assigned deployment nodeId ∧
      state.leases.update expired.id (setReleased now) (setReleased_id now) = some leases ∧
      enlist calendar limits deployment nodeId now id (some expired) { state with leases := leases } = .ok (result,after) := by
  unfold acquireTransaction at ok
  simp only [bind_eq_ok,query_eq_ok,orElse_eq_ok,require_eq_ok] at ok
  obtain ⟨_,_,⟨rfl,rfl⟩,deployment,_,⟨present,rfl⟩,_,_,⟨serves,rfl⟩,_,_,⟨rfl,rfl⟩,_,between,reaped,admitted⟩ := ok
  rw [found] at reaped admitted
  obtain ⟨leases,updated,rfl⟩ := (updateLease_ok _ _ _ _ _).mp reaped
  exact ⟨deployment,leases,present,serves,updated,admitted⟩

theorem admit_ledger (state : Leasing) (other : Option SsrProcessLease) (ledger : Ledger) {deployment : Deployment} {id : Uuid}
    {lease : SsrProcessLease} {events : List KeyedEvent} {after : Leasing} {old : Option SsrProcessLease}
    (hours : ∀ teamId, ledger.durableUsage calendar teamId .ssrHoursMonthly now =
      state.ledger.durableUsage calendar teamId .ssrHoursMonthly now)
    (unheld : unreleasedLease state deployment.id nodeId = none)
    (ok : enlist calendar limits deployment nodeId now id old state = .ok ((lease,events),after)) :
    events = acquireEvents old lease ∧ after.ledger = state.ledger ∧
      enlist calendar limits deployment nodeId now id other { state with ledger := ledger } =
        .ok ((lease,acquireEvents other lease),{ after with ledger := ledger }) := by
  have same : admission calendar limits deployment nodeId now { state with ledger := ledger } =
      admission calendar limits deployment nodeId now state := by
    unfold admission hourUsage
    simp only [hours]
    rfl
  unfold enlist at ok ⊢
  simp only [bind_apply,query,same] at ok ⊢
  cases chosen : admission calendar limits deployment nodeId now state with
  | error error =>
    rw [chosen] at ok
    cases ok
  | ok admission =>
    rw [chosen] at ok
    cases admission with
    | existing row =>
      rw [admission_existing chosen] at unheld
      cases unheld
    | admitted teamId count =>
      change (insertLease _ >>= fun lease => pure (lease,acquireEvents old lease)) state = _ at ok
      change _ ∧ _ ∧ (insertLease _ >>= fun lease => pure (lease,acquireEvents other lease)) { state with ledger := ledger } = _
      obtain ⟨inserted,between,wrote,rest⟩ := (bind_eq_ok _ _ _ _ _).mp ok
      obtain ⟨pair,rfl⟩ := (pure_eq_ok _).mp rest
      obtain ⟨rfl,rfl⟩ := Prod.mk.inj pair
      obtain ⟨leases,placed,rfl,rfl⟩ := (insertLease_ok _ _ _).mp wrote
      refine ⟨rfl,rfl,?_⟩
      rw [bind_eq_ok]
      exact ⟨_,{ state with leases := leases, ledger := ledger },(insertLease_ok _ _ _).mpr ⟨leases,placed,rfl,rfl⟩,rfl⟩

theorem acquire_unexpired (state : Leasing) {deployment : Deployment} {id : Uuid} {result : SsrProcessLease × List KeyedEvent} {after : Leasing}
    (present : getByIdForUpdate state.rows deploymentId = some deployment) (serves : assigned deployment nodeId)
    (none' : expiredLease state deploymentId nodeId now = none)
    (ok : enlist calendar limits deployment nodeId now id none state = .ok (result,after)) :
    acquireTransaction calendar limits deploymentId nodeId now id state = .ok (result,after) := by
  unfold acquireTransaction
  simp only [bind_eq_ok,query_eq_ok,orElse_eq_ok,require_eq_ok]
  refine ⟨_,_,⟨rfl,rfl⟩,deployment,_,⟨present,rfl⟩,(),_,⟨serves,rfl⟩,_,_,⟨rfl,rfl⟩,(),state,?_,?_⟩
  · rw [none']
    rfl
  · rw [none']
    exact ok

/-- The events of an `acquire` keep those that are there. -/
theorem acquire_keeps {id : Uuid} {key : IdempotencyKey} (known : state.ledger.recorded key) :
    (acquire calendar limits deploymentId nodeId now id state).1.ledger.recorded key := by
  unfold acquire
  cases outcome : acquireTransaction calendar limits deploymentId nodeId now id state with
  | error error =>
    unfold perform
    rw [outcome]
    exact known
  | ok pair =>
    obtain ⟨⟨lease,events⟩,after⟩ := pair
    have same : after.ledger = state.ledger := by
      obtain ⟨_,_,_,⟨_,_,rfl⟩ | ⟨_,_,_,rfl,_⟩⟩ := acquire_ensures deploymentId nodeId id _ _ outcome <;> rfl
    rw [perform_ok outcome]
    apply (recorded_fold events key).mpr
    rw [same]
    exact .inl known

theorem releaseEvents_unrefunded {ledger : Ledger} (unrefunded : expired.hourBlockStart + hourBlock ≤ now ∨ ledger.recorded (refundKey expired)) :
    (releaseEvents now expired).foldl (recorded calendar now) ledger = recorded calendar now ledger (releaseProcessEvent expired) := by
  unfold releaseEvents
  by_cases inside : now < expired.hourBlockStart + hourBlock
  · have known : ledger.recorded (refundKey expired) := by
      rcases unrefunded with elapsed | known
      · exact absurd inside (Int.not_lt.mpr elapsed)
      · exact known
    rw [if_pos inside]
    apply recorded_known
    exact (recorded_iff _ _).mpr (.inl known)
  · rw [if_neg inside]
    rfl

end Reaping

theorem reaping_agrees_iff (calendar : Calendar) (limits : Uuid → Limits) (before : Leasing) (deploymentId nodeId id : Uuid)
    (now : Timestamp) (expired lease : SsrProcessLease) (found : expiredLease before deploymentId nodeId now = some expired)
    (acquired : (acquire calendar limits deploymentId nodeId now id before).2 = .ok lease) :
    SameAccounts (acquire calendar limits deploymentId nodeId now id before).1.ledger
        (acquire calendar limits deploymentId nodeId now id (release calendar expired.id deploymentId nodeId now before).1).1.ledger ↔
      expired.hourBlockStart + hourBlock ≤ now ∨ before.ledger.recorded (refundKey expired) := by
  cases outcome : acquireTransaction calendar limits deploymentId nodeId now id before with
  | error error =>
    unfold acquire perform at acquired
    rw [outcome] at acquired
    cases acquired
  | ok pair =>
    obtain ⟨⟨taken,events⟩,after⟩ := pair
    obtain ⟨deployment,leases,present,serves,updated,admitted⟩ := acquire_reaped found outcome
    have own : deployment.id = deploymentId := by
      exact Table.find_key (getByIdForUpdate_eq_some.mp present).1
    let released : Ledger := (releaseEvents now expired).foldl (recorded calendar now) before.ledger
    have between := release_expired calendar found updated
    have unheld : ∀ ledger, unreleasedLease { before with leases := leases, ledger := ledger } deployment.id nodeId = none := by
      intro ledger
      rw [own]
      exact unreleasedLease_reaped found updated _ rfl
    have direct : (acquire calendar limits deploymentId nodeId now id before).1.ledger =
        (acquireEvents (some expired) taken).foldl (recorded calendar now) before.ledger := by
      obtain ⟨rfl,same,_⟩ := admit_ledger { before with leases := leases } none before.ledger (fun teamId => rfl) (unheld before.ledger) admitted
      unfold acquire
      rw [perform_ok outcome]
      dsimp only
      rw [same]
    constructor
    · intro same
      by_contra refunded
      rw [not_or] at refunded
      obtain ⟨unfinished,unknown⟩ := refunded
      have given : released.recorded (refundKey expired) := by
        apply (recorded_fold _ _).mpr
        right
        unfold releaseEvents
        rw [if_pos (Int.not_le.mp unfinished)]
        exact List.mem_cons_of_mem _ (List.mem_singleton_self _)
      have kept : (acquire calendar limits deploymentId nodeId now id
          (release calendar expired.id deploymentId nodeId now before).1).1.ledger.recorded (refundKey expired) := by
        rw [between]
        exact acquire_keeps given
      obtain ⟨event,member,key⟩ := List.any_eq_true.mp kept
      have known : (acquire calendar limits deploymentId nodeId now id before).1.ledger.recorded (refundKey expired) :=
        List.any_eq_true.mpr ⟨event,(same.1 event).mpr member,key⟩
      rw [direct,recorded_fold] at known
      rcases known with held | listed
      · exact unknown held
      · simp [acquireEvents,releaseProcessEvent,recordProcessEvent,recordBlock,refundKey] at listed
    · intro unrefunded
      have ledger : released = recorded calendar now before.ledger (releaseProcessEvent expired) := releaseEvents_unrefunded unrefunded
      have hours : ∀ teamId, released.durableUsage calendar teamId .ssrHoursMonthly now =
          before.ledger.durableUsage calendar teamId .ssrHoursMonthly now := by
        intro teamId
        rw [ledger]
        exact recorded_hours expired teamId now
      obtain ⟨_,_,again⟩ := admit_ledger { before with leases := leases } none released hours (unheld before.ledger) admitted
      have none' := expiredLease_reaped now { before with leases := leases, ledger := released }
        (own ▸ unheld released)
      have second := acquire_unexpired { before with leases := leases, ledger := released } present serves none' again
      have same : (acquire calendar limits deploymentId nodeId now id
          (release calendar expired.id deploymentId nodeId now before).1).1.ledger =
            (acquire calendar limits deploymentId nodeId now id before).1.ledger := by
        rw [between,direct]
        unfold acquire
        rw [perform_ok second]
        change (acquireEvents none taken).foldl (recorded calendar now) released = _
        rw [ledger]
        rfl
      rw [same]
      exact ⟨fun event => Iff.rfl,fun window _ => rfl⟩


section Examples

def leased : Leasing := (acquire january unlimited 3 7 0 4 serving).1

def held : SsrProcessLease := newLease 3 7 2 4 0

/-- The lease expired ten seconds ago, in its first hour. -/
theorem reaping_differs_within_hour :
    expiredLease leased 3 7 (seconds 100) = some held ∧
      (acquire january unlimited 3 7 (seconds 100) 5 leased).2 = .ok (newLease 3 7 2 5 (seconds 100)) ∧
      ¬SameAccounts (acquire january unlimited 3 7 (seconds 100) 5 leased).1.ledger
        (acquire january unlimited 3 7 (seconds 100) 5 (release january 4 3 7 (seconds 100) leased).1).1.ledger := by
  refine ⟨by decide,by decide,fun same => ?_⟩
  have hours := same.2 ⟨2,.ssrHoursMonthly,some 0⟩ (.inr rfl)
  revert hours
  decide

theorem reaping_agrees_hours_later :
    SameAccounts (acquire january unlimited 3 7 (seconds 7200) 5 leased).1.ledger
      (acquire january unlimited 3 7 (seconds 7200) 5 (release january 4 3 7 (seconds 7200) leased).1).1.ledger := by
  have found : expiredLease leased 3 7 (seconds 7200) = some held := by decide
  have acquired : (acquire january unlimited 3 7 (seconds 7200) 5 leased).2 = .ok (newLease 3 7 2 5 (seconds 7200)) := by
    decide
  exact (reaping_agrees_iff january unlimited leased 3 7 5 (seconds 7200) held _ found acquired).mpr (.inl (by decide))

end Examples

end GrassWorker.SsrReaping
