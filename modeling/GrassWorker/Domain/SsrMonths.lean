import GrassWorker.Domain.SsrProcesses
import GrassWorker.Domain.SsrReaping

/-! The months of hour blocks. A block counts in the month its event is recorded in, and
so does its refund, which may be another month. -/
namespace GrassWorker.SsrMonths
open Transaction Deployments Quotas SsrLeases SsrReaping Runs

def block (event : QuotaEvent) : Option (Uuid × Int) :=
  match event.idempotencyKey with
  | some (.ssrHour lease start) => some (lease,start)
  | _ => none

def refunded (ledger : Ledger) (event : QuotaEvent) : Bool :=
  (block event).any fun (lease,start) => ledger.recorded (.ssrHourRelease lease start)

section Calls
variable (calendar : Calendar) (limits : Uuid → Limits)

def consumedIn (ledger : Ledger) (window : Window) : List QuotaEvent :=
  ledger.events.filter fun event => (block event).isSome && decide (event.window calendar = window)

def Balanced (state : Leasing) : Prop := ∀ window : Window, window.dimension = .ssrHoursMonthly →
  state.ledger.used window = ((consumedIn calendar state.ledger window).length : Int) -
    (((consumedIn calendar state.ledger window).filter (refunded state.ledger)).length : Int)

inductive Call
  | acquire (deploymentId nodeId id : Uuid)
  | renew (lease deploymentId nodeId : Uuid)
  | release (lease deploymentId nodeId : Uuid)
  | releaseExpired
  /-- Anything that leaves leases and quotas alone. -/
  | elsewhere (rows : Database)

/-- A call, the time it is given, and when the events of a lease are recorded. -/
structure Event where
  call : Call
  now : Timestamp
  clock : Uuid → Timestamp

def releaseAt (now clock : Timestamp) (lease deploymentId nodeId : Uuid) (state : Leasing) : Leasing :=
  (perform calendar (releaseTransaction lease deploymentId nodeId now) clock state).1

def releaseAll (now : Timestamp) (clock : Uuid → Timestamp) (leases : List SsrProcessLease) (state : Leasing) : Leasing :=
  leases.foldl (fun state lease => releaseAt calendar now (clock lease.id) lease.id lease.deploymentId lease.nodeId state) state

def step (state : Leasing) (event : Event) : Leasing :=
  match event.call with
  | .acquire deploymentId nodeId id =>
    (perform calendar (acquireTransaction calendar limits deploymentId nodeId event.now id) (event.clock id) state).1
  | .renew lease deploymentId nodeId =>
    (perform calendar (renewTransaction calendar limits lease deploymentId nodeId event.now) (event.clock lease) state).1
  | .release lease deploymentId nodeId => releaseAt calendar event.now (event.clock lease) lease deploymentId nodeId state
  | .releaseExpired => releaseAll calendar event.now event.clock (expiredLeases state event.now) state
  | .elsewhere rows => { state with rows := rows }

/-- A lease released inside its hour is released in the month this hour was recorded in. -/
def SameMonth (state : Leasing) (now clock : Timestamp) (lease : SsrProcessLease) : Prop :=
  lease.releasedAt = none → now < lease.hourBlockStart + hourBlock → ∀ event ∈ state.ledger.events,
    event.idempotencyKey = some (recordBlock lease).1 → (calendar event.createdAt).1 = (calendar clock).1

def InMonth (state : Leasing) (event : Event) : Prop :=
  match event.call with
  | .release lease deploymentId nodeId => ∀ row ∈ findLease state lease deploymentId, row.nodeId = nodeId →
      SameMonth calendar state event.now (event.clock lease) row
  | .releaseExpired => ∀ row ∈ expiredLeases state event.now,
      SameMonth calendar state event.now (event.clock row.id) row
  | _ => True

instance (state : Leasing) (now clock : Timestamp) (lease : SsrProcessLease) : Decidable (SameMonth calendar state now clock lease) :=
  inferInstanceAs (Decidable (_ → _ → ∀ event ∈ state.ledger.events, _ → _))

instance (state : Leasing) : ∀ event, Decidable (InMonth calendar state event)
  | ⟨.release lease deploymentId nodeId,now,clock⟩ =>
    inferInstanceAs (Decidable (∀ row ∈ findLease state lease deploymentId, row.nodeId = nodeId → SameMonth calendar state now (clock lease) row))
  | ⟨.releaseExpired,now,clock⟩ =>
    inferInstanceAs (Decidable (∀ row ∈ expiredLeases state now, SameMonth calendar state now (clock row.id) row))
  | ⟨.acquire _ _ _,_,_⟩ => isTrue trivial
  | ⟨.renew _ _ _,_,_⟩ => isTrue trivial
  | ⟨.elsewhere _,_,_⟩ => isTrue trivial

end Calls

/-! One recorded event. -/

section Recording
variable {calendar : Calendar} {now : Timestamp} {ledger : Ledger} {event : KeyedEvent}

theorem recorded_appends (unknown : ¬ledger.recorded event.1) :
    (recorded calendar now ledger event).events = ledger.events ++ [event.2.event (some event.1) now] := by
  obtain ⟨fresh,after,once⟩ := @recordEventOnce_some ledger calendar event.1 event.2 now
  unfold recorded
  rw [once]
  exact recordEventOnce_events unknown once

theorem recorded_used (unknown : ¬ledger.recorded event.1) (counts : event.2.kind.counts) :
    (recorded calendar now ledger event).used (windowAt calendar event.2.teamId event.2.dimension now) =
      max (ledger.used (windowAt calendar event.2.teamId event.2.dimension now) + event.2.deltaValue) 0 := by
  let row := event.2.event (some event.1) now
  obtain ⟨after,applied⟩ := @applyCounterDelta_some (ledger.insertEvent row) calendar row
  have same : recorded calendar now ledger event = after := by
    unfold recorded Ledger.recordEventOnce
    rw [if_neg unknown,if_pos counts]
    change ((((ledger.insertEvent row).applyCounterDelta calendar row).map _).map _).getD _ = _
    rw [applied]
    rfl
  rw [same]
  exact applyCounterDelta_used applied

theorem recorded_other {window : Window} (different : window ≠ windowAt calendar event.2.teamId event.2.dimension now) :
    (recorded calendar now ledger event).used window = ledger.used window := by
  obtain ⟨fresh,after,once⟩ := @recordEventOnce_some ledger calendar event.1 event.2 now
  unfold recorded
  rw [once]
  exact recordEventOnce_other once different

theorem recorded_of_event {key : IdempotencyKey} : ledger.recorded key ↔ ∃ event ∈ ledger.events, event.idempotencyKey = some key := by
  unfold Ledger.recorded
  simp

theorem block_eq_some {event : QuotaEvent} {lease : Uuid} {start : Int} :
    block event = some (lease,start) ↔ event.idempotencyKey = some (.ssrHour lease start) := by
  unfold block
  split
  · rename_i same
    rw [same]
    simp
  · rename_i different
    constructor
    · exact fun impossible => by cases impossible
    · exact fun same => absurd same (different lease start)

end Recording

/-! The blocks that count. -/

section Counting
variable (calendar : Calendar)

def counts (ledger : Ledger) (window : Window) (event : QuotaEvent) : Bool :=
  (block event).isSome && decide (event.window calendar = window) && !refunded ledger event

def outstanding (ledger : Ledger) (window : Window) : Nat := ledger.events.countP (counts calendar ledger window)

structure Accounted (ledger : Ledger) : Prop where
  distinct : (ledger.events.filterMap QuotaEvent.idempotencyKey).Nodup
  consumed : ∀ lease start, ledger.recorded (.ssrHourRelease lease start) → ledger.recorded (.ssrHour lease start)
  balance : ∀ window : Window, window.dimension = .ssrHoursMonthly → ledger.used window = outstanding calendar ledger window

theorem outstanding_eq (ledger : Ledger) (window : Window) : (outstanding calendar ledger window : Int) =
    ((consumedIn calendar ledger window).length : Int) - (((consumedIn calendar ledger window).filter (refunded ledger)).length : Int) := by
  have split := List.length_eq_length_filter_add (l := consumedIn calendar ledger window) (refunded ledger)
  have same : outstanding calendar ledger window = ((consumedIn calendar ledger window).filter fun event => !refunded ledger event).length := by
    unfold outstanding consumedIn
    rw [List.countP_eq_length_filter,List.filter_filter]
    congr 2
    funext event
    unfold counts
    rw [Bool.and_comm]
  omega

end Counting

section Accounts
variable {calendar : Calendar} {now : Timestamp} {ledger : Ledger} {event : KeyedEvent}

theorem refunded_mono {after : Ledger} {row : QuotaEvent}
    (same : ∀ lease start, after.recorded (.ssrHourRelease lease start) ↔ ledger.recorded (.ssrHourRelease lease start)) :
    refunded after row = refunded ledger row := by
  unfold refunded
  cases block row with
  | none => rfl
  | some pair => exact Bool.eq_iff_iff.mpr (same pair.1 pair.2)

theorem distinct_recorded (unknown : ¬ledger.recorded event.1)
    (distinct : (ledger.events.filterMap QuotaEvent.idempotencyKey).Nodup) :
    ((recorded calendar now ledger event).events.filterMap QuotaEvent.idempotencyKey).Nodup := by
  rw [recorded_appends unknown,List.filterMap_append]
  apply List.nodup_append.mpr
  refine ⟨distinct,List.nodup_singleton _,?_⟩
  intro key member other last equal
  obtain ⟨row,inside,same⟩ := List.mem_filterMap.mp member
  obtain rfl := List.mem_singleton.mp last
  rw [equal] at same
  exact unknown (recorded_of_event.mpr ⟨row,inside,same⟩)

theorem outstanding_recorded (unknown : ¬ledger.recorded event.1) (window : Window)
    (same : ∀ lease start, (recorded calendar now ledger event).recorded (.ssrHourRelease lease start) ↔
      ledger.recorded (.ssrHourRelease lease start)) : outstanding calendar (recorded calendar now ledger event) window =
      outstanding calendar ledger window + if counts calendar ledger window (event.2.event (some event.1) now) then 1 else 0 := by
  have kept : counts calendar (recorded calendar now ledger event) window = counts calendar ledger window := by
    funext row
    unfold counts
    rw [refunded_mono same]
  unfold outstanding
  rw [recorded_appends unknown,List.countP_append,List.countP_singleton,kept]

theorem refund_recorded (refund : ∀ lease start, event.1 ≠ .ssrHourRelease lease start) (lease : Uuid) (start : Int) :
    (recorded calendar now ledger event).recorded (.ssrHourRelease lease start) ↔ ledger.recorded (.ssrHourRelease lease start) := by
  rw [recorded_iff]
  exact or_iff_left (refund lease start)

theorem consumed_recorded (refund : ∀ lease start, event.1 ≠ .ssrHourRelease lease start)
    (consumed : ∀ lease start, ledger.recorded (.ssrHourRelease lease start) → ledger.recorded (.ssrHour lease start))
    (lease : Uuid) (start : Int) (given : (recorded calendar now ledger event).recorded (.ssrHourRelease lease start)) :
    (recorded calendar now ledger event).recorded (.ssrHour lease start) := by
  rw [recorded_iff]
  exact .inl (consumed lease start ((refund_recorded refund lease start).mp given))

theorem Accounted.other (accounted : Accounted calendar ledger) (dimension : event.2.dimension ≠ .ssrHoursMonthly)
    (hour : ∀ lease start, event.1 ≠ .ssrHour lease start) (refund : ∀ lease start, event.1 ≠ .ssrHourRelease lease start) :
    Accounted calendar (recorded calendar now ledger event) := by
  by_cases known : ledger.recorded event.1
  · rw [recorded_known known]
    exact accounted
  refine ⟨distinct_recorded known accounted.distinct,consumed_recorded refund accounted.consumed,?_⟩
  intro window hours
  have elsewhere : window ≠ windowAt calendar event.2.teamId event.2.dimension now := by
    intro same
    rw [same] at hours
    exact dimension hours
  have unblocked : block (event.2.event (some event.1) now) = none := by
    cases found : block (event.2.event (some event.1) now) with
    | none => rfl
    | some pair => exact absurd (Option.some.inj (block_eq_some.mp found)) (hour pair.1 pair.2)
  have ignored : ¬counts calendar ledger window (event.2.event (some event.1) now) := by
    unfold counts
    rw [unblocked]
    exact Bool.false_ne_true
  rw [recorded_other elsewhere,accounted.balance window hours,outstanding_recorded known window (refund_recorded refund),if_neg ignored,
    Nat.add_zero]

theorem Accounted.consume (accounted : Accounted calendar ledger) (lease : SsrProcessLease) :
    Accounted calendar (recorded calendar now ledger (recordBlock lease)) := by
  by_cases known : ledger.recorded (recordBlock lease).1
  · rw [recorded_known known]
    exact accounted
  have refund : ∀ owner start, (recordBlock lease).1 ≠ .ssrHourRelease owner start := nofun
  refine ⟨distinct_recorded known accounted.distinct,consumed_recorded refund accounted.consumed,?_⟩
  intro window hours
  let row := (recordBlock lease).2.event (some (recordBlock lease).1) now
  have unrefunded : refunded ledger row = false := by
    apply Bool.eq_false_iff.mpr
    intro given
    exact known (accounted.consumed _ _ given)
  have counted : counts calendar ledger window row = decide (row.window calendar = window) := by
    unfold counts
    rw [unrefunded,Bool.not_false,Bool.and_true]
    exact Bool.true_and _
  rw [outstanding_recorded known window (refund_recorded refund)]
  change _ = ((outstanding calendar ledger window + if counts calendar ledger window row then 1 else 0 : Nat) : Int)
  rw [counted]
  by_cases here : row.window calendar = window
  · rw [if_pos (decide_eq_true here),← here]
    have used := @recorded_used calendar now ledger (recordBlock lease) known rfl
    have before := accounted.balance (row.window calendar) rfl
    change (recorded calendar now ledger (recordBlock lease)).used (row.window calendar) =
      max (ledger.used (row.window calendar) + 1) 0 at used
    omega
  · have elsewhere : window ≠ windowAt calendar (recordBlock lease).2.teamId (recordBlock lease).2.dimension now := Ne.symm here
    rw [if_neg (fun same => here (of_decide_eq_true same)),recorded_other elsewhere,accounted.balance window hours]
    rfl

theorem countP_except {before after : QuotaEvent → Bool} {events : List QuotaEvent} {row : QuotaEvent} (member : row ∈ events)
    {key : IdempotencyKey} (keyed : row.idempotencyKey = some key) (distinct : (events.filterMap QuotaEvent.idempotencyKey).Nodup)
    (same : ∀ other ∈ events, other.idempotencyKey ≠ some key → after other = before other) (stops : after row = false) :
    events.countP after + (if before row then 1 else 0) = events.countP before := by
  obtain ⟨first,rest,rfl⟩ := List.append_of_mem member
  rw [List.filterMap_append,List.filterMap_cons_some keyed] at distinct
  have apart : ∀ other ∈ first ++ rest, other.idempotencyKey ≠ some key := by
    intro other inside equal
    rcases List.mem_append.mp inside with early | late
    · have listed : key ∈ first.filterMap QuotaEvent.idempotencyKey := List.mem_filterMap.mpr ⟨other,early,equal⟩
      exact (List.nodup_append.mp distinct).2.2 key listed key List.mem_cons_self rfl
    · have listed : key ∈ rest.filterMap QuotaEvent.idempotencyKey := List.mem_filterMap.mpr ⟨other,late,equal⟩
      exact (List.nodup_cons.mp (List.nodup_append.mp distinct).2.1).1 listed
  have early : first.countP after = first.countP before := by
    apply List.countP_congr
    intro other inside
    rw [same other (List.mem_append_left _ inside) (apart other (List.mem_append_left _ inside))]
  have late : rest.countP after = rest.countP before := by
    apply List.countP_congr
    intro other inside
    rw [same other (List.mem_append_right _ (List.mem_cons_of_mem _ inside)) (apart other (List.mem_append_right _ inside))]
  rw [List.countP_append,List.countP_append,List.countP_cons,List.countP_cons,early,late,stops,if_neg Bool.false_ne_true]
  omega

theorem Accounted.refund (accounted : Accounted calendar ledger) (lease : SsrProcessLease) {row : QuotaEvent}
    (member : row ∈ ledger.events) (keyed : row.idempotencyKey = some (recordBlock lease).1)
    (month : row.window calendar = windowAt calendar lease.teamId .ssrHoursMonthly now) :
    Accounted calendar (recorded calendar now ledger (releaseBlockEvent lease)) := by
  by_cases known : ledger.recorded (releaseBlockEvent lease).1
  · rw [recorded_known known]
    exact accounted
  constructor
  · exact distinct_recorded known accounted.distinct
  · intro owner start given
    rw [recorded_iff] at given ⊢
    rcases given with earlier | here
    · exact .inl (accounted.consumed owner start earlier)
    · left
      rw [← (IdempotencyKey.ssrHourRelease.inj here).1,← (IdempotencyKey.ssrHourRelease.inj here).2]
      exact recorded_of_event.mpr ⟨row,member,keyed⟩
  · intro window hours
    have blocked : block row = some (lease.id,unixTimestamp lease.hourBlockStart) := block_eq_some.mpr keyed
    have refunding : ∀ other, refunded (recorded calendar now ledger (releaseBlockEvent lease)) other =
        (refunded ledger other || decide (block other = block row)) := by
      intro other
      unfold refunded
      rw [blocked]
      cases block other with
      | none => rfl
      | some pair =>
        apply Bool.eq_iff_iff.mpr
        simp only [Option.any_some,recorded_iff,Bool.or_eq_true,decide_eq_true_eq,Option.some.injEq,Prod.ext_iff]
        apply or_congr_right
        constructor
        · exact fun same => ⟨(IdempotencyKey.ssrHourRelease.inj same).1.symm,(IdempotencyKey.ssrHourRelease.inj same).2.symm⟩
        · intro same
          rw [same.1,same.2]
          rfl
    have ignored : counts calendar (recorded calendar now ledger (releaseBlockEvent lease)) window
        ((releaseBlockEvent lease).2.event (some (releaseBlockEvent lease).1) now) = false := rfl
    have same : ∀ other ∈ ledger.events, other.idempotencyKey ≠ some (recordBlock lease).1 →
        counts calendar (recorded calendar now ledger (releaseBlockEvent lease)) window other = counts calendar ledger window other := by
      intro other inside apart
      have different : block other ≠ block row := by
        rw [blocked]
        exact fun equal => apart (block_eq_some.mp equal)
      unfold counts
      rw [refunding,decide_eq_false different,Bool.or_false]
    have stops : counts calendar (recorded calendar now ledger (releaseBlockEvent lease)) window row = false := by
      unfold counts
      rw [refunding,decide_eq_true rfl,Bool.or_true,Bool.not_true,Bool.and_false]
    have counting := countP_except member keyed accounted.distinct same stops
    have total : outstanding calendar (recorded calendar now ledger (releaseBlockEvent lease)) window =
        ledger.events.countP (counts calendar (recorded calendar now ledger (releaseBlockEvent lease)) window) := by
      unfold outstanding
      rw [recorded_appends known,List.countP_append,List.countP_singleton,ignored,if_neg Bool.false_ne_true,Nat.add_zero]
    have unrefunded : refunded ledger row = false := by
      unfold refunded
      rw [blocked]
      exact Bool.eq_false_iff.mpr known
    have counted : counts calendar ledger window row = decide (row.window calendar = window) := by
      unfold counts
      rw [unrefunded,blocked,Option.isSome_some,Bool.true_and,Bool.not_false,Bool.and_true]
    have before := accounted.balance window hours
    unfold outstanding at before
    rw [total]
    rw [counted] at counting
    by_cases here : row.window calendar = window
    · have used := @recorded_used calendar now ledger (releaseBlockEvent lease) known rfl
      change (recorded calendar now ledger (releaseBlockEvent lease)).used (windowAt calendar lease.teamId .ssrHoursMonthly now) =
        max (ledger.used (windowAt calendar lease.teamId .ssrHoursMonthly now) + (-1)) 0 at used
      rw [← month,here] at used
      rw [if_pos (decide_eq_true here)] at counting
      omega
    · have elsewhere : window ≠ windowAt calendar (releaseBlockEvent lease).2.teamId (releaseBlockEvent lease).2.dimension now := by
        intro same
        exact here (month.trans same.symm)
      rw [if_neg (fun same => here (of_decide_eq_true same))] at counting
      rw [recorded_other elsewhere]
      omega

end Accounts

/-! The leases and their blocks. -/

section Leases
variable {calendar : Calendar} {limits : Uuid → Limits} {now clock : Timestamp} {state : Leasing} {leases : Leases} {ledger : Ledger}

structure OfProcess (event : KeyedEvent) : Prop where
  dimension : event.2.dimension ≠ .ssrHoursMonthly
  hour : ∀ lease start, event.1 ≠ .ssrHour lease start
  refund : ∀ lease start, event.1 ≠ .ssrHourRelease lease start

inductive Charges (leases : Leases) (event : KeyedEvent) : Prop
  | process (process : OfProcess event)
  | hour (row : SsrProcessLease) (member : row ∈ leases.rows) (same : event = recordBlock row)

def Owned (leases : Leases) (ledger : Ledger) : Prop := ∀ event ∈ ledger.events, ∀ lease start,
  event.idempotencyKey = some (.ssrHour lease start) →
    event.dimension = .ssrHoursMonthly ∧ ∃ row, leases.find lease = some row ∧ row.teamId = event.teamId

structure Kept (calendar : Calendar) (state : Leasing) : Prop where
  accounts : Accounted calendar state.ledger
  owned : Owned state.leases state.ledger
  current : ∀ lease ∈ state.leases.rows, state.ledger.recorded (recordBlock lease).1

def SameBlock (row next : SsrProcessLease) : Prop :=
  next.id = row.id ∧ next.teamId = row.teamId ∧ next.hourBlockStart = row.hourBlockStart

theorem releaseProcessEvent_ofProcess (lease : SsrProcessLease) : OfProcess (releaseProcessEvent lease) := ⟨nofun,nofun,nofun⟩

theorem recordProcessEvent_ofProcess (lease : SsrProcessLease) : OfProcess (recordProcessEvent lease) := ⟨nofun,nofun,nofun⟩

theorem SameBlock.refl (row : SsrProcessLease) : SameBlock row row := ⟨rfl,rfl,rfl⟩

theorem SameBlock.key {row next : SsrProcessLease} (same : SameBlock row next) : (recordBlock next).1 = (recordBlock row).1 := by
  unfold recordBlock
  rw [same.1,same.2.2]

theorem owned_recorded {event : KeyedEvent} (owned : Owned leases ledger)
    (new : ∀ lease start, event.1 = .ssrHour lease start →
      event.2.dimension = .ssrHoursMonthly ∧ ∃ row, leases.find lease = some row ∧ row.teamId = event.2.teamId) :
    Owned leases (recorded calendar clock ledger event) := by
  by_cases known : ledger.recorded event.1
  · rw [recorded_known known]
    exact owned
  intro row member lease start keyed
  rw [recorded_appends known] at member
  rcases List.mem_append.mp member with old | last
  · exact owned row old lease start keyed
  · obtain rfl := List.mem_singleton.mp last
    exact new lease start (Option.some.inj keyed)

theorem Charges.recorded {event : KeyedEvent} (charges : Charges leases event)
    (before : Accounted calendar ledger ∧ Owned leases ledger) :
    Accounted calendar (recorded calendar clock ledger event) ∧ Owned leases (recorded calendar clock ledger event) := by
  cases charges with
  | process process =>
    refine ⟨before.1.other process.dimension process.hour process.refund,owned_recorded before.2 ?_⟩
    exact fun lease start same => absurd same (process.hour lease start)
  | hour row member same =>
    rw [same]
    refine ⟨before.1.consume row,owned_recorded before.2 ?_⟩
    intro lease start equal
    rw [← (IdempotencyKey.ssrHour.inj equal).1]
    exact ⟨rfl,row,Table.find_of_mem member,rfl⟩

theorem charges_fold {events : List KeyedEvent} (charges : ∀ event ∈ events, Charges leases event)
    (before : Accounted calendar ledger ∧ Owned leases ledger) :
    Accounted calendar (events.foldl (recorded calendar clock) ledger) ∧ Owned leases (events.foldl (recorded calendar clock) ledger) := by
  induction events generalizing ledger with
  | nil => exact before
  | cons event rest ih =>
    have here := @Charges.recorded calendar clock leases ledger event (charges event List.mem_cons_self) before
    exact ih (fun other member => charges other (List.mem_cons_of_mem event member)) here

theorem Owned.later (owned : Owned leases ledger) {after : Leases}
    (teams : ∀ id row, leases.find id = some row → ∃ next, after.find id = some next ∧ next.teamId = row.teamId) :
    Owned after ledger := by
  intro event member lease start keyed
  obtain ⟨dimension,row,found,team⟩ := owned event member lease start keyed
  obtain ⟨next,reached,same⟩ := teams lease row found
  exact ⟨dimension,next,reached,same.trans team⟩

/-- What a transaction does to the leases, and the events it leaves: every lease is still
paid for up to its block. -/
structure Moved (state : Leasing) (events : List KeyedEvent) (after : Leasing) : Prop where
  ledger : after.ledger = state.ledger
  teams : ∀ id row, state.leases.find id = some row → ∃ next, after.leases.find id = some next ∧ next.teamId = row.teamId
  charges : ∀ event ∈ events, Charges after.leases event
  current : ∀ lease ∈ after.leases.rows, (∃ old ∈ state.leases.rows, (recordBlock lease).1 = (recordBlock old).1) ∨
    (recordBlock lease).1 ∈ events.map Prod.fst

theorem Kept.moved (kept : Kept calendar state) {events : List KeyedEvent} {after : Leasing} (moved : Moved state events after) :
    Kept calendar { after with ledger := events.foldl (recorded calendar clock) after.ledger } := by
  have before : Accounted calendar after.ledger ∧ Owned after.leases after.ledger := by
    rw [moved.ledger]
    exact ⟨kept.accounts,kept.owned.later moved.teams⟩
  obtain ⟨accounts,owned⟩ := @charges_fold calendar clock after.leases after.ledger events moved.charges before
  refine ⟨accounts,owned,?_⟩
  intro lease member
  apply (recorded_fold _ _).mpr
  rcases moved.current lease member with ⟨old,inside,same⟩ | listed
  · left
    rw [moved.ledger,same]
    exact kept.current old inside
  · exact .inr listed

theorem Kept.performed {α : Type} (kept : Kept calendar state) {transaction : Leased (α × List KeyedEvent)}
    (moves : Ensures transaction state fun result after => Moved state result.2 after) :
    Kept calendar (perform calendar transaction clock state).1 := by
  cases outcome : transaction state with
  | error error =>
    unfold perform
    rw [outcome]
    exact kept
  | ok pair =>
    obtain ⟨⟨value,events⟩,after⟩ := pair
    rw [perform_ok outcome]
    exact kept.moved (moves _ _ outcome)

theorem moved_steady (steady : Table.Evolves SameBlock (fun _ => False) state.leases leases) {events : List KeyedEvent}
    (process : ∀ event ∈ events, OfProcess event) : Moved state events { state with leases := leases } := by
  constructor
  · rfl
  · intro id row found
    obtain ⟨next,reached,same⟩ := steady.kept id row found
    exact ⟨next,reached,same.2.1⟩
  · exact fun event member => .process (process event member)
  · intro lease member
    rcases steady.origin (Table.find_of_mem member) with ⟨old,found,same⟩ | ⟨_,impossible⟩
    · exact .inl ⟨old,Table.find_mem found,same.key⟩
    · exact impossible.elim

theorem steady_released {id : Uuid} (updated : state.leases.update id (setReleased now) (setReleased_id now) = some leases) :
    Table.Evolves SameBlock (fun _ => False) state.leases leases := by
  refine (Table.evolves_update updated).mono ?_ fun _ impossible => impossible
  intro row next _ same
  rw [same]
  split
  · exact ⟨rfl,rfl,rfl⟩
  · exact .refl row

theorem reap_steady (expired : Option SsrProcessLease) : Ensures (reap now expired) state fun _ after =>
    ∃ reaped, after = { state with leases := reaped } ∧ Table.Evolves SameBlock (fun _ => False) state.leases reaped := by
  cases expired with
  | none =>
    unfold reap
    rw [ensures_pure]
    exact ⟨state.leases,rfl,Table.evolves_refl SameBlock.refl _⟩
  | some lease =>
    unfold reap markReleased
    rw [ensures_updateLease]
    exact fun reaped updated => ⟨reaped,rfl,steady_released updated⟩

theorem acquire_moved (deploymentId nodeId id : Uuid) : Ensures (acquireTransaction calendar limits deploymentId nodeId now id) state
    fun result after => Moved state result.2 after := by
  unfold acquireTransaction
  simp only [ensures_bind,ensures_query,ensures_orElse,ensures_require]
  intro deployment found serves
  refine (reap_steady _).mono ?_
  intro _ between reaping
  obtain ⟨reaped,rfl,steady⟩ := reaping
  refine (admit_ensures deployment nodeId id _).mono ?_
  intro result after holds
  rcases holds with ⟨_,none,rfl⟩ | ⟨teamId,leases,inserted,rfl,new,recording⟩
  · rw [none]
    exact moved_steady steady fun event impossible => absurd impossible List.not_mem_nil
  · have member : result.1 ∈ leases.rows := by
      rw [Table.rows_insert inserted,new]
      exact List.mem_append_right _ (List.mem_singleton_self _)
    rw [recording]
    constructor
    · rfl
    · intro id row present
      obtain ⟨next,reached,same⟩ := steady.kept id row present
      have still : leases.find id = some next := by
        obtain ⟨last,final,rfl⟩ := (Table.evolves_insert inserted).kept id next reached
        exact final
      exact ⟨next,still,same.2.1⟩
    · intro event listed
      rcases List.mem_append.mp listed with old | rest
      · obtain ⟨lease,_,rfl⟩ := Option.map_eq_some_iff.mp (Option.mem_toList.mp old)
        exact .process (releaseProcessEvent_ofProcess lease)
      · rcases List.mem_cons.mp rest with rfl | last
        · exact .process (recordProcessEvent_ofProcess result.1)
        · exact .hour result.1 member (List.mem_singleton.mp last)
    · intro lease present
      rw [Table.rows_insert inserted] at present
      rcases List.mem_append.mp present with old | last
      · rcases steady.origin (Table.find_of_mem old) with ⟨row,found,same⟩ | ⟨_,impossible⟩
        · exact .inl ⟨row,Table.find_mem found,same.key⟩
        · exact impossible.elim
      · right
        rw [List.mem_singleton.mp last,← new]
        unfold acquireEvents
        rw [List.map_append]
        exact List.mem_append_right _ (List.mem_cons_of_mem _ (List.mem_singleton_self _))

theorem renew_moved (leaseId deploymentId nodeId : Uuid) :
    Ensures (renewTransaction calendar limits leaseId deploymentId nodeId now) state fun result after => Moved state result.2 after := by
  refine (renew_ensures leaseId deploymentId nodeId).mono ?_
  intro result after holds
  obtain ⟨lease,leases,found,_,_,updated,rfl,value,recording⟩ := holds
  have reached : leases.find leaseId = some (setRenewed now (crosses lease now) lease) := by
    rw [Table.find_update updated,if_pos rfl,found]
    rfl
  have member : result.1 ∈ leases.rows := by
    rw [value]
    exact Table.find_mem reached
  constructor
  · rfl
  · intro id row present
    have evolves : Table.Evolves (fun row next => next = if row.id = leaseId then setRenewed now (crosses lease now) row else row)
        (fun _ => True) state.leases leases := Table.evolves_update updated
    obtain ⟨next,still,same⟩ := evolves.kept id row present
    refine ⟨next,still,?_⟩
    rw [same]
    split <;> rfl
  · intro event listed
    rw [recording] at listed
    split at listed
    · exact .hour result.1 member (List.mem_singleton.mp listed)
    · cases listed
  · intro row present
    rw [Table.rows_update updated] at present
    obtain ⟨old,inside,rfl⟩ := List.mem_map.mp present
    by_cases chosen : old.id = leaseId
    · rw [if_pos chosen,recording]
      have same : old = lease := by
        have again := Table.find_of_mem inside
        rw [chosen] at again
        exact Option.some.inj (again.symm.trans found)
      rw [same]
      cases crossing : crosses lease now with
      | false => exact .inl ⟨lease,Table.find_mem found,rfl⟩
      | true =>
        right
        rw [if_pos rfl,value,crossing]
        exact List.mem_singleton_self _
    · rw [if_neg chosen]
      exact .inl ⟨old,inside,rfl⟩

end Leases

/-! Releases, and runs of all calls. -/

section Releases
variable {calendar : Calendar} {limits : Uuid → Limits} {now clock : Timestamp} {state after : Leasing}

structure Later (before after : Leasing) : Prop where
  rows : ∀ id row, after.leases.find id = some row →
    ∃ old, before.leases.find id = some old ∧ old.hourBlockStart = row.hourBlockStart ∧ (row.releasedAt = none → old.releasedAt = none)
  blocks : ∀ event ∈ after.ledger.events, (block event).isSome → event ∈ before.ledger.events

theorem Later.refl (state : Leasing) : Later state state := ⟨fun _ row found => ⟨row,found,rfl,id⟩,fun _ member _ => member⟩

theorem Later.trans {before middle : Leasing} (first : Later before middle) (second : Later middle after) : Later before after := by
  constructor
  · intro id row found
    obtain ⟨next,reached,block,released⟩ := second.rows id row found
    obtain ⟨old,earlier,same,still⟩ := first.rows id next reached
    exact ⟨old,earlier,same.trans block,fun unreleased => still (released unreleased)⟩
  · exact fun event member blocked => first.blocks event (second.blocks event member blocked) blocked

theorem later_fold {leases : Leases} {events : List KeyedEvent} (unblocked : ∀ event ∈ events, ∀ lease start, event.1 ≠ .ssrHour lease start)
    (rows : ∀ id row, leases.find id = some row → ∃ old, state.leases.find id = some old ∧
      old.hourBlockStart = row.hourBlockStart ∧ (row.releasedAt = none → old.releasedAt = none)) :
    Later state { state with leases := leases, ledger := events.foldl (recorded calendar clock) state.ledger } := by
  refine ⟨rows,?_⟩
  have blocks : ∀ ledger : Ledger, ∀ row ∈ (events.foldl (recorded calendar clock) ledger).events, (block row).isSome → row ∈ ledger.events := by
    clear rows
    induction events with
    | nil => exact fun ledger row member _ => member
    | cons event rest ih =>
      intro ledger row member blocked
      have here := ih (fun other inside => unblocked other (List.mem_cons_of_mem event inside)) _ row member blocked
      by_cases known : ledger.recorded event.1
      · rw [recorded_known known] at here
        exact here
      rw [recorded_appends known] at here
      rcases List.mem_append.mp here with old | last
      · exact old
      · obtain ⟨pair,found⟩ := Option.isSome_iff_exists.mp blocked
        have keyed := block_eq_some.mp found
        rw [List.mem_singleton.mp last] at keyed
        exact absurd (Option.some.inj keyed) (unblocked event List.mem_cons_self pair.1 pair.2)
  exact blocks state.ledger

theorem rows_released {id : Uuid} {leases : Leases} (updated : state.leases.update id (setReleased now) (setReleased_id now) = some leases) :
    ∀ id row, leases.find id = some row → ∃ old, state.leases.find id = some old ∧
      old.hourBlockStart = row.hourBlockStart ∧ (row.releasedAt = none → old.releasedAt = none) := by
  intro id row found
  rw [Table.find_update updated] at found
  split at found
  · obtain ⟨old,present,rfl⟩ := Option.map_eq_some_iff.mp found
    exact ⟨old,present,rfl,fun unreleased => (by cases unreleased)⟩
  · exact ⟨row,found,rfl,fun unreleased => unreleased⟩

theorem release_ensures (leaseId deploymentId nodeId : Uuid) : Ensures (releaseTransaction leaseId deploymentId nodeId now) state
    fun result after => result.2 = [] ∧ after = state ∨ ∃ lease leases, findLease state leaseId deploymentId = some lease ∧
      lease.nodeId = nodeId ∧ lease.releasedAt = none ∧
      state.leases.update lease.id (setReleased now) (setReleased_id now) = some leases ∧
      after = { state with leases := leases } ∧ result.2 = releaseEvents now lease := by
  unfold releaseTransaction
  rw [ensures_bind,ensures_query]
  cases found : findLease state leaseId deploymentId with
  | none =>
    rw [ensures_pure]
    exact .inl ⟨rfl,rfl⟩
  | some lease =>
    simp only [ensures_bind,ensures_require,ensures_ite,ensures_pure]
    intro node
    refine ⟨fun _ => .inl ⟨trivial,trivial⟩,fun unreleased => ?_⟩
    unfold markReleased
    rw [ensures_updateLease]
    intro leases updated
    exact .inr ⟨lease,leases,rfl,node,Option.not_isSome_iff_eq_none.mp unreleased,updated,rfl,rfl⟩

theorem releaseEvents_unblocked (lease : SsrProcessLease) :
    ∀ event ∈ releaseEvents now lease, ∀ owner start, event.1 ≠ .ssrHour owner start := by
  intro event member owner start
  unfold releaseEvents at member
  rcases List.mem_cons.mp member with rfl | rest
  · nofun
  · split at rest
    · rw [List.mem_singleton.mp rest]
      nofun
    · cases rest

theorem Kept.refund (kept : Kept calendar state) {lease : SsrProcessLease} (member : lease ∈ state.leases.rows)
    (month : ∀ event ∈ state.ledger.events, event.idempotencyKey = some (recordBlock lease).1 →
      (calendar event.createdAt).1 = (calendar clock).1) :
    Kept calendar { state with ledger := recorded calendar clock state.ledger (releaseBlockEvent lease) } := by
  obtain ⟨event,inside,keyed⟩ := recorded_of_event.mp (kept.current lease member)
  obtain ⟨dimension,row,found,team⟩ := kept.owned event inside _ _ keyed
  obtain rfl : row = lease := Option.some.inj (found.symm.trans (Table.find_of_mem member))
  have window : event.window calendar = windowAt calendar row.teamId .ssrHoursMonthly clock := by
    unfold QuotaEvent.window windowAt
    rw [dimension,← team]
    simp only [periodStart,QuotaDimension.period,month event inside keyed]
  refine ⟨kept.accounts.refund row inside keyed window,owned_recorded kept.owned nofun,?_⟩
  intro lease present
  rw [recorded_iff]
  exact .inl (kept.current lease present)

theorem releaseAt_kept (kept : Kept calendar state) (leaseId deploymentId nodeId : Uuid)
    (month : ∀ row, findLease state leaseId deploymentId = some row → row.nodeId = nodeId → SameMonth calendar state now clock row) :
    Kept calendar (releaseAt calendar now clock leaseId deploymentId nodeId state) ∧
      Later state (releaseAt calendar now clock leaseId deploymentId nodeId state) := by
  unfold releaseAt
  cases outcome : releaseTransaction leaseId deploymentId nodeId now state with
  | error error =>
    unfold perform
    rw [outcome]
    exact ⟨kept,.refl state⟩
  | ok pair =>
    obtain ⟨⟨value,events⟩,after⟩ := pair
    rw [perform_ok outcome]
    rcases release_ensures leaseId deploymentId nodeId _ _ outcome with ⟨empty,same⟩ | ⟨lease,leases,found,node,unreleased,updated,same,released⟩
    · rw [show events = [] from empty,show after = state from same]
      exact ⟨kept,.refl state⟩
    · dsimp only at same released
      rw [released,same]
      have member : lease ∈ state.leases.rows := Table.find_mem (Option.filter_eq_some_iff.mp found).1
      have steady := steady_released updated
      have moved : Moved state [releaseProcessEvent lease] { state with leases := leases } := by
        apply moved_steady steady
        intro event listed
        rw [List.mem_singleton.mp listed]
        exact releaseProcessEvent_ofProcess lease
      have first := @Kept.moved calendar clock state kept _ _ moved
      constructor
      · unfold releaseEvents
        by_cases inside : now < lease.hourBlockStart + hourBlock
        · rw [if_pos inside]
          obtain ⟨row,reached,same⟩ := steady.kept lease.id lease (Table.find_of_mem member)
          have refunds : releaseBlockEvent lease = releaseBlockEvent row := by
            unfold releaseBlockEvent leaseEvent
            rw [same.1,same.2.1,same.2.2]
          have earlier : Later state { state with
              leases := leases
              ledger := recorded calendar clock state.ledger (releaseProcessEvent lease) } :=
            @later_fold calendar clock state leases [releaseProcessEvent lease] (by simp [releaseProcessEvent]) (rows_released updated)
          have next := @Kept.refund calendar clock _ first row (Table.find_mem reached) ?_
          · change Kept calendar { state with
              leases := leases
              ledger := recorded calendar clock (recorded calendar clock state.ledger (releaseProcessEvent lease)) (releaseBlockEvent lease) }
            rw [refunds]
            exact next
          · intro event listed keyed
            rw [same.key] at keyed
            have blocked : (block event).isSome := by
              rw [block_eq_some.mpr keyed]
              rfl
            exact month lease found node unreleased inside event (earlier.blocks event listed blocked) keyed
        · rw [if_neg inside]
          exact first
      · exact later_fold (releaseEvents_unblocked lease) (rows_released updated)

theorem SameMonth.later (later : Later state after) {id : Uuid} {old row : SsrProcessLease} (before : state.leases.find id = some old)
    (found : after.leases.find id = some row) (month : SameMonth calendar state now clock old) :
    SameMonth calendar after now clock row := by
  intro unreleased inside event member keyed
  obtain ⟨same,reached,start,released⟩ := later.rows id row found
  obtain rfl : old = same := Option.some.inj (before.symm.trans reached)
  have key : (recordBlock old).1 = (recordBlock row).1 := by
    unfold recordBlock
    rw [Table.find_key before,Table.find_key found,start]
  have blocked : (block event).isSome := by
    rw [block_eq_some.mpr keyed]
    rfl
  rw [← start] at inside
  rw [← key] at keyed
  exact month (released unreleased) inside event (later.blocks event member blocked) keyed

theorem releaseAll_kept (kept : Kept calendar state) (clock : Uuid → Timestamp) {leases : List SsrProcessLease}
    (rows : ∀ lease ∈ leases, state.leases.find lease.id = some lease)
    (month : ∀ lease ∈ leases, SameMonth calendar state now (clock lease.id) lease) :
    Kept calendar (releaseAll calendar now clock leases state) := by
  have released : ∀ middle, Kept calendar middle → Later state middle →
      Kept calendar (releaseAll calendar now clock leases middle) := by
    induction leases with
    | nil => exact fun middle held _ => held
    | cons lease rest ih =>
      intro middle held later
      obtain ⟨next,further⟩ := releaseAt_kept held lease.id lease.deploymentId lease.nodeId fun row found _ =>
        SameMonth.later later (rows lease List.mem_cons_self) (Option.filter_eq_some_iff.mp found).1 (month lease List.mem_cons_self)
      exact ih (fun other member => rows other (List.mem_cons_of_mem lease member))
        (fun other member => month other (List.mem_cons_of_mem lease member)) _ next (later.trans further)
  exact released state kept (.refl state)

theorem step_kept (kept : Kept calendar state) (event : Event) (month : InMonth calendar state event) :
    Kept calendar (step calendar limits state event) := by
  obtain ⟨call,now,clock⟩ := event
  cases call with
  | acquire deploymentId nodeId id => exact kept.performed (acquire_moved deploymentId nodeId id)
  | renew lease deploymentId nodeId => exact kept.performed (renew_moved lease deploymentId nodeId)
  | release lease deploymentId nodeId => exact (releaseAt_kept kept lease deploymentId nodeId month).1
  | releaseExpired =>
    apply releaseAll_kept kept clock
    · exact fun lease member => Table.find_of_mem (List.mem_filter.mp member).1
    · exact month
  | elsewhere rows => exact ⟨kept.accounts,kept.owned,kept.current⟩

end Releases

theorem months_balanced_of_same_month (calendar : Calendar) (limits : Uuid → Limits) (rows : Database) (events : List Event)
    (month : Along (step calendar limits) (InMonth calendar) ⟨rows,∅,{}⟩ events) :
    Throughout (step calendar limits) (Balanced calendar) ⟨rows,∅,{}⟩ events := by
  have start : Kept calendar ⟨rows,∅,{}⟩ := by
    refine ⟨⟨List.nodup_nil,?_,fun window _ => rfl⟩,?_,?_⟩
    · intro lease start impossible
      cases impossible
    · intro event member
      cases member
    · intro lease member
      cases member
  have implied : ∀ state, Kept calendar state → Balanced calendar state := by
    intro state kept window hours
    rw [kept.accounts.balance window hours,outstanding_eq]
  exact throughout_of_invariant (fun state event kept month => step_kept kept event month) implied _ events start month

section Examples

def winter : Calendar := fun time => if time < seconds 2678400 then (0,seconds 2678400) else (seconds 2678400,seconds 5097600)

/-- One lease starts ten seconds before the month ends, another after that, and the first is released. -/
def overMidnight : List Event :=
  [⟨.acquire 3 7 11,seconds 2678390,fun _ => seconds 2678390⟩,⟨.acquire 8 7 12,seconds 2678410,fun _ => seconds 2678410⟩,
    ⟨.release 11 3 7,seconds 2678420,fun _ => seconds 2678420⟩]

/-- The new month has lost the hour of the lease that is still in it. -/
theorem refund_in_next_month : let final := run (step winter fun _ _ => none) ⟨SsrProcesses.twoServed,∅,{}⟩ overMidnight
    ¬Balanced winter final ∧ (consumedIn winter final.ledger ⟨2,.ssrHoursMonthly,some (seconds 2678400)⟩).length = 1 ∧
      final.ledger.used ⟨2,.ssrHoursMonthly,some (seconds 2678400)⟩ = 0 := by
  refine ⟨fun balanced => ?_,by decide,by decide⟩
  have month := balanced ⟨2,.ssrHoursMonthly,some (seconds 2678400)⟩ rfl
  revert month
  decide

theorem months_balanced_before_midnight : Throughout (step winter fun _ _ => none) (Balanced winter) ⟨SsrProcesses.twoServed,∅,{}⟩
    [⟨.acquire 3 7 11,seconds 2678300,fun _ => seconds 2678300⟩,⟨.release 11 3 7,seconds 2678390,fun _ => seconds 2678390⟩,
      ⟨.acquire 8 7 12,seconds 2678410,fun _ => seconds 2678410⟩] := by
  apply months_balanced_of_same_month
  decide

end Examples

end GrassWorker.SsrMonths
