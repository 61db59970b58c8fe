import GrassWorker.Domain.SsrLeases
import Mathlib.Logic.Relation

/-! The hours of a lease: a renewal moves the lease into the next hour at most once, and
because a lease lasts less than an hour that is enough. -/
namespace GrassWorker.SsrHours
open Transaction Quotas SsrLeases

def ofHour (lease : Uuid) (event : QuotaEvent) : Bool :=
  match event.idempotencyKey with
  | some (.ssrHour owner _) => owner = lease
  | _ => false

def hourEvents (state : Leasing) (lease : Uuid) : List QuotaEvent := state.ledger.events.filter (ofHour lease)

/-- The key of the hour that starts `block` hours after the lease did. -/
def hourKey (lease : Uuid) (started : Timestamp) (block : Nat) : IdempotencyKey :=
  .ssrHour lease (unixTimestamp (started + block * hourBlock))

def wholeHours (started now : Timestamp) : Nat := ((now - started) / hourBlock).toNat

structure Unused (state : Leasing) (lease : Uuid) : Prop where
  row : state.leases.find lease = none
  events : hourEvents state lease = []

/-- A successful renewal, or anything that leaves the lease and its hours alone. -/
inductive Renewal (calendar : Calendar) (lease : SsrProcessLease) : Leasing × Timestamp → Leasing × Timestamp → Prop
  | renewed (limits : Uuid → Limits) (state final : Leasing) (last now : Timestamp) (updated : SsrProcessLease) (order : last ≤ now)
      (success : renew calendar limits lease.id lease.deploymentId lease.nodeId now state = (final,.ok updated)) :
      Renewal calendar lease (state,last) (final,now)
  | elsewhere (state other : Leasing) (now : Timestamp) (row : other.leases.find lease.id = state.leases.find lease.id)
      (events : hourEvents other lease.id = hourEvents state lease.id) : Renewal calendar lease (state,now) (other,now)

/-- A lease started and last renewed at these times has the hours in between recorded, each once. -/
structure HoursPaid (started renewed : Timestamp) (id : Uuid) (state : Leasing) : Prop where
  row : ∃ lease, state.leases.find id = some lease ∧ lease.renewedAt = renewed ∧
    lease.hourBlockStart = started + wholeHours started renewed * hourBlock ∧
    lease.hourBlockStart ≤ renewed ∧ renewed < lease.hourBlockStart + hourBlock
  keys : (hourEvents state id).map QuotaEvent.idempotencyKey =
    (List.range (wholeHours started renewed + 1)).map fun block => some (hourKey id started block)
  distinct : ((hourEvents state id).map QuotaEvent.idempotencyKey).Nodup
  consumed : ∀ event ∈ hourEvents state id, event.kind = .consume ∧ event.dimension = .ssrHoursMonthly ∧ event.deltaValue = 1

/-- What carries the induction: the lease is in its `hours`-th hour and lasts less than an hour more. -/
structure InHour (started now : Timestamp) (hours : Nat) (id : Uuid) (state : Leasing) : Prop where
  row : ∃ lease, state.leases.find id = some lease ∧ lease.renewedAt = now ∧ lease.expiresAt = now + leaseTtl ∧
    lease.hourBlockStart = started + hours * hourBlock
  begun : started + hours * hourBlock ≤ now
  unfinished : now < started + hours * hourBlock + hourBlock
  keys : (hourEvents state id).map QuotaEvent.idempotencyKey =
    (List.range (hours + 1)).map fun block => some (hourKey id started block)
  consumed : ∀ event ∈ hourEvents state id, event.kind = .consume ∧ event.dimension = .ssrHoursMonthly ∧ event.deltaValue = 1

section Arithmetic

private theorem timestamp_block (started : Int) (block : Nat) :
    unixTimestamp (started + block * hourBlock) = unixTimestamp started + block * 3600 := by
  unfold unixTimestamp hourBlock seconds
  omega

theorem hourKey_injective (lease : Uuid) (started : Timestamp) : Function.Injective (hourKey lease started) := by
  intro first second same
  have times := (IdempotencyKey.ssrHour.inj same).2
  rw [timestamp_block,timestamp_block] at times
  omega

private theorem hours_of_bounds {started now : Int} {hours : Nat} (begun : started + hours * hourBlock ≤ now)
    (unfinished : now < started + hours * hourBlock + hourBlock) : wholeHours started now = hours := by
  unfold wholeHours hourBlock seconds at *
  omega

private theorem next_hour {started last now : Int} {hours : Nat} (unfinished : last < started + hours * hourBlock + hourBlock)
    (unexpired : now < last + leaseTtl) : now < started + ((hours + 1 : Nat) : Int) * hourBlock + hourBlock := by
  unfold leaseTtl hourBlock seconds at *
  omega

private theorem block_succ (started : Int) (hours : Nat) :
    started + hours * hourBlock + hourBlock = started + ((hours + 1 : Nat) : Int) * hourBlock := by
  unfold hourBlock seconds
  omega

end Arithmetic

section Steps
variable {calendar : Calendar} {limits : Uuid → Limits} {started now : Timestamp} {hours : Nat} {id : Uuid} {state : Leasing}

theorem InHour.paid (inside : InHour started now hours id state) : HoursPaid started now id state := by
  have same := hours_of_bounds inside.begun inside.unfinished
  obtain ⟨lease,found,renewed,_,block⟩ := inside.row
  constructor
  · refine ⟨lease,found,renewed,?_,?_,?_⟩
    · rw [same]
      exact block
    · rw [block]
      exact inside.begun
    · rw [block]
      exact inside.unfinished
  · rw [same]
    exact inside.keys
  · rw [inside.keys]
    apply List.nodup_range.map
    intro first second equal
    exact hourKey_injective id started (Option.some.inj equal)
  · exact inside.consumed

theorem InHour.unrecorded (inside : InHour started now hours id state) :
    ¬state.ledger.recorded (hourKey id started (hours + 1)) := by
  intro known
  obtain ⟨event,member,same⟩ := List.any_eq_true.mp known
  have key : event.idempotencyKey = some (hourKey id started (hours + 1)) := of_decide_eq_true same
  have owned : event ∈ hourEvents state id := by
    apply List.mem_filter.mpr
    refine ⟨member,?_⟩
    unfold ofHour
    rw [key]
    exact decide_eq_true rfl
  have listed := List.mem_map_of_mem (f := QuotaEvent.idempotencyKey) owned
  rw [inside.keys,key] at listed
  obtain ⟨block,inRange,equal⟩ := List.mem_map.mp listed
  have last := hourKey_injective id started (Option.some.inj equal)
  have bound := List.mem_range.mp inRange
  omega

theorem hourEvents_append {ledger : Ledger} {event : QuotaEvent} (events : ledger.events = state.ledger.events ++ [event])
    (owned : ofHour id event) : hourEvents { state with ledger := ledger } id = hourEvents state id ++ [event] := by
  unfold hourEvents
  rw [events,List.filter_append,List.filter_cons_of_pos owned,List.filter_nil]

theorem recorded_events (calendar : Calendar) (now : Timestamp) {event : KeyedEvent} (unknown : ¬state.ledger.recorded event.1) :
    (recorded calendar now state.ledger event).events = state.ledger.events ++ [event.2.event (some event.1) now] := by
  obtain ⟨fresh,ledger,once⟩ := @recordEventOnce_some state.ledger calendar event.1 event.2 now
  unfold recorded
  rw [once]
  exact recordEventOnce_events unknown once

theorem hourEvents_recorded {event : KeyedEvent} (other : ofHour id (event.2.event (some event.1) now) = false) :
    hourEvents { state with ledger := recorded calendar now state.ledger event } id = hourEvents state id := by
  unfold hourEvents
  by_cases known : state.ledger.recorded event.1
  · have same : recorded calendar now state.ledger event = state.ledger := by
      unfold recorded
      rw [recordEventOnce_known known]
      rfl
    rw [same]
  · dsimp only
    rw [recorded_events calendar now known,List.filter_append,List.filter_cons_of_neg (by rw [other]; exact Bool.false_ne_true),
      List.filter_nil,List.append_nil]

theorem unrecorded_of_empty {block : Int} (empty : hourEvents state id = []) : ¬state.ledger.recorded (.ssrHour id block) := by
  intro known
  obtain ⟨event,member,same⟩ := List.any_eq_true.mp known
  have key : event.idempotencyKey = some (.ssrHour id block) := of_decide_eq_true same
  have owned : event ∈ hourEvents state id := by
    apply List.mem_filter.mpr
    refine ⟨member,?_⟩
    unfold ofHour
    rw [key]
    exact decide_eq_true rfl
  rw [empty] at owned
  cases owned

theorem hourEvents_acquire {lease : SsrProcessLease} {expired : Option SsrProcessLease} (empty : hourEvents state lease.id = []) :
    hourEvents { state with ledger := (acquireEvents expired lease).foldl (recorded calendar now) state.ledger } lease.id =
      [(recordBlock lease).2.event (some (recordBlock lease).1) now] := by
  have reaped : ∃ ledger, hourEvents { state with ledger := ledger } lease.id = [] ∧
      (acquireEvents expired lease).foldl (recorded calendar now) state.ledger =
        recorded calendar now (recorded calendar now ledger (recordProcessEvent lease)) (recordBlock lease) := by
    cases expired with
    | none => exact ⟨state.ledger,empty,rfl⟩
    | some old =>
      refine ⟨recorded calendar now state.ledger (releaseProcessEvent old),?_,rfl⟩
      rw [hourEvents_recorded rfl]
      exact empty
  obtain ⟨ledger,before,same⟩ := reaped
  rw [same]
  have charged : hourEvents { state with ledger := recorded calendar now ledger (recordProcessEvent lease) } lease.id = [] := by
    have kept := @hourEvents_recorded calendar now lease.id { state with ledger := ledger } (recordProcessEvent lease) rfl
    exact kept.trans before
  have owned : ofHour lease.id ((recordBlock lease).2.event (some (recordBlock lease).1) now) := decide_eq_true rfl
  have unknown := @unrecorded_of_empty lease.id { state with ledger := recorded calendar now ledger (recordProcessEvent lease) }
    (unixTimestamp lease.hourBlockStart) charged
  have appended := hourEvents_append (recorded_events calendar now unknown) owned
  rw [charged] at appended
  exact appended

theorem InHour.renew {last : Timestamp} (inside : InHour started last hours id state) (order : last ≤ now)
    {deploymentId nodeId : Uuid} {final : Leasing} {updated : SsrProcessLease}
    (success : SsrLeases.renew calendar limits id deploymentId nodeId now state = (final,.ok updated)) :
    ∃ hours, InHour started now hours id final := by
  obtain ⟨events,after,⟨lease,leases,found,_,unexpired,changed,rfl,value,recording⟩,rfl⟩ :=
    perform_ensures (renew_ensures id deploymentId nodeId) success
  obtain ⟨row,present,renewed,expires,block⟩ := inside.row
  obtain rfl : row = lease := Option.some.inj (present.symm.trans found)
  have owner : row.id = id := Table.find_key found
  have moved : leases.find id = some (setRenewed now (crosses row now) row) := by
    rw [Table.find_update changed,if_pos rfl,found]
    rfl
  rw [expires] at unexpired
  dsimp only at value recording
  cases crossing : crosses row now with
  | false =>
    rw [crossing] at recording moved
    have same : events = [] := recording
    rw [same]
    have within : now < row.hourBlockStart + hourBlock := Int.not_le.mp (of_decide_eq_false crossing)
    refine ⟨hours,⟨_,moved,rfl,rfl,block⟩,?_,?_,inside.keys,inside.consumed⟩
    · exact Int.le_trans inside.begun order
    · rw [← block]
      exact within
  | true =>
    rw [crossing] at recording moved value
    have same : events = [recordBlock updated] := recording
    have start : updated.hourBlockStart = started + ((hours + 1 : Nat) : Int) * hourBlock := by
      rw [value]
      change row.hourBlockStart + hourBlock = _
      rw [block,block_succ]
    have identity : updated.id = id := by
      rw [value]
      exact owner
    have key : (recordBlock updated).1 = hourKey id started (hours + 1) := by
      unfold recordBlock hourKey
      rw [identity,start]
    have unknown : ¬state.ledger.recorded (recordBlock updated).1 := by
      rw [key]
      exact inside.unrecorded
    have owned : ofHour id ((recordBlock updated).2.event (some (recordBlock updated).1) now) := by
      unfold ofHour
      rw [key]
      exact decide_eq_true rfl
    have recorded' := hourEvents_append (recorded_events calendar now unknown) owned
    have begun : started + ((hours + 1 : Nat) : Int) * hourBlock ≤ now := by
      have elapsed : row.hourBlockStart + hourBlock ≤ now := of_decide_eq_true crossing
      rw [block,block_succ] at elapsed
      exact elapsed
    rw [same]
    refine ⟨hours + 1,⟨_,moved,rfl,rfl,?_⟩,begun,next_hour inside.unfinished unexpired,?_,?_⟩
    · rw [← start,value]
    · change (hourEvents { state with ledger := recorded calendar now state.ledger (recordBlock updated) } id).map _ = _
      rw [recorded',List.map_append,inside.keys,List.range_succ (n := hours + 1),List.map_append]
      congr 1
      change [some (recordBlock updated).1] = _
      rw [key]
      rfl
    · intro event member
      have member : event ∈ hourEvents { state with ledger := recorded calendar now state.ledger (recordBlock updated) } id := member
      rw [recorded'] at member
      rcases List.mem_append.mp member with old | new
      · exact inside.consumed event old
      · rw [List.mem_singleton.mp new]
        exact ⟨rfl,rfl,rfl⟩

/-- A lease that `acquire` inserts starts in its first hour. -/
theorem inHour_acquire {deploymentId nodeId fresh : Uuid} {created : Leasing} {lease : SsrProcessLease}
    (unused : Unused state lease.id)
    (acquired : acquire calendar limits deploymentId nodeId now fresh state = (created,.ok lease)) :
    InHour now now 0 lease.id created := by
  obtain ⟨events,after,⟨deployment,reaped,kept,outcome⟩,rfl⟩ := perform_ensures (acquire_ensures deploymentId nodeId fresh) acquired
  rcases outcome with ⟨found,_,_⟩ | ⟨teamId,leases,inserted,rfl,value,recording⟩
  · have present : lease ∈ reaped.rows := List.mem_of_find?_eq_some found
    have known := kept lease.id
    rw [Table.find_of_mem present,unused.row] at known
    cases known
  · dsimp only at value recording
    have identity : lease.id = fresh := by rw [value]; rfl
    have empty : hourEvents { state with leases := leases } lease.id = [] := unused.events
    rw [recording]
    have hours := @hourEvents_acquire calendar now { state with leases := leases } lease
      (expiredLease state deploymentId nodeId now) empty
    have key : (recordBlock lease).1 = hourKey lease.id now 0 := by
      rw [value]
      unfold recordBlock hourKey newLease
      simp
    refine ⟨⟨lease,?_,?_,?_,?_⟩,?_,?_,?_,?_⟩
    · rw [value]
      apply Table.find_of_mem
      rw [Table.rows_insert inserted]
      exact List.mem_append_right _ (List.mem_singleton_self _)
    · rw [value]
      rfl
    · rw [value]
      rfl
    · rw [value]
      simp [newLease]
    · simp
    · rw [Int.natCast_zero,Int.zero_mul,Int.add_zero]
      exact Int.lt_add_of_pos_right now (by decide)
    · rw [hours]
      change [some (recordBlock lease).1] = _
      rw [key]
      rfl
    · intro event member
      rw [hours] at member
      rw [List.mem_singleton.mp member]
      exact ⟨rfl,rfl,rfl⟩

end Steps

/-- Every lease pays for each of its hours once. -/
theorem hours_paid_once (calendar : Calendar) (limits : Uuid → Limits) (deploymentId nodeId fresh : Uuid)
    (started renewed : Timestamp) (before created final : Leasing) (lease : SsrProcessLease)
    (acquired : acquire calendar limits deploymentId nodeId started fresh before = (created,.ok lease))
    (unused : Unused before lease.id)
    (renewals : Relation.ReflTransGen (Renewal calendar lease) (created,started) (final,renewed)) :
    HoursPaid started renewed lease.id final := by
  have inside : ∀ reached, Relation.ReflTransGen (Renewal calendar lease) (created,started) reached →
      ∃ hours, InHour started reached.2 hours lease.id reached.1 := by
    intro reached steps
    induction steps with
    | refl => exact ⟨0,inHour_acquire unused acquired⟩
    | tail _ step ih =>
      obtain ⟨hours,inside⟩ := ih
      cases step with
      | renewed limits state final last now updated order success => exact inside.renew order success
      | elsewhere state other now row events =>
        refine ⟨hours,⟨?_,inside.begun,inside.unfinished,?_,?_⟩⟩
        · rw [row]
          exact inside.row
        · rw [events]
          exact inside.keys
        · rw [events]
          exact inside.consumed
  obtain ⟨hours,last⟩ := inside _ renewals
  exact last.paid

section Examples

def first : SsrProcessLease := newLease 3 7 2 4 0

def started : Leasing := (acquire january unlimited 3 7 0 4 serving).1

def continued : Leasing := (renew january unlimited 4 3 7 (seconds 80) started).1

theorem hours_paid_first : HoursPaid 0 (seconds 80) 4 continued := by
  have acquired : acquire january unlimited 3 7 0 4 serving = (started,.ok first) := Prod.ext rfl (by decide)
  have renewed : renew january unlimited 4 3 7 (seconds 80) started = (continued,.ok (setRenewed (seconds 80) false first)) :=
    Prod.ext rfl (by decide)
  apply hours_paid_once january unlimited 3 7 4 0 (seconds 80) serving started continued first acquired ⟨rfl,rfl⟩
  exact Relation.ReflTransGen.single (.renewed unlimited started continued 0 (seconds 80) _ (by decide) renewed)

end Examples

end GrassWorker.SsrHours
