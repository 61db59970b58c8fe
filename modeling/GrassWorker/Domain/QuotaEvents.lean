import GrassWorker.Domain.Quotas
import GrassWorker.Foundations.Interleaving
import Mathlib.Algebra.Group.Pi.Basic
import Mathlib.Tactic.Ring

/-! Calls of `record_event` and `record_event_once` among each other, one statement at a
time. What a transaction writes is seen once it commits, so its last statement and its
commit are one action; a key it has inserted makes others with the key wait. -/
namespace GrassWorker.QuotaEvents
open Quotas Interleaving Runs

inductive Request
  | record (params : RecordEventParams)
  | once (key : IdempotencyKey) (params : RecordEventParams)
deriving DecidableEq

inductive Handler
  | record (params : RecordEventParams)
  | once (key : IdempotencyKey) (params : RecordEventParams)
  /-- The event is in, or `held` by an open transaction, and its counter is to be found. -/
  | find (event : QuotaEvent) (held : Bool)
  | write (event : QuotaEvent) (held : Bool) (found : Option (Nat × QuotaUsageCounter))
  | commit (event : QuotaEvent)
deriving DecidableEq

structure Shared where
  ledger : Ledger := {}
  /-- The keys of the open transactions. -/
  openKeys : List IdempotencyKey := []
  /-- How many calls have returned an error. -/
  failures : Nat := 0
deriving DecidableEq

def enter : Request → Handler
  | .record params => .record params
  | .once key params => .once key params

def Shared.close (shared : Shared) (event : QuotaEvent) : Shared :=
  { shared with openKeys := shared.openKeys.filter fun key => some key ≠ event.idempotencyKey }

section Machine
variable (calendar : Calendar)

def advance (now : Timestamp) (shared : Shared) : Handler → Shared × Option Handler
  | .record params =>
    let event := params.event none now
    ({ shared with ledger := shared.ledger.insertEvent event },
      if params.kind.counts then some (.find event false) else none)
  | .once key params =>
    let event := params.event (some key) now
    if shared.ledger.recorded key then (shared,none)
    else if key ∈ shared.openKeys then (shared,some (.once key params))
    else ({ shared with openKeys := key :: shared.openKeys },
      some (if params.kind.counts then .find event true else .commit event))
  | .find event held => (shared,some (.write event held (shared.ledger.findCounter (event.window calendar))))
  | .write event held found =>
    match shared.ledger.writeCounter calendar event found with
    | none => ({ shared.close event with failures := shared.failures + 1 },none)
    | some after => ({ shared.close event with ledger := if held then after.insertEvent event else after },none)
  | .commit event => ({ shared.close event with ledger := shared.ledger.insertEvent event },none)

def machine : Machine Shared Handler Request Timestamp := ⟨enter,advance calendar⟩

def Current (shared : Shared) : Handler → Prop
  | .write event _ found =>
    shared.ledger.findCounter (event.window calendar) = found ∧ 0 ≤ foundValue found + event.deltaValue
  | _ => True

instance (shared : Shared) : ∀ handler, Decidable (Current calendar shared handler)
  | .write event _ found =>
    inferInstanceAs (Decidable (shared.ledger.findCounter (event.window calendar) = found ∧ 0 ≤ foundValue found + event.deltaValue))
  | .record _ => isTrue trivial
  | .once _ _ => isTrue trivial
  | .find _ _ => isTrue trivial
  | .commit _ => isTrue trivial

/-- Once all calls have returned successfully, each window has one counter and it holds the sum of its events. -/
def Balanced (config : Config Shared Handler) : Prop :=
  config.inflight = [] → config.shared.failures = 0 →
    config.shared.ledger.Single ∧ ∀ window, config.shared.ledger.used window = config.shared.ledger.total calendar window

def pending (event : QuotaEvent) : Window → Int := fun window => if window = event.window calendar then event.deltaValue else 0

def weight : Handler → Window → Int
  | .find event false | .write event false _ => pending calendar event
  | _ => 0

def Counting : Handler → Prop
  | .find event _ | .write event _ _ => event.kind.counts = true
  | .commit event => event.kind.counts = false
  | _ => True

/-- The counters and what is on its way to them are what the events come to. -/
structure Accounts (config : Config Shared Handler) : Prop where
  single : config.shared.ledger.Single
  balance : ∀ window, config.shared.ledger.used window + owed (weight calendar) config window =
    config.shared.ledger.total calendar window
  counting : ∀ handler ∈ config.inflight, Counting handler

end Machine

section Steps
variable {calendar : Calendar} {shared : Shared} {now : Timestamp}

/-- One action: the counters and the events move together, up to what the handler owes before and after. -/
structure Moves (calendar : Calendar) (before after : Ledger) (owedBefore owedAfter : Window → Int) : Prop where
  single : before.Single → after.Single
  balance : ∀ window, after.used window + owedAfter window + before.total calendar window =
    after.total calendar window + before.used window + owedBefore window

theorem Moves.same (owedBefore : Window → Int) : Moves calendar shared.ledger shared.ledger owedBefore owedBefore :=
  ⟨id,fun window => by ring⟩

theorem insert_moves {event : QuotaEvent} (counts : event.kind.counts) :
    Moves calendar shared.ledger (shared.ledger.insertEvent event) 0 (pending calendar event) := by
  refine ⟨id,fun window => ?_⟩
  rw [total_insertEvent,used_insertEvent]
  simp only [counts,true_and,pending,Pi.zero_apply]
  ring

theorem insert_uncounted {event : QuotaEvent} (counts : event.kind.counts = false) :
    Moves calendar shared.ledger (shared.ledger.insertEvent event) 0 0 := by
  refine ⟨id,fun window => ?_⟩
  rw [total_insertEvent,used_insertEvent]
  simp [counts]
  ring

theorem write_moves {event : QuotaEvent} {after : Ledger} (writes : Writes shared.ledger after (event.window calendar) event.deltaValue) :
    Moves calendar shared.ledger after (pending calendar event) 0 := by
  refine ⟨writes.single,fun window => ?_⟩
  rw [total_of_events writes.events,writes.used]
  simp only [pending,Pi.zero_apply]
  ring

theorem commit_moves {event : QuotaEvent} {after : Ledger} (counts : event.kind.counts)
    (writes : Writes shared.ledger after (event.window calendar) event.deltaValue) :
    Moves calendar shared.ledger (after.insertEvent event) 0 0 := by
  refine ⟨writes.single,fun window => ?_⟩
  rw [total_insertEvent,used_insertEvent,total_of_events writes.events,writes.used]
  simp only [counts,true_and,Pi.zero_apply]
  ring

theorem advance_failures (handler : Handler) : shared.failures ≤ (advance calendar now shared handler).1.failures := by
  cases handler with
  | record params => exact Nat.le_refl _
  | once key params =>
    simp only [advance]
    split
    · exact Nat.le_refl _
    · split <;> exact Nat.le_refl _
  | find event held => exact Nat.le_refl _
  | write event held found =>
    simp only [advance]
    split
    · exact Nat.le_succ _
    · exact Nat.le_refl _
  | commit event => exact Nat.le_refl _

theorem advance_moves (handler : Handler) (counting : Counting handler) (current : Current calendar shared handler)
    (success : (advance calendar now shared handler).1.failures = shared.failures) :
    Moves calendar shared.ledger (advance calendar now shared handler).1.ledger (weight calendar handler)
        (rest (weight calendar) (advance calendar now shared handler).2) ∧
      ∀ next, (advance calendar now shared handler).2 = some next → Counting next := by
  cases handler with
  | record params =>
    simp only [advance]
    by_cases counts : params.kind.counts
    · simp only [if_pos counts]
      refine ⟨insert_moves counts,fun next same => ?_⟩
      obtain rfl := Option.some.inj same
      exact counts
    · simp only [if_neg counts]
      exact ⟨insert_uncounted (Bool.eq_false_iff.mpr counts),fun next same => by cases same⟩
  | once key params =>
    simp only [advance]
    split
    · exact ⟨Moves.same _,fun next same => by cases same⟩
    · split
      · refine ⟨Moves.same _,fun next same => ?_⟩
        obtain rfl := Option.some.inj same
        trivial
      · by_cases counts : params.kind.counts
        · simp only [if_pos counts]
          refine ⟨Moves.same _,fun next same => ?_⟩
          obtain rfl := Option.some.inj same
          exact counts
        · simp only [if_neg counts]
          refine ⟨Moves.same _,fun next same => ?_⟩
          obtain rfl := Option.some.inj same
          exact Bool.eq_false_iff.mpr counts
  | find event held =>
    refine ⟨?_,fun next same => ?_⟩
    · cases held <;> exact Moves.same _
    · obtain rfl := Option.some.inj same
      exact counting
  | write event held found =>
    obtain ⟨fresh,enough⟩ := current
    simp only [advance] at success ⊢
    split
    · rename_i failed
      simp only [failed] at success
      exact absurd success (Nat.succ_ne_self _)
    · rename_i after written
      have writes := writeCounter_writes fresh enough written
      refine ⟨?_,fun next same => by cases same⟩
      cases held with
      | false => exact write_moves writes
      | true => exact commit_moves counting writes
  | commit event => exact ⟨insert_uncounted counting,fun next same => by cases same⟩

end Steps

section Runs
variable {calendar : Calendar}

theorem step_accounts (config : Config Shared Handler) (event : Event Request Timestamp)
    (accounts : Accounts calendar config)
    (current : Acting (fun _ shared handler => Current calendar shared handler) config event)
    (success : ((machine calendar).step config event).shared.failures = config.shared.failures) :
    Accounts calendar ((machine calendar).step config event) := by
  cases event with
  | arrive request =>
    refine ⟨accounts.single,fun window => ?_,fun handler member => ?_⟩
    · have idle : weight calendar (enter request) = 0 := by cases request <;> rfl
      have owed' : owed (weight calendar) ((machine calendar).step config (.arrive request)) =
          owed (weight calendar) config := by
        rw [owed_arrive]
        exact (congrArg (owed (weight calendar) config + ·) idle).trans (add_zero _)
      rw [owed']
      exact accounts.balance window
    · rcases List.mem_append.mp member with old | new
      · exact accounts.counting handler old
      · rw [List.mem_singleton.mp new]
        cases request <;> trivial
  | resume index now =>
    cases found : config.inflight[index]? with
    | none => simpa only [Machine.step,found] using accounts
    | some handler =>
      have member := List.mem_of_getElem? found
      have owed' := owed_resume (machine calendar) (weight calendar) config index now handler found
      simp only [Machine.step,found] at success owed' ⊢
      obtain ⟨moves,counting⟩ := advance_moves handler (accounts.counting handler member) (current handler found) success
      refine ⟨moves.single accounts.single,fun window => ?_,fun other member => ?_⟩
      · have ledger := congrFun owed' window
        have before := accounts.balance window
        have after := moves.balance window
        simp only [Pi.add_apply] at ledger
        change _ + _ = (advance calendar now config.shared handler).1.ledger.total calendar window
        change (advance calendar now config.shared handler).1.ledger.used window + _ = _
        change _ + weight calendar handler window = _ + rest (weight calendar) (advance calendar now config.shared handler).2 window at ledger
        omega
      · rcases mem_settle member with old | next
        · exact accounts.counting other old
        · exact counting other next

def idle : Config Shared Handler := ⟨{},[]⟩

theorem idle_accounts : Accounts calendar idle := by
  refine ⟨List.nodup_nil,fun window => rfl,fun handler member => ?_⟩
  cases member

theorem counters_balance_of_current (calendar : Calendar) (events : List (Event Request Timestamp))
    (current : Along (machine calendar).step (Acting fun _ shared handler => Current calendar shared handler) idle events) :
    Throughout (machine calendar).step (Balanced calendar) idle events := by
  have kept : ∀ config event, (config.shared.failures = 0 → Accounts calendar config) →
      Acting (fun _ shared handler => Current calendar shared handler) config event →
      ((machine calendar).step config event).shared.failures = 0 →
        Accounts calendar ((machine calendar).step config event) := by
    intro config event accounts fresh success
    have monotone : config.shared.failures ≤ ((machine calendar).step config event).shared.failures := by
      cases event with
      | arrive request => exact Nat.le_refl _
      | resume index now =>
        cases found : config.inflight[index]? with
        | none =>
          simp only [Machine.step,found]
          exact Nat.le_refl _
        | some handler =>
          simp only [Machine.step,found]
          exact advance_failures handler
    have before : config.shared.failures = 0 := by omega
    exact step_accounts config event (accounts before) fresh (success.trans before.symm)
  have implied : ∀ config : Config Shared Handler, (config.shared.failures = 0 → Accounts calendar config) →
      Balanced calendar config := by
    intro config accounts finished success
    obtain ⟨single,balance,_⟩ := accounts success
    refine ⟨single,fun window => ?_⟩
    have sum := balance window
    unfold owed at sum
    rw [finished] at sum
    exact (Int.add_zero _).symm.trans sum
  exact throughout_of_invariant kept implied idle events (fun _ => idle_accounts) current

end Runs

section Examples

def oneMonth : Calendar := fun _ => (0,2678400000000)

def artifact : RecordEventParams where
  teamId := 2
  dimension := .storageMb
  kind := .consume
  deltaValue := 5
  resourceType := some "deployment_artifact"
  resourceId := some 9

/-- One artifact is recorded; then two more are, whose calls both find the counter of the first. -/
def racing : List (Event Request Timestamp) :=
  [.arrive (.record artifact),.resume 0 1,.resume 0 1,.resume 0 1,.arrive (.record artifact),.arrive (.record artifact),
    .resume 0 2,.resume 1 2,.resume 0 3,.resume 1 3,.resume 0 4,.resume 0 4]

theorem racing_events_lose_update :
    (run (machine oneMonth).step idle racing).inflight = [] ∧ (run (machine oneMonth).step idle racing).shared.failures = 0 ∧
      (∀ event ∈ (run (machine oneMonth).step idle racing).shared.ledger.events, 0 ≤ event.deltaValue) ∧
      ¬Throughout (machine oneMonth).step (Balanced oneMonth) idle racing := by
  refine ⟨by decide,by decide,by decide,fun balanced => ?_⟩
  have last := (balanced.last (by decide) (by decide)).2 ⟨2,.storageMb,none⟩
  revert last
  decide

theorem counters_balance_one_after_another : Throughout (machine oneMonth).step (Balanced oneMonth) idle
    [.arrive (.record artifact),.resume 0 1,.arrive (.record artifact),.resume 1 1,.resume 0 1,.resume 0 1,.resume 0 2,.resume 0 2] := by
  apply counters_balance_of_current
  decide

end Examples

end GrassWorker.QuotaEvents
